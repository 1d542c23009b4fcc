import WifiAdapter.Proofs.Recurrence
import WifiAdapter.Proofs.Success

/-! One caller at a time waits on a socket.

A slot in use is marked while a caller waits for the end of a bind or a listen there, and nobody
begins to wait where there is a mark. The mark is in the record of the slot and not with the
caller, so it could be taken away by a caller that waited on an earlier occupant, or be left
behind by one that was dropped. `one_caller_waits`: in every history the mark is there while a
caller waits on the present occupant, no second caller does, and another bind or listen is turned
away without a trace. Occupants are told apart by the generation of the slot, which is a word: it
must not go all the way round while somebody waits (`Brief`). `two_callers_wait`: when it does, two
callers wait on the same occupant, as far as anyone can tell. -/
namespace WifiAdapter

namespace Session
variable {σ : Type} [Chip σ] {s : Session σ} {h : Handle}

/-- What the caller of a second bind or listen is told. -/
def turnedAway : Reply := .finished (.call (.error .again))

omit [Chip σ] in
/-- An operation that ends at the first look and changes nothing leaves no trace. -/
theorem begin_of_unchanged {f : Nat → Adapter σ → Task.Outcome × Adapter σ} {result : TaskResult}
    (hf : f s.clock s.adapter = (.finished result, s.adapter)) :
    Reply.ofBegun (s.begin f) = (.finished result, s) := by
  unfold begin
  rw [hf]
  rfl

theorem bind_marked (address : Endpoint)
    (hmarked : (s.adapter.table.get? h).any (·.waiting) = true) :
    s.perform (.bind h (.v4 address)) = (turnedAway, s) := by
  refine begin_of_unchanged ?_
  unfold Call.bind SocketAddr.native?
  dsimp only
  rw [Adapter.beginCall_marked _ _ hmarked]
  rfl

theorem listen_marked (backlog : UInt8) (hkind : s.adapter.table.kind? h = some .stream)
    (hmarked : (s.adapter.table.get? h).any (·.waiting) = true) :
    s.perform (.listen h backlog) = (turnedAway, s) := by
  obtain ⟨r, hr, hstream⟩ := Option.map_eq_some_iff.mp hkind
  refine begin_of_unchanged ?_
  unfold Call.listen SocketTable.get
  rw [hr]
  dsimp only
  rw [if_neg (not_not_intro hstream), Adapter.beginCall_marked _ _ hmarked]
  rfl

/-- The mark of a slot is there while a caller waits on its present occupant. -/
theorem Minded.marked {actions : List (Action σ)} (hminded : s.Minded actions) {id : Nat} {c : Call}
    (hc : (s.run actions).find? id = some (.call c))
    (hcurrent : (s.run actions).adapter.table.isCurrent c.socket = true) :
    ((s.run actions).adapter.table.get? c.socket.handle).any (·.waiting) = true := by
  have htended := hminded.tended id c hc
  obtain ⟨p, hp⟩ := htended.purpose
  obtain ⟨r, hr, hwaiting, -⟩ := (htended.attends p hp hcurrent).1.record
  rw [hr]
  exact hwaiting

/-- At any time at most one caller waits on the present occupant of a slot. While one does, every
bind to an address of the fourth version and every listen on a stream socket there is turned away
at once, and nothing at all is changed by it: not the record, not what is posted for the caller
that waits, not the chip, and so not what that caller will be told. -/
theorem one_caller_waits (chip : σ) (packets : Nat) (config : Config) (actions : List (Action σ))
    (hbrief : (new chip packets config).Brief actions) :
    let s := (new chip packets config).run actions
    (∀ id k c d, s.find? id = some (.call c) → s.find? k = some (.call d) →
      c.socket.handle = d.socket.handle → s.adapter.table.isCurrent c.socket = true →
      s.adapter.table.isCurrent d.socket = true → id = k) ∧
    ∀ id c, s.find? id = some (.call c) → s.adapter.table.isCurrent c.socket = true →
      (s.adapter.table.get? c.socket.handle).any (·.waiting) = true ∧
      (∀ address, s.perform (.bind c.socket.handle (.v4 address)) = (turnedAway, s)) ∧
      (s.adapter.table.kind? c.socket.handle = some .stream →
        ∀ backlog, s.perform (.listen c.socket.handle backlog) = (turnedAway, s)) := by
  intro s
  have hminded := minded_run chip packets config hbrief
  refine ⟨fun id k c d hc hd hhandle hcurrent hcurrent' => ?_, fun id c hc hcurrent => ?_⟩
  · have hsocket : c.socket = d.socket := by
      rw [← SocketTable.incarnation_of_current hcurrent, hhandle,
        SocketTable.incarnation_of_current hcurrent']
    exact hminded.apart id k c d hc hd hsocket hcurrent
  · have hmarked := hminded.marked hc hcurrent
    exact ⟨hmarked, fun address => bind_marked address hmarked,
      fun hkind backlog => listen_marked backlog hkind hmarked⟩

/-- A slot is taken into use again under the caller of a bind, and its new occupant is to be bound
as well. The first caller runs out of time and takes the bind back, but not the mark. -/
theorem one_caller_waits_reopened :
    let actions := [.create .inet .stream, .bind 0 (.v4 ⟨⟨10, 0, 0, 1⟩, 80⟩), .close 0,
      .create .inet .stream, .bind 0 (.v4 ⟨⟨10, 0, 0, 1⟩, 80⟩), .advance 1000, .poll 0]
    let s := (new ScriptedChip.new 4 .defaults).run actions
    (new ScriptedChip.new 4 .defaults).Brief actions ∧
      s.adapter.table.phase? 0 = some .unbound ∧
      s.perform (.bind 0 (.v4 ⟨⟨10, 0, 0, 1⟩, 81⟩)) = (turnedAway, s) ∧
      s.perform (.listen 0 1) = (turnedAway, s) := by
  intro actions s
  have hbrief : (new ScriptedChip.new 4 .defaults).Brief actions :=
    brief_of_openings (Adapter.steady_new ..) (by decide)
  obtain ⟨-, hturned⟩ := one_caller_waits ScriptedChip.new 4 .defaults actions hbrief
  obtain ⟨-, hbind, hlisten⟩ := hturned 1 ⟨some .bind, ⟨0, 2⟩, 1000, none⟩ rfl rfl
  exact ⟨hbrief, rfl, hbind _, hlisten rfl 1⟩

def binding (h : Handle) : Action ScriptedChip := .bind h (.v4 ⟨⟨10, 0, 0, 1⟩, 80⟩)

/-- A slot is closed and opened again under the caller of a bind. -/
def openedAgain (h : Handle) : List (Action ScriptedChip) :=
  [.create .inet .stream, binding h, .close h, .create .inet .stream]

/-- A bind waits, and its slot is closed and opened until its generation comes back. The slot is in
use by somebody else then, and unmarked: the next bind is not turned away, and after it two callers
wait. And a slot that was closed under a caller turns nobody away. -/
theorem two_callers_wait :
    (¬ ∀ actions : List (Action ScriptedChip),
      let s := (new ScriptedChip.new 4 .defaults).run actions
      ∀ id k c d, s.find? id = some (.call c) → s.find? k = some (.call d) →
        c.socket.handle = d.socket.handle → s.adapter.table.isCurrent c.socket = true →
        s.adapter.table.isCurrent d.socket = true → id = k) ∧
    (¬ ∀ actions : List (Action ScriptedChip),
      let s := (new ScriptedChip.new 4 .defaults).run actions
      ∀ id c, s.find? id = some (.call c) → s.adapter.table.isCurrent c.socket = true →
        ∀ address, (s.perform (.bind c.socket.handle (.v4 address))).1 = turnedAway) ∧
    ¬ ∀ actions : List (Action ScriptedChip),
      let s := (new ScriptedChip.new 4 .defaults).run actions
      ∀ id c, s.find? id = some (.call c) →
        s.adapter.table.generation c.socket.handle = c.socket.generation →
        ∀ address, (s.perform (.bind c.socket.handle (.v4 address))).1 = turnedAway := by
  have hrecurs : ((new ScriptedChip.new 4 .defaults).run (openedAgain 0)).Recurs 0 :=
    ⟨rfl, rfl, by decide +kernel⟩
  obtain ⟨rounds, journal, hback⟩ := hrecurs.comes_back (g := 1) rfl
  -- Both callers wait on the first occupant, as far as the generation says.
  have hparked : ((((new ScriptedChip.new 4 .defaults).run (openedAgain 0)).atGeneration 0 1
      journal).perform (binding 0)).1 = .parked 1 := rfl
  have hinvalid : (((new ScriptedChip.new 4 .defaults).run ((openedAgain 0).take 3)).perform
      (binding 0)).1 = .finished (.call (.error .invalidArgument)) := rfl
  refine ⟨fun hone => ?_, fun hturned => ?_, fun hturned => ?_⟩
  · have hagain := hone (openedAgain 0 ++ rounds ++ [binding 0]) 0 1 ⟨some .bind, ⟨0, 1⟩, 1000, none⟩
      ⟨some .bind, ⟨0, 1⟩, 1000, none⟩
    rw [run_append, hback] at hagain
    exact absurd (hagain rfl rfl rfl rfl rfl) (by decide)
  · have hbind := hturned (openedAgain 0 ++ rounds) 0 ⟨some .bind, ⟨0, 1⟩, 1000, none⟩
    rw [hback] at hbind
    cases hparked.symm.trans (hbind rfl rfl _)
  · have hclosed := hturned ((openedAgain 0).take 3) 0 ⟨some .bind, ⟨0, 1⟩, 1000, none⟩ rfl rfl
    cases hinvalid.symm.trans (hclosed _)

end Session

end WifiAdapter
