import WifiAdapter.Proofs.Asking

/-! Answers that come late.

A delivery names its socket by the handle alone, so whom it was asked for shows only in the order of
things. A receive may still be under way in the chip when its socket is closed and the slot taken
into use again; its answer then comes late. `late_answer_lands_iff` says when a late answer reaches the
new occupant of the slot: just if that one was asked too and waits for an answer of its own. -/
namespace WifiAdapter

namespace Adapter
variable {σ : Type}

/-- The generation of every slot counts its openings. -/
def Counted (a : Adapter σ) : Prop :=
  ∀ h, a.table.generation h = UInt32.ofNat (a.bus.openings h)

theorem counted_new (chip : σ) (packets : Nat) (config : Config) :
    (new chip packets config).Counted := by
  intro h
  simp [new, SocketTable.empty, SocketTable.generation, Slot.free, Bus.openings]

theorem Ages.counted {a b : Adapter σ} (hab : ∀ h, Ages h a b) (ha : a.Counted) : b.Counted := by
  intro h
  obtain ⟨n, hn⟩ := hab h
  rw [hn.generation, ha h, hn.openings, UInt32.ofNat_add]

section Landing
variable [Chip σ] {a : Adapter σ} {h : Handle}

/-- What changes a socket is the answer to the receive that is outstanding for it. -/
theorem outstanding_of_intake_ne (hs : a.Steady) {now : Nat} {d : Delivery} {k : Handle}
    (hne : (a.handle now (.socket h (.received d))).intake k ≠ a.intake k) :
    a.rx.cursor? = some (a.table.incarnation h) ∧ a.table.isOpen h = true := by
  by_cases hasked : ∃ i, a.rx.outstanding? = some i ∧ i.handle = h
  · obtain ⟨i, hout, rfl⟩ := hasked
    have hcursor := RxState.cursor_of_outstanding hout
    rw [SocketTable.incarnation_of_current (hs.sound.asked i hcursor).current]
    exact ⟨hcursor, hs.sound.isOpen (.inl hcursor)⟩
  · exact absurd (intake_stray hs (fun i hout hh => hasked ⟨i, hout, hh⟩) now d k) hne

/-- An answer that brings anything changes its socket. -/
theorem intake_ne_of_outstanding (hs : a.Steady) {room : Nat} {since : List Entry}
    (hout : a.Outstanding h room since) (hroom : 1 ≤ room) {d : Delivery}
    (hd : d.bytes ≠ [] ∨ d.ends = true) (now : Nat) :
    (a.handle now (.socket h (.received d))).intake h ≠ a.intake h := by
  obtain ⟨x, y, hx, hy, hbrings⟩ := intake_answer hs (hs.sound.outstanding hout.cursor) now d
  intro hsame
  obtain rfl : y = x := Option.some.inj (hy.symm.trans (hsame.trans hx))
  have hgoes : d.ends = false := hbrings.ended.symm.trans hbrings.running
  have hlength := congrArg List.length (hbrings.bytes hgoes)
  rw [List.length_append, List.length_take, hout.room] at hlength
  rcases hd with hbytes | hends
  · have hpos := List.length_pos_iff.mpr hbytes
    omega
  · rw [hgoes] at hends
    cases hends

end Landing

end Adapter

namespace Session
variable {σ : Type} [Chip σ]

theorem counted_run (chip : σ) (packets : Nat) (config : Config) (actions : List (Action σ)) :
    ∀ m ∈ (new chip packets config).trail actions, m.adapter.Counted := fun m hm =>
  ((invariant_run (s := new chip packets config)
    (fun _ _ _ hs ha hab => Adapter.Ages.counted (fun _ => Adapter.Steps.ages (.single hab) hs) ha)
    (Adapter.steady_new chip packets config) (Adapter.counted_new chip packets config) actions).2
      m hm).2

/-- A receive was asked of a socket, and the slot has another generation by the time a delivery for
it is handled. If the delivery brings bytes or the end of the stream, it changes what the slot's
socket has taken in just if that socket was asked since, and is still waiting for its answer. -/
theorem late_answer_lands_iff (chip : σ) (packets : Nat) (config : Config)
    (actions : List (Action σ)) {m : Moment σ} (hm : m ∈ (new chip packets config).trail actions)
    {h : Handle} {d : Delivery} (hnote : m.note = .socket h (.received d)) {before : List Entry}
    {room timeout : Nat} {since : List Entry}
    (hjournal : m.adapter.bus.journal = before ++ .request h room timeout :: since)
    (hlate : m.adapter.table.generation h ≠ UInt32.ofNat (before.countP (Entry.opens h)))
    (hd : d.bytes ≠ [] ∨ d.ends = true) (now : Nat) :
    (m.adapter.handle now m.note).intake h ≠ m.adapter.intake h ↔
      m.adapter.table.isOpen h = true ∧ ∃ middle room' timeout' rest,
        since = middle ++ .request h room' timeout' :: rest ∧
        ∀ e ∈ rest, e.delivers h = false ∧ e.opens h = false := by
  obtain ⟨hs, ha⟩ := (asking_run chip packets config actions).2 m hm
  have hcounted := counted_run chip packets config actions m hm h
  rw [hnote]
  constructor
  · intro hne
    obtain ⟨hcursor, hopen⟩ := Adapter.outstanding_of_intake_ne hs hne
    obtain ⟨before', room', timeout', rest, hsplit, hrest⟩ :
        ∃ before' room' timeout' rest,
          m.adapter.bus.journal = before' ++ .request h room' timeout' :: rest ∧
          ∀ e ∈ rest, e.delivers h = false ∧ e.opens h = false := ha.asked _ hcursor
    refine ⟨hopen, ?_⟩
    have hboth : (before ++ [.request h room timeout]) ++ since =
        before' ++ .request h room' timeout' :: rest := by
      rw [← hsplit, hjournal, List.append_assoc, List.singleton_append]
    rcases Entry.split_append hboth with ⟨rest', -, rfl⟩ | ⟨middle, -, hsince⟩
    · -- The newest receive is not newer than the old one, so the slot was not opened since.
      exfalso
      refine hlate (hcounted.trans (congrArg UInt32.ofNat ?_))
      have hnone : since.countP (Entry.opens h) = 0 :=
        List.countP_eq_zero.mpr fun e he => by
          rw [(hrest e (List.mem_append_right _ he)).2]
          exact Bool.false_ne_true
      unfold Bus.openings
      rw [hjournal, List.countP_append, List.countP_cons, hnone]
      rfl
    · exact ⟨middle, room', timeout', rest, hsince, hrest⟩
  · rintro ⟨hopen, middle, room', timeout', rest, rfl, hrest⟩
    have hsplit : m.adapter.bus.journal =
        (before ++ .request h room timeout :: middle) ++ .request h room' timeout' :: rest := by
      rw [hjournal, List.append_assoc, List.cons_append]
    have hmem : .request h room' timeout' ∈ m.adapter.bus.journal := by
      rw [hsplit]
      exact List.mem_append_right _ (List.mem_cons_self ..)
    have hroom := (ha.rooms h room' timeout' _ hmem).1
    rcases ha.unanswered _ h room' timeout' rest hsplit fun e he => (hrest e he).1 with hout | hleft
    · exact Adapter.intake_ne_of_outstanding hs hout hroom hd now
    · rcases hleft.gone with hgone | ⟨e, he, hopens⟩
      · cases hopen.symm.trans hgone
      · cases (hrest e he).2.symm.trans hopens

/-- A datagram socket is opened and bound, and so it is asked for data. -/
def boundDatagram : List (Action ScriptedChip) :=
  [.create .inet .datagram, .bind 7 (.v4 ⟨⟨0, 0, 0, 0⟩, 68⟩), .dispatch (.socket 7 (.bound .success))]

/-- The new occupant was not asked for anything, and the late answer does not reach it. -/
theorem late_answer_lands_unasked :
    let s := new ScriptedChip.new 4 .defaults
    let d : Delivery := ⟨5, 0, default, [115, 116, 97, 108, 101]⟩
    ∃ m ∈ s.trail (boundDatagram ++
        [.close 7, .create .inet .datagram, .dispatch (.socket 7 (.received d))]),
      m.note = .socket 7 (.received d) ∧ m.adapter.table.isOpen 7 = true ∧
      (m.adapter.handle 0 m.note).intake 7 = m.adapter.intake 7 := by
  intro s d
  let reopened := boundDatagram ++ [.close 7, .create .inet .datagram]
  let m : Moment ScriptedChip := ⟨(s.run reopened).adapter, .socket 7 (.received d)⟩
  let since : List Entry := [.command (.close 7) (.accepted ()), .opening .datagram (.accepted 7),
    .opened ⟨7, 2⟩]
  have hm : m ∈ s.trail (reopened ++ [.dispatch (.socket 7 (.received d))]) :=
    mem_trail_dispatch s reopened _
  have hjournal : m.adapter.bus.journal =
      m.adapter.bus.journal.take 6 ++ .request 7 1500 1 :: since := by decide +kernel
  have hlands := late_answer_lands_iff ScriptedChip.new 4 .defaults _ hm rfl hjournal
    (by decide +kernel) (by decide) 0
  refine ⟨m, hm, rfl, by decide +kernel, Decidable.of_not_not fun hne => ?_⟩
  obtain ⟨-, middle, room, timeout, rest, hsince, -⟩ := hlands.mp hne
  have hmem : .request 7 room timeout ∈ since := hsince ▸ by simp
  simp [since, Entry.request] at hmem

/-- The new occupant was asked as well: what the chip read for the old one is queued at it. -/
theorem late_answer_lands :
    ¬ ∀ (actions : List (Action ScriptedChip)) (m : Moment ScriptedChip),
      m ∈ (new ScriptedChip.new 4 .defaults).trail actions →
      ∀ h d before room timeout since, m.note = .socket h (.received d) →
        m.adapter.bus.journal = before ++ .request h room timeout :: since →
        (∀ e ∈ since, e.delivers h = false) →
        m.adapter.table.generation h ≠ UInt32.ofNat (before.countP (Entry.opens h)) →
        ∀ now, (m.adapter.handle now m.note).intake h = m.adapter.intake h := by
  intro hnever
  let s := new ScriptedChip.new 4 .defaults
  let d : Delivery := ⟨5, 0, default, [115, 116, 97, 108, 101]⟩
  let again := boundDatagram ++ [.close 7] ++ boundDatagram
  let m : Moment ScriptedChip := ⟨(s.run again).adapter, .socket 7 (.received d)⟩
  have hm : m ∈ s.trail (again ++ [.dispatch (.socket 7 (.received d))]) :=
    mem_trail_dispatch s again _
  have hjournal : m.adapter.bus.journal = m.adapter.bus.journal.take 6 ++
      .request 7 1500 1 :: m.adapter.bus.journal.drop 7 := by decide +kernel
  have hsame := hnever _ m hm 7 d _ 1500 1 _ rfl hjournal (by decide +kernel) (by decide +kernel) 0
  have hbefore : m.adapter.intake 7 = some ⟨[], false⟩ := by decide +kernel
  have hafter : (m.adapter.handle 0 m.note).intake 7 = some ⟨d.data, false⟩ := by decide +kernel
  rw [hbefore, hafter] at hsame
  cases hsame

end Session

end WifiAdapter
