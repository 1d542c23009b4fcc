import WifiAdapter.Proofs.Recurrence
import WifiAdapter.Proofs.Regular
import WifiAdapter.Proofs.Success

/-! The records of open sockets.

Most of what holds of a record is kept by every step (`Adapter.Kempt`). That a slot with an
operation under way is marked is not: the mark is set after the operation has begun, and it is taken
away while the operation may still be under way. It holds between actions
(`Session.markedAt_perform`): a call that takes the mark away was attended to, so it knows that its
operation has come to its end, or it takes it back.

`Session.open_sockets_regular`: after every history, and whenever a notification is about to be
handled, all of this holds of every open socket, the mark as long as no generation comes round
during a wait (`Session.binding_unmarked`). -/
namespace WifiAdapter

/-! ### Marks -/

/-- If an operation is under way on a socket, somebody waits for its end. -/
def SocketTable.MarkedAt (t : SocketTable) (h : Handle) : Prop :=
  ∀ r (p : Purpose), t.get? h = some r → r.phase = p.pending → r.waiting = true

/-- Only a call begins an operation. -/
theorem Phase.pending_of_apply {phase : Phase} {q : Phase.Request} {p : Purpose} (hbind : q ≠ .bind)
    (hlisten : q ≠ .listen) (h : phase.apply q = p.pending) : phase = p.pending := by
  cases q with
  | bind => exact absurd rfl hbind
  | listen => exact absurd rfl hlisten
  | bindDone ok | listenDone ok | connectDone ok =>
    cases phase <;> cases p <;> cases ok <;> first | rfl | cases h
  | connect | accepted | close => cases phase <;> cases p <;> first | rfl | cases h

theorem Phase.pending_of_done {phase : Phase} {p q : Purpose} {ok : Bool}
    (h : phase.apply (q.done ok) = p.pending) : phase = p.pending :=
  pending_of_apply (by cases q <;> nofun) (by cases q <;> nofun) h

/-- An operation that is taken back is under way no longer. -/
theorem Purpose.ne_pending_of_undo {phase : Phase} {p : Purpose}
    (hown : ∀ q : Purpose, phase = q.pending → q = p) (q : Purpose) :
    phase.apply (p.done false) ≠ q.pending := by
  intro h
  have hphase := Phase.pending_of_done h
  obtain rfl := hown q hphase
  rw [hphase] at h
  cases q <;> cases h

namespace SocketTable
variable {t t' : SocketTable} {h : Handle}

theorem MarkedAt.of_get? (hmarked : t.MarkedAt h) (hget : t'.get? h = t.get? h) : t'.MarkedAt h :=
  fun r p hr => hmarked r p (hget ▸ hr)

theorem markedAt_of_free (hfree : t.get? h = none) : t.MarkedAt h :=
  fun _ _ hr => absurd (hfree.symm.trans hr) nofun

/-- The mark stays and no operation begins. -/
theorem MarkedAt.modify (hmarked : t.MarkedAt h) {f : SocketRecord → SocketRecord}
    (hf : ∀ (r : SocketRecord) (p : Purpose), (f r).phase = p.pending →
      (f r).waiting = r.waiting ∧ r.phase = p.pending) : (t.modify h f).MarkedAt h := by
  intro r' p hr' hphase
  rw [get?_modify, if_pos rfl] at hr'
  obtain ⟨r, hr, rfl⟩ := Option.map_eq_some_iff.mp hr'
  obtain ⟨hwaiting, hbefore⟩ := hf r p hphase
  exact hwaiting.trans (hmarked r p hr hbefore)

end SocketTable

namespace Adapter
variable {σ : Type} {D : Deed → Prop} {site? : Option Handle} {a b : Adapter σ} {h : Handle}
  {r r' : SocketRecord} {p : Purpose}

theorem Revision.marked (hrevision : Revision D site? a h r r') (hsite : site? ≠ some h)
    (hphase : r'.phase = p.pending) : r'.waiting = r.waiting ∧ r.phase = p.pending := by
  cases hrevision with
  | begin hsite' | undo hsite' | mark hsite' => exact absurd hsite' hsite
  | complete _ purpose ok starts =>
    cases starts <;> exact ⟨rfl, Phase.pending_of_done hphase⟩
  | connect => exact ⟨rfl, Phase.pending_of_apply (q := .connect) nofun nofun hphase⟩
  | connectDone _ ok =>
    exact ⟨rfl, Phase.pending_of_apply (q := .connectDone ok) nofun nofun hphase⟩
  | _ => exact ⟨rfl, hphase⟩

theorem Fresh.ne_pending (hfresh : a.Fresh r) : r.phase ≠ p.pending := by
  cases hfresh <;> cases p <;> nofun

section Steps
variable [Chip σ]

theorem Step.markedAt (hab : Step D site? a b) (ha : a.Steady) (hsite : site? ≠ some h)
    (hmarked : a.table.MarkedAt h) : b.table.MarkedAt h := by
  rcases hab.slot ha h with ⟨-, hb⟩ | ⟨-, hb, hfresh⟩ | ⟨-, -, hb⟩ | ⟨ha, hb, -, hrevision⟩
  · exact SocketTable.markedAt_of_free hb
  · intro r' p hr' hphase
    cases hr'.symm.trans hb
    exact absurd hphase hfresh.ne_pending
  · exact SocketTable.markedAt_of_free hb
  · intro r' p hr' hphase
    cases hr'.symm.trans hb
    obtain ⟨hwaiting, hbefore⟩ := hrevision.marked hsite hphase
    exact hwaiting.trans (hmarked _ p ha hbefore)

theorem Steps.markedAt (hab : Steps D site? a b) (ha : a.Steady) (hsite : site? ≠ some h)
    (hmarked : a.table.MarkedAt h) : b.table.MarkedAt h :=
  hab.keeps (fun _ _ ha hmarked hstep => hstep.markedAt ha hsite hmarked) ha hmarked

end Steps

end Adapter

namespace Call
variable {σ : Type} {a : Adapter σ} {c : Call} {h : Handle} {p : Purpose}

/-! ### Calls -/

/-- A call that begins marks its socket. -/
theorem markedAt_begin [Chip σ] (hmarked : a.table.MarkedAt h) (p : Purpose) (command : Command)
    (deadline : Adapter σ → Nat) :
    (match a.beginCall h p command with
      | (.error error, a) => ((.finished (.error error), a) : Outcome × Adapter σ)
      | (.ok _, a) => start (some p) h (deadline a) a).2.table.MarkedAt h := by
  cases hbegin : a.beginCall h p command with
  | mk result b =>
    cases result with
    | error error => exact hmarked.of_get? (Adapter.get?_beginCall_error hbegin)
    | ok value =>
      obtain ⟨c, -, hhandle, hwaits, -⟩ := waits_start hbegin (deadline b)
      obtain ⟨_, r, -, hr, hwaiting, -⟩ := hwaits.stage
      intro r' _ hr' _
      rw [hhandle] at hr
      cases hr'.symm.trans hr
      exact hwaiting

theorem markedAt_bind [Chip σ] (hmarked : a.table.MarkedAt h) (address : SocketAddr) (now : Nat) :
    (bind h address now a).2.table.MarkedAt h := by
  unfold bind
  split
  · exact hmarked
  · exact markedAt_begin hmarked .bind _ fun a => now + a.config.bindTimeout

theorem markedAt_listen [Chip σ] (hmarked : a.table.MarkedAt h) (backlog : UInt8) (now : Nat) :
    (listen h backlog now a).2.table.MarkedAt h := by
  unfold listen
  split
  · exact hmarked
  · split
    · exact hmarked
    · exact markedAt_begin hmarked .listen _ fun a => now + a.config.listenTimeout

/-- A call that is finished takes its mark away, and if it failed, what it began as well. -/
theorem table_poll (hp : c.purpose? = some p) (now : Nat) :
    (c.poll now a).2.table = a.table ∨ ∃ result, (c.poll now a).1 = .finished result ∧
      (c.poll now a).2.table =
        let t := if a.table.isCurrent c.socket then
          a.table.modify c.socket.handle fun r => { r with waiting := false } else a.table
        match result with
        | .ok _ => t
        | .error _ => t.modify c.socket.handle (·.apply (p.done false)) := by
  obtain ⟨hsocket, hpurpose, htable⟩ := c.look_keeps now (a := a)
  rw [poll_eq]
  cases hseen : (c.look now a).1.seen? with
  | none =>
    rw [conclude_unseen hseen]
    exact .inl htable
  | some outcome =>
    rw [conclude_seen hseen]
    refine .inr ⟨_, rfl, ?_⟩
    unfold Adapter.finishCall Adapter.settleCall
    simp only [hsocket, hpurpose, hp, htable]
    cases Adapter.callResult _ _ <;> cases a.table.isCurrent c.socket <;>
      simp [htable, Adapter.revert, Adapter.modify, Adapter.onTable, Adapter.disarm]

/-- A call that takes the mark of its socket away leaves no operation under way there. -/
theorem markedAt_poll (hp : c.purpose? = some p)
    (hattends : a.table.isCurrent c.socket = true → a.Attends c p) (now : Nat)
    (hmarked : a.table.MarkedAt c.socket.handle) :
    (c.poll now a).2.table.MarkedAt c.socket.handle := by
  have hundo {t : SocketTable} (ht : t.MarkedAt c.socket.handle) :
      (t.modify c.socket.handle (·.apply (p.done false))).MarkedAt c.socket.handle :=
    ht.modify fun r q hphase => ⟨rfl, Phase.pending_of_done hphase⟩
  rcases table_poll (a := a) hp now with htable | ⟨result, hresult, htable⟩
  · rw [htable]
    exact hmarked
  · rw [htable]
    cases hcurrent : a.table.isCurrent c.socket with
    | false =>
      cases result with
      | ok value => exact hmarked
      | error error => exact hundo hmarked
    | true =>
      obtain ⟨r, hr, -, hpending⟩ := (hattends hcurrent).record
      cases result with
      | ok value =>
        obtain ⟨-, hassured⟩ := ok_of_poll now hresult
        intro r' q hr' hphase
        rw [if_pos rfl] at hr'
        change (a.table.modify c.socket.handle _).get? c.socket.handle = some r' at hr'
        cases (SocketTable.get?_modify_self hr).symm.trans hr'
        exact absurd hassured (hpending q hphase).2
      | error error =>
        intro r' q hr' hphase
        rw [if_pos rfl] at hr'
        change ((a.table.modify c.socket.handle _).modify c.socket.handle _).get? c.socket.handle =
          some r' at hr'
        cases (SocketTable.get?_modify_self (SocketTable.get?_modify_self hr)).symm.trans hr'
        exact absurd hphase (Purpose.ne_pending_of_undo (fun q hq => (hpending q hq).1) q)

end Call

/-! ### Histories -/

namespace Session
variable {σ : Type} [Chip σ] {s : Session σ} {actions : List (Action σ)} {h : Handle}

/-- No call begins, is polled or is aborted while notifications are handled. -/
theorem site?_of_moments {action : Action σ} {m : Moment σ} (hm : m ∈ s.moments action) :
    s.site? action = none := by
  cases action with
  | poll id =>
    change m ∈ ((s.find? id).map _).getD [] at hm
    change (s.find? id).bind Task.site? = none
    cases hfind : s.find? id with
    | none => rfl
    | some t =>
      rw [hfind] at hm
      cases t with
      | call c => cases hm
      | _ => rfl
  | bind | listen | close | contend => cases hm
  | _ => rfl

theorem markedAt_perform (hs : s.adapter.Steady) (action : Action σ)
    (hcalls : ∀ id c, s.find? id = some (.call c) → ∃ p, c.purpose? = some p ∧
      (s.adapter.table.isCurrent c.socket = true → s.adapter.Attends c p))
    (hmarked : s.adapter.table.MarkedAt h) : (s.perform action).2.adapter.table.MarkedAt h := by
  by_cases hsite : s.site? action = some h
  · cases action with
    | close k =>
      cases hsite
      have hclosed := Adapter.isOpen_close s.adapter h
      exact SocketTable.markedAt_of_free (SocketTable.get?_of_free hclosed)
    | bind k address =>
      cases hsite
      rw [show (s.perform (.bind h address)).2.adapter = _ from adapter_ofBegun s _]
      exact Call.markedAt_bind hmarked address s.clock
    | listen k backlog =>
      cases hsite
      rw [show (s.perform (.listen h backlog)).2.adapter = _ from adapter_ofBegun s _]
      exact Call.markedAt_listen hmarked backlog s.clock
    | poll id =>
      obtain ⟨c, hc, rfl⟩ := exists_call_of_site hsite
      obtain ⟨p, hp, hattends⟩ := hcalls id c hc
      rw [adapter_poll_call hc]
      exact Call.markedAt_poll hp hattends s.clock hmarked
    | contend id =>
      obtain ⟨c, hc, rfl⟩ := exists_call_of_site hsite
      exact hmarked.of_get? (congrArg (·.get? c.socket.handle) (table_contend_call hc))
    | _ => cases hsite
  · exact (yields_perform s action hs).markedAt hs hsite hmarked

theorem Minded.calls (hminded : s.Minded actions) (id : Nat) (c : Call)
    (hc : (s.run actions).find? id = some (.call c)) :
    ∃ p, c.purpose? = some p ∧
      ((s.run actions).adapter.table.isCurrent c.socket = true →
        (s.run actions).adapter.Attends c p) := by
  have htended := hminded.tended id c hc
  obtain ⟨p, hp⟩ := htended.purpose
  exact ⟨p, hp, fun hcurrent => (htended.attends p hp hcurrent).1⟩

/-- Wherever an operation is under way the slot is marked, also whenever a notification is about to
be handled. -/
theorem markedAt_run (chip : σ) (packets : Nat) (config : Config)
    (hbrief : (new chip packets config).Brief actions) :
    let s := new chip packets config
    (s.run actions).adapter.table.MarkedAt h ∧
      ∀ m ∈ s.trail actions, m.adapter.table.MarkedAt h := by
  intro s
  have hs : s.adapter.Steady := Adapter.steady_new chip packets config
  induction actions using List.reverseRecOn with
  | nil =>
    refine ⟨SocketTable.markedAt_of_free ?_, List.forall_mem_nil _⟩
    simp [s, run, new, Adapter.new, SocketTable.empty, SocketTable.get?, Slot.free]
  | append_singleton actions action ih =>
    obtain ⟨hmarked, htrail⟩ := ih hbrief.prefix
    have hsteady := steady_run hs actions
    have hminded := minded_run chip packets config hbrief.prefix
    refine ⟨?_, fun m hm => ?_⟩
    · rw [run_snoc]
      exact markedAt_perform hsteady action hminded.calls hmarked
    · rw [trail_snoc] at hm
      rcases List.mem_append.mp hm with hm | hm
      · exact htrail m hm
      · have hreached := (passes_perform (s.run actions) action hsteady).reaches hsteady hm
        exact hreached.markedAt hsteady (by simp [site?_of_moments hm]) hmarked

/-- A chain is given for a socket only if some action sends it there. -/
def Gives (actions : List (Action σ)) (d : Deed) : Prop :=
  ∀ h chain, d = .give h chain → ∃ dest?, .send h chain dest? ∈ actions

theorem kempt_run (chip : σ) (packets : Nat) (config : Config) (actions : List (Action σ)) :
    let s := new chip packets config
    (s.run actions).adapter.Kempt (Gives actions) ∧
      ∀ m ∈ s.trail actions, m.adapter.Kempt (Gives actions) := by
  intro s
  have hnotes (note : Notification) (d : Deed) (hd : d ∈ note.deed?) : Gives actions d := by
    rintro h chain rfl
    exact (Notification.incoming hd).elim
  have hactions (action : Action σ) (haction : action ∈ actions) (d : Deed)
      (hd : deeds action d) : Gives actions d := by
    rintro h chain rfl
    obtain ⟨dest?, rfl⟩ := broughtBy_of_deeds hd
    exact ⟨dest?, haction⟩
  obtain ⟨hrun, htrail⟩ := invariant_run_of (s := s) (P := Adapter.Kempt (Gives actions))
    (fun _ _ _ ha hkempt hstep => hstep.kempt ha hkempt) hnotes nofun
    (Adapter.steady_new chip packets config) (Adapter.kempt_new chip packets config) actions
    hactions
  exact ⟨hrun, fun m hm => (htrail m hm).2⟩

/-- After every history, and whenever a notification is about to be handled, every open socket is
regular: it is not closed, a datagram socket is at most bound and has nothing waiting, data waits
at connected streams only, whoever connects or is connected has a peer, and a stream that has heard
from it is connected. What waits is some of a chain that the application gave for the socket, with
no empty segment if that has none; and as long as no generation comes round during a wait, the mark
is there while an operation is under way. -/
theorem open_sockets_regular (chip : σ) (packets : Nat) (config : Config)
    (actions : List (Action σ)) :
    let s := new chip packets config
    ∀ a : Adapter σ, (a = (s.run actions).adapter ∨ ∃ m ∈ s.trail actions, a = m.adapter) →
      ∀ h r, a.table.get? h = some r →
        r.Regular ∧
        (∀ rest, r.pendingTx? = some rest → rest.segments ≠ [] ∧
          ((∀ chain dest?, .send h chain dest? ∈ actions → chain.Solid) → rest.Solid)) ∧
        (s.Brief actions → r.phase = .binding ∨ r.phase = .listenPending → r.waiting = true) := by
  intro s a hreached h r hr
  have hkempt : a.Kempt (Gives actions) := by
    obtain ⟨hrun, htrail⟩ := kempt_run chip packets config actions
    rcases hreached with rfl | ⟨m, hm, rfl⟩
    · exact hrun
    · exact htrail m hm
  refine ⟨hkempt.regular h r hr, fun rest hrest => ?_, fun hbrief hphase => ?_⟩
  · obtain ⟨chain, hgives, hleft⟩ := hkempt.given h r rest hr hrest
    obtain ⟨dest?, hsend⟩ := hgives h chain rfl
    exact ⟨hleft.some, fun hsolid => hleft.solid (hsolid chain dest? hsend)⟩
  · obtain ⟨hrun, htrail⟩ := markedAt_run (h := h) chip packets config hbrief
    have hmarked : a.table.MarkedAt h := by
      rcases hreached with rfl | ⟨m, hm, rfl⟩
      · exact hrun
      · exact htrail m hm
    rcases hphase with hphase | hphase
    · exact hmarked r .bind hr hphase
    · exact hmarked r .listen hr hphase

/-- The chip takes the first piece of what a stream sends, and a datagram socket is being bound. -/
def underWay (stream datagram : Handle) : List (Action ScriptedChip) :=
  [.create .inet .stream, .connect stream (.v4 ⟨⟨10, 0, 0, 1⟩, 80⟩),
    .dispatch (.socket stream (.connected .success)),
    .chip { ScriptedChip.new with budget? := some 1 }, .send stream ⟨[[1, 2], [3]]⟩ none,
    .create .inet .datagram, .bind datagram (.v4 ⟨⟨10, 0, 0, 2⟩, 53⟩)]

/-- The other piece waits at the connected stream, and the datagram socket is marked. -/
theorem open_sockets_regular_underWay :
    let a := ((new ScriptedChip.new 1 .defaults).run (underWay 0 7)).adapter
    (∃ r, a.table.get? 0 = some r ∧ r.Regular ∧ r.pendingTx? = some ⟨[[3]]⟩) ∧
      ∃ r, a.table.get? 7 = some r ∧ r.Regular ∧ r.phase = .binding ∧ r.waiting = true := by
  intro a
  have hbrief : (new ScriptedChip.new 1 .defaults).Brief (underWay 0 7) :=
    brief_of_openings (Adapter.steady_new ..) (by decide +kernel)
  have hregular := open_sockets_regular ScriptedChip.new 1 .defaults (underWay 0 7) a (.inl rfl)
  obtain ⟨r, hr, hpending⟩ : ∃ r, a.table.get? 0 = some r ∧ r.pendingTx? = some ⟨[[3]]⟩ :=
    by decide +kernel
  obtain ⟨r', hr', hphase⟩ : ∃ r, a.table.get? 7 = some r ∧ r.phase = .binding := by
    decide +kernel
  obtain ⟨hstream, -, -⟩ := hregular 0 r hr
  obtain ⟨hdatagram, -, hmarked⟩ := hregular 7 r' hr'
  exact ⟨⟨r, hr, hstream, hpending⟩, r', hr', hdatagram, hphase, hmarked hbrief (.inl hphase)⟩

/-- A slot is closed and opened again under the caller of a listen, whose time runs out. -/
def openedUnderListen (h : Handle) : List (Action ScriptedChip) :=
  [.create .inet .stream, .bind h (.v4 ⟨⟨10, 0, 0, 1⟩, 80⟩), .dispatch (.socket h (.bound .success)),
    .poll 0, .listen h 1, .close h, .create .inet .stream, .advance 1000]

/-- The slot is opened until its first generation comes back, and then it is being bound when the
caller of the listen is polled: it takes the mark of the bind away. -/
theorem binding_unmarked :
    ¬ ∀ actions : List (Action ScriptedChip),
      ∀ h r, ((new ScriptedChip.new 4 .defaults).run actions).adapter.table.get? h = some r →
        r.phase = .binding ∨ r.phase = .listenPending → r.waiting = true := by
  intro hmarked
  have hrecurs : ((new ScriptedChip.new 4 .defaults).run (openedUnderListen 0)).Recurs 0 :=
    ⟨rfl, rfl, by decide +kernel⟩
  obtain ⟨rounds, journal, hback⟩ := hrecurs.comes_back (g := 1) rfl
  let bindPolled : List (Action ScriptedChip) := [.bind 0 (.v4 ⟨⟨10, 0, 0, 1⟩, 80⟩), .poll 1]
  have hunmarked : ((((new ScriptedChip.new 4 .defaults).run (openedUnderListen 0)).atGeneration 0 1
      journal).run bindPolled).adapter.table.get? 0 =
        some { SocketRecord.new .stream with phase := .binding } := rfl
  have hlast := hmarked (openedUnderListen 0 ++ rounds ++ bindPolled) 0
  rw [run_append, hback] at hlast
  cases hlast _ hunmarked (.inl rfl)

end Session

end WifiAdapter
