import WifiAdapter.Proofs.Entering

/-! What a step makes of a record.

A step leaves a slot free, takes it into use, frees it, or makes something of its record
(`Adapter.Step.slot`), and what it can make of a record is little (`Adapter.Revision`): it moves the
phase, sets a mark, puts outgoing data aside, queues a packet for a socket that receiving names, or
notes that the stream of the one that is asked has ended. What holds of every record is shown from
these cases. -/
namespace WifiAdapter

theorem SocketTable.get?_of_free {t : SocketTable} {h : Handle} (hfree : t.isOpen h = false) :
    t.get? h = none :=
  Option.not_isSome_iff_eq_none.mp (Bool.eq_false_iff.mp hfree)

namespace Adapter
variable {σ : Type}

/-- What a step may make of the record of an open socket. -/
inductive Revision (D : Deed → Prop) (site? : Option Handle) (a : Adapter σ) (h : Handle)
    (r : SocketRecord) : SocketRecord → Prop where
  | same : Revision D site? a h r r
  /-- A call begins an operation. -/
  | begin (hsite : site? = some h) (purpose : Purpose)
      (hlisten : purpose = .listen → r.kind = .stream) :
      Revision D site? a h r (r.apply purpose.request)
  /-- A call takes an operation back. -/
  | undo (hsite : site? = some h) (purpose : Purpose) :
      Revision D site? a h r (r.apply (purpose.done false))
  | mark (hsite : site? = some h) (waiting : Bool) : Revision D site? a h r { r with waiting }
  /-- An operation comes to its end. -/
  | complete (hd : D (.complete h)) (purpose : Purpose) (ok starts : Bool) :
      Revision D site? a h r (let r := r.apply (purpose.done ok)
        if starts then { r with poll := true } else r)
  | connect (hd : D (.connect h)) (hstream : r.kind = .stream) (peer : Endpoint) :
      Revision D site? a h r ((r.apply .connect).aimedAt peer)
  | connectDone (hd : D (.connect h)) (ok : Bool) :
      Revision D site? a h r (r.apply (.connectDone ok))
  | aim (hd : D (.connect h)) (hdatagram : r.kind = .datagram) (peer : Endpoint) :
      Revision D site? a h r (r.aimedAt peer)
  | pending (hd : D (.transmit h)) (chain? : Option Chain)
      (hwait : ∀ rest ∈ chain?, a.MayWait D h rest) :
      Revision D site? a h r { r with pendingTx? := chain? }
  | read (hd : D (.read h)) {packet : Packet} {rest : List Packet}
      (hinbound : r.inbound = packet :: rest) : Revision D site? a h r { r with inbound := rest }
  | queue (hnamed : a.rx.Names h) (packet : Packet) :
      Revision D site? a h r { r with inbound := r.inbound ++ [packet] }
  | ended (hawaits : r.awaitingData = true) :
      Revision D site? a h r { r with peerClosed := true, poll := false }

/-- The record of a socket that is taken into use, and the slot of a listener that listens if it
is that of a connection. -/
inductive Fresh (a : Adapter σ) : SocketRecord → Prop where
  | new (kind : SocketKind) : Fresh a (.new kind)
  | accepted {listener : Handle} {r : SocketRecord} (hr : a.table.get? listener = some r)
      (hlistens : r.phase = .listening) (peer : Endpoint) : Fresh a (.accepted r.kind peer)

/-- What a step does to a slot. -/
inductive Slotted (D : Deed → Prop) (site? : Option Handle) (h : Handle) (a b : Adapter σ) :
    Prop where
  | free (ha : a.table.get? h = none) (hb : b.table.get? h = none)
  | opened {r : SocketRecord} (ha : a.table.get? h = none) (hb : b.table.get? h = some r)
      (hfresh : a.Fresh r)
  | closed (hsite : site? = some h) (hd : D (.shut h)) (hb : b.table.get? h = none)
  | revised {r r' : SocketRecord} (ha : a.table.get? h = some r) (hb : b.table.get? h = some r')
      (hgeneration : b.table.generation h = a.table.generation h)
      (hrevision : Revision D site? a h r r')

section Slots
variable {D : Deed → Prop} {site? : Option Handle} {h k : Handle} {a b : Adapter σ}

/-- The slot is as it was. -/
theorem Slotted.of_slot (hget : b.table.get? h = a.table.get? h)
    (hgeneration : b.table.generation h = a.table.generation h) : Slotted D site? h a b := by
  cases hr : a.table.get? h with
  | none => exact .free hr (hget.trans hr)
  | some r => exact .revised hr (hget.trans hr) hgeneration .same

theorem Slotted.of_table (htable : b.table = a.table) : Slotted D site? h a b :=
  .of_slot (by rw [htable]) (by rw [htable])

/-- One record changes. -/
theorem Slotted.of_modify {f : SocketRecord → SocketRecord} (htable : b.table = a.table.modify k f)
    (hf : ∀ r, k = h → a.table.get? h = some r → Revision D site? a h r (f r)) :
    Slotted D site? h a b := by
  have hgeneration : b.table.generation h = a.table.generation h := by
    rw [htable, SocketTable.generation_modify]
  have hget := (congrArg (·.get? h) htable).trans (a.table.get?_modify k h f)
  by_cases hk : k = h
  · rw [if_pos hk] at hget
    cases hr : a.table.get? h with
    | none => exact .free hr (by rw [hget, hr]; rfl)
    | some r => exact .revised hr (by rw [hget, hr]; rfl) hgeneration (hf r hk hr)
  · exact .of_slot (hget.trans (if_neg hk)) hgeneration

/-- A slot is taken into use. -/
theorem Slotted.of_occupy {r : SocketRecord} (htable : b.table = a.table.occupy k r)
    (hfree : a.table.isOpen k = false) (hfresh : a.Fresh r) : Slotted D site? h a b := by
  have hget := (congrArg (·.get? h) htable).trans (a.table.get?_occupy k h r)
  have hgeneration := (congrArg (·.generation h) htable).trans (a.table.generation_occupy k h r)
  by_cases hk : k = h
  · subst hk
    exact .opened (SocketTable.get?_of_free hfree) (hget.trans (if_pos rfl)) hfresh
  · exact .of_slot (hget.trans (if_neg hk)) (hgeneration.trans (if_neg hk))

theorem Answered.slot {i : Incarnation} {d : Delivery} (hab : a.Answered i d b) (ha : a.Steady)
    (hout : a.rx.outstanding? = some i) : Slotted D site? h a b := by
  have hcursor := RxState.cursor_of_outstanding hout
  cases hab with
  | noData | keep => exact .of_table rfl
  | finish =>
    refine .of_modify (table_handOver ..) fun r hh _ => ?_
    subst hh
    exact .queue ⟨i, .inr hcursor, rfl⟩ _
  | ended =>
    have hopen : ((a.noted (.socket i.handle (.received d))).onRx .withdraw).table.isOpen i.handle =
        true := ha.isOpen hout
    refine .of_modify (table_endStream _ hopen ..) fun r hh hr => .ended ?_
    have hawaits := (ha.sound.asked i hcursor).awaits
    unfold SocketTable.awaits at hawaits
    rwa [hh, hr] at hawaits

theorem CallStep.slot (hab : CallStep k a b) (hsite : site? = some k) : Slotted D site? h a b := by
  cases hab with
  | request _ _ purpose hlisten =>
    refine .of_modify rfl fun r hh hr => ?_
    subst hh
    refine .begin hsite purpose fun hp => ?_
    have hkind := hlisten hp
    rw [SocketTable.kind?, hr] at hkind
    exact Option.some.inj hkind
  | revert _ _ purpose => exact .of_modify rfl fun r hh _ => .undo (hh ▸ hsite) purpose
  | mark _ _ waiting => exact .of_modify rfl fun r hh _ => .mark (hh ▸ hsite) waiting
  | disarm | park | take => exact .of_table rfl

variable [Chip σ]

theorem Chore.slot (hab : Chore D a b) : Slotted D site? h a b := by
  cases hab with
  | connect k peer hstream hd =>
    refine .of_modify rfl fun r hh hr => .connect (hh ▸ hd) ?_ peer
    subst hh
    rw [SocketTable.kind?, hr] at hstream
    exact Option.some.inj hstream
  | connectDone k ok hd => exact .of_modify rfl fun r hh _ => .connectDone (hh ▸ hd) ok
  | aim k peer hdatagram hd =>
    refine .of_modify rfl fun r hh hr => .aim (hh ▸ hd) ?_ peer
    subst hh
    rw [SocketTable.kind?, hr] at hdatagram
    exact Option.some.inj hdatagram
  | pending k chain? hd hwait =>
    refine .of_modify rfl fun r hh _ => ?_
    subst hh
    exact .pending hd chain? hwait
  | @complete k r purpose status hr hp starts hd =>
    refine .of_modify (table_complete ..) fun r hh _ => ?_
    subst hh
    exact .complete hd purpose status.isSuccess starts
  | writable | linkEvent => exact .of_table (table_announce ..)
  | _ => exact .of_table rfl

theorem Move.slot (hab : Move D a b) (ha : a.Steady) : Slotted D site? h a b := by
  cases hab with
  | chore hab => exact hab.slot
  | create hbus hfree => exact .of_occupy rfl hfree (.new _)
  | @register listener child r hr hlistens peer hpeer hfree =>
    have htold : Slotted D site? h a ((a.occupied child (.accepted r.kind peer)).announce
        (.newConnection listener child)) :=
      .of_occupy (table_announce ..) hfree (.accepted hr hlistens peer)
    rw [register_eq]
    dsimp only
    split
    · exact htold
    · -- The slot is freed again.
      by_cases hh : child = h
      · subst hh
        refine .free (SocketTable.get?_of_free hfree) ?_
        exact (SocketTable.get?_release ..).trans (if_pos rfl)
      · refine .of_slot ?_ ?_
        · refine (SocketTable.get?_release ..).trans ((if_neg hh).trans ?_)
          rw [table_announce]
          exact (a.table.get?_occupy child h _).trans (if_neg hh)
        · refine (SocketTable.generation_release ..).trans ?_
          rw [table_announce]
          exact (a.table.generation_occupy child h _).trans (if_neg hh)
  | read k hd =>
    rcases a.receive_cases k with ⟨_, heq⟩ | ⟨r, packet, rest, _, hr, hinbound, heq⟩
    · rw [heq]
      exact .of_table rfl
    · rw [heq]
      refine .of_modify rfl fun r' hh hr' => ?_
      subst hh
      cases hr.symm.trans hr'
      exact .read hd hinbound
  | resume | lease =>
    obtain ⟨_, _, heq, _⟩ := resumeFlow_eq (σ := σ) _
    rw [heq]
    exact .of_table rfl
  | pause =>
    obtain ⟨_, _, _, heq, _⟩ := pauseFlow_eq a
    rw [heq]
    exact .of_table rfl
  | settle hcursor howner =>
    refine .of_modify (table_handOver ..) fun r hh _ => ?_
    subst hh
    exact .queue ⟨_, .inl howner, rfl⟩ _
  | ask _ hpacket =>
    rw [ask_eq a _ hpacket]
    dsimp only
    split <;> exact .of_table rfl
  | answer hout _ hab => exact hab.slot ha hout

theorem Step.slot (hab : Step D site? a b) (ha : a.Steady) (h : Handle) :
    Slotted D site? h a b := by
  cases hab with
  | move hab => exact hab.slot ha
  | @close k hsite hd =>
    cases hr : a.table.get? k with
    | none =>
      rw [close_none a k hr]
      exact .of_table rfl
    | some r =>
      have hget := (congrArg (·.get? h) (table_close a hr)).trans (a.table.get?_release a.pool k h)
      by_cases hk : k = h
      · subst hk
        exact .closed hsite hd (hget.trans (if_pos rfl))
      · refine .of_slot (hget.trans (if_neg hk)) ?_
        rw [table_close a hr, SocketTable.generation_release]
  | call hsite hcall => exact hcall.slot hsite

end Slots

end Adapter

end WifiAdapter
