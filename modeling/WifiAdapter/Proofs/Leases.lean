import Mathlib.Algebra.BigOperators.Fin
import WifiAdapter.Proofs.Runs

/-! Where the leases of the pool are.

A lease is in the pool, with the packet in flight, with a packet queued at an open socket,
or with a packet that the application took and has not dropped. An adapter keeps the first
three together (`Adapter.leases`) over every step but the two that the application has a
part in: what it reads it holds, and what it drops goes back to the pool.

`leases_conserved`: over every history none is lost and none is given back twice. -/
namespace WifiAdapter

/-! ### Queued packets -/

namespace SocketTable

/-- The number of packets queued at a slot. -/
def queuedAt (t : SocketTable) (h : Handle) : Nat :=
  match t.get? h with
  | some r => r.inbound.length
  | none => 0

/-- The number of packets queued at all open sockets. -/
def queued (t : SocketTable) : Nat := ∑ h, t.queuedAt h

theorem queuedAt_of_get? {t : SocketTable} {h : Handle} {r : SocketRecord} (hr : t.get? h = some r) :
    t.queuedAt h = r.inbound.length := by
  unfold queuedAt
  rw [hr]

theorem queuedAt_of_free {t : SocketTable} {h : Handle} (hr : t.get? h = none) : t.queuedAt h = 0 := by
  unfold queuedAt
  rw [hr]

theorem queuedAt_of_closed {t : SocketTable} {h : Handle} (hfree : t.isOpen h = false) :
    t.queuedAt h = 0 :=
  queuedAt_of_free (Option.not_isSome_iff_eq_none.mp (by rw [← isOpen, hfree]; exact Bool.false_ne_true))

/-- A change of one slot changes the sum by what it changes there. -/
theorem queued_of_slot {t t' : SocketTable} (h : Handle)
    (hothers : ∀ k, h ≠ k → t'.get? k = t.get? k) :
    t'.queued + t.queuedAt h = t.queued + t'.queuedAt h := by
  have hrest : ∑ k ∈ Finset.univ.erase h, t'.queuedAt k = ∑ k ∈ Finset.univ.erase h, t.queuedAt k :=
    Finset.sum_congr rfl fun k hk => by
      unfold queuedAt
      rw [hothers k (Finset.ne_of_mem_erase hk).symm]
  have hbefore := Finset.add_sum_erase Finset.univ t.queuedAt (Finset.mem_univ h)
  have hafter := Finset.add_sum_erase Finset.univ t'.queuedAt (Finset.mem_univ h)
  unfold queued
  omega

theorem Keeps.queued {t t' : SocketTable} (hk : t.Keeps t') : t'.queued = t.queued := by
  refine Finset.sum_congr rfl fun h _ => ?_
  cases hr : t.get? h with
  | none => rw [queuedAt_of_free hr, queuedAt_of_free (hk.free h hr)]
  | some r =>
    obtain ⟨r', hr', hkeep⟩ := hk.record h r hr
    rw [queuedAt_of_get? hr, queuedAt_of_get? hr', hkeep.inbound]

theorem queued_modify (t : SocketTable) (h : Handle) {f : SocketRecord → SocketRecord}
    {r : SocketRecord} (hr : t.get? h = some r) :
    (t.modify h f).queued + r.inbound.length = t.queued + (f r).inbound.length := by
  rw [← queuedAt_of_get? hr, ← queuedAt_of_get? (get?_modify_self hr)]
  exact queued_of_slot h fun k hk => get?_modify_of_ne hk

/-- A change of records that leaves their packets alone. -/
theorem queued_modify_same (t : SocketTable) (h : Handle) {f : SocketRecord → SocketRecord}
    (hf : ∀ r, (f r).inbound = r.inbound) : (t.modify h f).queued = t.queued := by
  refine Finset.sum_congr rfl fun k _ => ?_
  unfold queuedAt
  rw [get?_modify]
  by_cases hk : h = k
  · rw [if_pos hk]
    cases t.get? k with
    | none => rfl
    | some r => exact congrArg List.length (hf r)
  · rw [if_neg hk]

theorem queued_occupy {t : SocketTable} {h : Handle} (hfree : t.isOpen h = false) {r : SocketRecord}
    (hinbound : r.inbound = []) : (t.occupy h r).queued = t.queued := by
  have hget : (t.occupy h r).get? h = some r := by rw [get?_occupy, if_pos rfl]
  have hslot : (t.occupy h r).queued + t.queuedAt h = t.queued + (t.occupy h r).queuedAt h :=
    queued_of_slot h fun k hk => (get?_occupy t h k r).trans (if_neg hk)
  rw [queuedAt_of_closed hfree, queuedAt_of_get? hget, hinbound, List.length_nil] at hslot
  omega

/-- What was queued at a slot that is freed goes back to the pool. -/
theorem queued_release (t : SocketTable) (pool : Pool) (h : Handle) :
    (t.release pool h).2.2.available = pool.available + t.queuedAt h ∧
      (t.release pool h).2.1.queued + t.queuedAt h = t.queued := by
  constructor
  · unfold release queuedAt
    cases t.get? h <;> rfl
  · have hget : (t.release pool h).2.1.get? h = none := by rw [get?_release, if_pos rfl]
    have hslot := queued_of_slot h fun k hk => (get?_release t pool h k).trans (if_neg hk)
    rwa [queuedAt_of_free hget, Nat.add_zero] at hslot

theorem queued_empty : empty.queued = 0 :=
  Finset.sum_eq_zero fun h _ => queuedAt_of_free (by simp [empty, get?, Slot.free])

end SocketTable

/-! ### The leases of an adapter -/

/-- The number of packets in flight, which is one at most. -/
def RxState.inFlight (x : RxState) : Nat := x.packet?.toList.length

namespace Adapter
variable {σ : Type}

/-- The leases that are in the pool, with the packet in flight or with queued packets. -/
def leases (a : Adapter σ) : Nat := a.pool.available + a.rx.inFlight + a.table.queued

theorem leases_new (chip : σ) (packets : Nat) (config : Config) :
    (new chip packets config).leases = packets := by
  show packets + 0 + SocketTable.empty.queued = packets
  rw [SocketTable.queued_empty, Nat.add_zero]

section Parts
variable (a : Adapter σ)

@[simp] theorem pool_announce (e : Event) : (a.announce e).pool = a.pool := by
  obtain ⟨_, _, h⟩ := announce_eq a e
  rw [h]

theorem leases_announce (e : Event) : (a.announce e).leases = a.leases := by
  simp [leases]

theorem leases_modify (h : Handle) {f : SocketRecord → SocketRecord}
    (hf : ∀ r, (f r).inbound = r.inbound) : (a.modify h f).leases = a.leases := by
  show a.pool.available + a.rx.inFlight + (a.table.modify h f).queued = _
  rw [SocketTable.queued_modify_same _ _ hf]
  rfl

theorem leases_wake (h : Handle) (status : Status) : (a.wake h status).leases = a.leases := by
  rw [wake_eq]
  rfl

theorem leases_complete (h : Handle) (purpose : Purpose) (status : Status) (starts : Bool) :
    (a.complete h purpose status starts).leases = a.leases := by
  unfold complete
  rw [leases_wake]
  exact leases_modify a h fun r => by cases starts <;> rfl

theorem leases_occupied {h : Handle} (hfree : a.table.isOpen h = false) {r : SocketRecord}
    (hinbound : r.inbound = []) : (a.occupied h r).leases = a.leases := by
  show a.pool.available + a.rx.inFlight + (a.table.occupy h r).queued = _
  rw [SocketTable.queued_occupy hfree hinbound]
  rfl

theorem leases_release (h : Handle) : (a.release h).2.leases = a.leases := by
  obtain ⟨hpool, htable⟩ := a.table.queued_release a.pool h
  have hpool : (a.release h).2.pool.available = a.pool.available + a.table.queuedAt h := hpool
  have htable : (a.release h).2.table.queued + a.table.queuedAt h = a.table.queued := htable
  have hrx : (a.release h).2.rx = a.rx := rfl
  unfold leases
  rw [hpool, hrx]
  omega

/-- A packet handed over to an open socket is queued there. -/
theorem leases_handOver {h : Handle} (hopen : a.table.isOpen h = true) (packet : Packet) :
    (a.handOver h packet).leases = a.leases + 1 := by
  obtain ⟨r, hr⟩ := Option.isSome_iff_exists.mp hopen
  have hqueued := a.table.queued_modify h (f := fun r => { r with inbound := r.inbound ++ [packet] }) hr
  have hpool : (a.handOver h packet).pool = a.pool := by simp [handOver, modify, onTable, onStats]
  unfold leases
  rw [hpool, rx_handOver, table_handOver]
  simp only [List.length_append, List.length_singleton] at hqueued
  omega

theorem leases_endStream {h : Handle} (hopen : a.table.isOpen h = true) (status : Status)
    (read : ReadStatus) : (a.endStream h status read).leases = a.leases := by
  rw [endStream_eq a hopen, leases_announce, leases_wake, leases_modify]
  · show a.pool.available + a.rx.dropPartial.inFlight + a.table.queued = _
    cases hp : a.rx.packet? <;> simp [leases, RxState.inFlight, RxState.dropPartial, hp]
  · exact fun _ => rfl

/-- The packet in flight is parted with. -/
theorem leases_part {packet : Packet} (hpacket : a.rx.packet? = some packet) :
    (a.onRx .part).leases + 1 = a.leases := by
  show a.pool.available + 0 + a.table.queued + 1 = _
  unfold leases RxState.inFlight
  rw [hpacket]
  simp only [Option.toList_some, List.length_singleton]
  omega

/-- The lease of a packet that is read goes with it. -/
theorem leases_read {h : Handle} {r : SocketRecord} (hr : a.table.get? h = some r) {packet : Packet}
    {rest : List Packet} (hin : r.inbound = packet :: rest) (e : Entry) :
    ((a.modify h fun r => { r with inbound := rest }).enter e).leases + 1 = a.leases := by
  have hqueued := a.table.queued_modify h (f := fun r => { r with inbound := rest }) hr
  change _ + r.inbound.length = _ + rest.length at hqueued
  rw [hin, List.length_cons] at hqueued
  show a.pool.available + a.rx.inFlight + (a.table.modify h _).queued + 1 = _
  unfold leases
  omega

end Parts

variable [Chip σ] (a : Adapter σ)

theorem leases_resumeFlow : a.resumeFlow.leases = a.leases := by
  obtain ⟨bus, es, heq, -⟩ := resumeFlow_eq a
  rw [heq]
  rfl

theorem leases_pauseFlow : a.pauseFlow.leases = a.leases := by
  obtain ⟨bus, stats, es, heq, -⟩ := pauseFlow_eq a
  rw [heq]
  rfl

omit [Chip σ] in
theorem leases_lease {packet : Packet} {pool : Pool} {capacity : Nat} (hnone : a.rx.packet? = none)
    (hpool : a.pool.lease? capacity = some (packet, pool)) :
    ({ a with pool }.onRx fun x => { x with packet? := some packet }).leases = a.leases := by
  obtain ⟨-, havailable⟩ := Pool.available_lease? hpool
  show pool.available + 1 + a.table.queued = a.pool.available + a.rx.packet?.toList.length + _
  rw [hnone, havailable]
  rfl

theorem leases_ask (h : Handle) (hpacket : a.rx.packet?.isSome = true) :
    (a.ask h).2.leases = a.leases := by
  rw [ask_eq a h hpacket]
  dsimp only
  split <;> rfl

theorem leases_close (h : Handle) : (a.close h).leases = a.leases := by
  cases hr : a.table.get? h with
  | none => rw [close_none a h hr]
  | some r =>
    have hleft : (a.rx.leave h).inFlight = a.rx.inFlight := by
      unfold RxState.inFlight
      rw [RxState.packet_leave]
      split
      · cases a.rx.packet? <;> rfl
      · rfl
    have hclosed : (a.close h).leases = (a.release h).2.leases := by
      rw [close_some a hr]
      dsimp only
      split <;> exact congrArg (_ + · + _) hleft
    rw [hclosed, leases_release]

/-- What was queued at a socket that is closed goes back to the pool. -/
theorem pool_close (h : Handle) :
    (a.close h).pool.available = a.pool.available + a.table.queuedAt h ∧
      (a.close h).table.queuedAt h = 0 := by
  refine ⟨?_, SocketTable.queuedAt_of_closed (isOpen_close a h)⟩
  cases hr : a.table.get? h with
  | none => rw [close_none a h hr, SocketTable.queuedAt_of_free hr, Nat.add_zero]
  | some r =>
    have hpool := (a.table.queued_release a.pool h).1
    rw [close_some a hr]
    dsimp only
    split <;> exact hpool

theorem leases_register (listener : Handle) {child : Handle} (kind : SocketKind) (peer : Endpoint)
    (hfree : a.table.isOpen child = false) :
    (a.register listener child (a.table.occupy child (.accepted kind peer))).2.leases = a.leases := by
  have htold : ((a.occupied child (.accepted kind peer)).announce
      (.newConnection listener child)).leases = a.leases :=
    (leases_announce ..).trans (leases_occupied a hfree rfl)
  rw [register_eq]
  dsimp only
  split
  · exact htold
  · exact (leases_release ..).trans htold

/-! ### Every step -/

section Steps
variable {a} {b : Adapter σ} {D : Deed → Prop} {site? : Option Handle}

theorem Chore.leases (h : Chore D a b) (hdrop : ¬ D .drop) : b.leases = a.leases := by
  cases h with
  | chip | opening | command | turnAway | note | transmit | discard | link | scratch | queues |
    take => rfl
  | connect | connectDone | aim | pending => exact leases_modify a _ fun _ => rfl
  | complete => exact leases_complete ..
  | writable | linkEvent => exact leases_announce ..
  | giveBack _ hd => exact absurd hd hdrop

omit [Chip σ] in
theorem CallStep.leases {h : Handle} (hcall : CallStep h a b) : b.leases = a.leases := by
  cases hcall with
  | request | revert | mark => exact leases_modify a _ fun _ => rfl
  | disarm | park | take => rfl

omit [Chip σ] in
theorem Answered.leases {i : Incarnation} {d : Delivery} (h : a.Answered i d b) (ha : a.Steady)
    (hout : a.rx.outstanding? = some i) : b.leases = a.leases := by
  have hopen := ha.isOpen hout
  cases h with
  | noData => rfl
  | keep hd hpacket =>
    show a.pool.available + 1 + a.table.queued = a.pool.available + a.rx.packet?.toList.length + _
    rw [hpacket]
    rfl
  | finish hd hpacket =>
    exact (leases_handOver ((a.noted (.socket i.handle (.received d))).onRx (·.part.withdraw)) hopen
      _).trans (leases_part a hpacket)
  | @ended status read =>
    exact leases_endStream ((a.noted (.socket i.handle (.received d))).onRx .withdraw) hopen status
      read

theorem Move.leases (h : Move D a b) (ha : a.Steady) (hread : ∀ h, ¬ D (.read h))
    (hdrop : ¬ D .drop) : b.leases = a.leases := by
  cases h with
  | chore h => exact h.leases hdrop
  | create hbus hfree => exact leases_occupied { a with bus := (a.bus.openSocket _).2 } hfree rfl
  | register _ _ peer _ hfree => exact leases_register a _ _ peer hfree
  | read h hd => exact absurd hd (hread h)
  | resume => exact leases_resumeFlow a
  | lease hnone hpool => exact (leases_resumeFlow _).trans (leases_lease a hnone hpool)
  | pause => exact leases_pauseFlow a
  | settle hcursor howner hpacket =>
    exact (leases_handOver (a.onRx .part) (ha.sound.isOpen (.inr howner)) _).trans
      (leases_part a hpacket)
  | ask hcursor hpacket => exact leases_ask a _ hpacket
  | answer hout _ h => exact h.leases ha hout

theorem Step.leases (h : Step D site? a b) (ha : a.Steady) (hread : ∀ h, ¬ D (.read h))
    (hdrop : ¬ D .drop) : b.leases = a.leases := by
  cases h with
  | move h => exact h.leases ha hread hdrop
  | close => exact leases_close a _
  | call _ hcall => exact hcall.leases

theorem Moves.leases (h : Moves D a b) (ha : a.Steady) (hread : ∀ h, ¬ D (.read h))
    (hdrop : ¬ D .drop) : b.leases = a.leases := by
  induction h with
  | refl => rfl
  | tail hmoves hmove ih => exact (hmove.leases (Moves.steady hmoves ha) hread hdrop).trans ih

/-- A notification moves leases, and brings none and takes none. -/
theorem leases_handle (ha : a.Steady) (now : Nat) (note : Notification) :
    (a.handle now note).leases = a.leases := by
  have hmoves := leads_handle_deeds a now note ha
  refine hmoves.leases ha (fun h hd => ?_) fun hd => ?_
  · exact Notification.incoming (hd.resolve_left nofun)
  · exact Notification.incoming (hd.resolve_left nofun)

theorem Course.leases {now : Nat} {ms : List (Moment σ)} (h : Course D site? now a ms b)
    (ha : a.Steady) (hread : ∀ h, ¬ D (.read h)) (hdrop : ¬ D .drop) : b.leases = a.leases := by
  induction h with
  | refl => rfl
  | step hcourse hstep ih => exact (hstep.leases (hcourse.steady ha) hread hdrop).trans ih
  | handle hcourse note ih => exact (leases_handle (hcourse.steady ha) now note).trans ih
  | poll hcourse ih =>
    have hb := hcourse.steady ha
    exact (Moves.leases (leads_pollIdle (D := Deed.Asking) rfl _ hb) hb nofun nofun).trans ih

end Steps

end Adapter

/-! ### Histories -/

/-- The application neither takes a packet nor drops one. -/
def Action.KeepsHeld {σ : Type} : Action σ → Prop
  | .receive _ | .drop _ => False
  | _ => True

namespace Session
variable {σ : Type}

/-- All leases there are. -/
def leases (s : Session σ) : Nat := s.adapter.leases + s.held.length

theorem leases_new (chip : σ) (packets : Nat) (config : Config) :
    (new chip packets config).leases = packets := by
  show (Adapter.new chip packets config).leases + 0 = packets
  rw [Adapter.leases_new, Nat.add_zero]

theorem leases_receive (s : Session σ) (h : Handle) : (s.receive h).2.leases = s.leases := by
  unfold receive
  rcases s.adapter.receive_cases h with ⟨_, heq⟩ | ⟨r, packet, rest, received, hr, hin, heq⟩
  · rw [heq]
  · rw [heq]
    let e := Entry.read (s.adapter.table.incarnation h) packet
    have hleases := s.adapter.leases_read hr hin e
    show ((s.adapter.modify h fun r => { r with inbound := rest }).enter e).leases +
      (s.held ++ [received.packet]).length = s.adapter.leases + s.held.length
    rw [List.length_append, List.length_singleton]
    omega

theorem leases_drop (s : Session σ) (place : Nat) : (s.drop place).2.leases = s.leases := by
  unfold drop
  split
  · next hplace =>
    show s.adapter.pool.available + 1 + s.adapter.rx.inFlight + s.adapter.table.queued +
      (s.held.eraseIdx place).length = s.adapter.leases + s.held.length
    rw [List.length_eraseIdx_of_lt hplace]
    unfold Adapter.leases
    omega
  · rfl

variable [Chip σ]

/-- The packets that the application holds are those it held, unless it reads or drops. -/
theorem held_perform (s : Session σ) {action : Action σ} (other : action.KeepsHeld) :
    (s.perform action).2.held = s.held := by
  cases action with
  | bind | listen | post | nextEvent | work => exact (s.begin_keeps _).2
  | poll id | contend id => exact (pollWith_keeps _ s id).2
  | receive | drop => exact other.elim
  | create | close | connect | send | setOption | dispatch | notify | tick | start | stop | join
  | scan | takeEvent | cancel | advance | chip => rfl

omit [Chip σ] in
theorem not_deeds {action : Action σ} (other : action.KeepsHeld) :
    (∀ h, ¬ deeds action (.read h)) ∧ ¬ deeds action .drop := by
  refine ⟨fun h hd => ?_, fun hd => ?_⟩
  · cases broughtBy_of_deeds hd
    exact other
  · obtain ⟨place, rfl⟩ := broughtBy_of_deeds hd
    exact other

theorem leases_perform {s : Session σ} (hs : s.adapter.Steady) (action : Action σ) :
    (s.perform action).2.leases = s.leases := by
  by_cases other : action.KeepsHeld
  · obtain ⟨hread, hdrop⟩ := not_deeds other
    have hcourse : (s.perform action).2.adapter.leases = s.adapter.leases :=
      (passes_perform s action hs).leases hs hread hdrop
    rw [leases, hcourse, held_perform s other, leases]
  · cases action with
    | receive h => exact leases_receive s h
    | drop place => exact leases_drop s place
    | _ => exact absurd trivial other

theorem leases_run {s : Session σ} (hs : s.adapter.Steady) (actions : List (Action σ)) :
    (s.run actions).leases = s.leases := by
  induction actions using List.reverseRecOn with
  | nil => rfl
  | append_singleton actions action ih =>
    rw [run_snoc, leases_perform (steady_run hs actions), ih]

/-- Over every history, all leases that the pool began with are in the pool, with the packet in
flight, with the packets queued at open sockets or with those that the application took and
has not dropped. Closing a socket brings those of its packets back to the pool, and leaves
none queued. -/
theorem leases_conserved (chip : σ) (packets : Nat) (config : Config) (actions : List (Action σ)) :
    let s := (new chip packets config).run actions
    s.adapter.pool.available + s.adapter.rx.inFlight + ∑ h, s.adapter.table.queuedAt h +
        s.held.length = packets ∧
      ∀ h, (s.adapter.close h).pool.available =
          s.adapter.pool.available + s.adapter.table.queuedAt h ∧
        (s.adapter.close h).table.queuedAt h = 0 := by
  intro s
  refine ⟨?_, fun h => ?_⟩
  · show s.leases = packets
    rw [leases_run (Adapter.steady_new ..), leases_new]
  · exact s.adapter.pool_close h

end Session

end WifiAdapter
