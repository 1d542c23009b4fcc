import WifiAdapter.Proofs.Ledger

/-! What a delivery does to a socket.

What a socket has taken in is queued at it or in flight for it (`Adapter.intake`). Asking for
data moves packets about, but brings no bytes to anyone (`Moves.intake`), and neither does a
delivery that nobody asked for (`intake_stray`). A delivery for the socket that was asked adds
as many bytes as there was room for, or ends the stream (`intake_answer`). -/
namespace WifiAdapter

/-- What a socket has taken in and the application has not read, and whether its stream is over. -/
structure Intake where
  bytes : Bytes
  ended : Bool
deriving DecidableEq

namespace Adapter
variable {σ : Type}

/-- What the socket in a slot has taken in, if there is one. -/
def intake (a : Adapter σ) (h : Handle) : Option Intake :=
  (a.table.get? h).map fun r => ⟨r.queued ++ a.rx.held (a.table.incarnation h), r.peerClosed⟩

section Frame
variable {a b : Adapter σ}

theorem intake_of_get? {h : Handle} {r : SocketRecord} (hr : a.table.get? h = some r) :
    a.intake h = some ⟨r.queued ++ a.rx.held (a.table.incarnation h), r.peerClosed⟩ := by
  unfold intake
  rw [hr]
  rfl

/-- The packet in flight holds the same bytes of the socket. -/
theorem intake_of_held {h : Handle} (htable : b.table = a.table)
    (hheld : b.rx.held (a.table.incarnation h) = a.rx.held (a.table.incarnation h)) :
    b.intake h = a.intake h := by
  unfold intake
  rw [htable, hheld]

theorem Quiet.intake (hq : a.Quiet b) (h : Handle) : b.intake h = a.intake h := by
  cases hr : a.table.get? h with
  | none =>
    unfold Adapter.intake
    rw [hr, hq.table.free h hr]
    rfl
  | some r =>
    obtain ⟨r', hr', hkeep⟩ := hq.table.record h r hr
    have hsame : b.table.incarnation h = a.table.incarnation h :=
      congrArg (Incarnation.mk h) (hq.table.generation h)
    rw [intake_of_get? hr, intake_of_get? hr', hq.rx, hsame, SocketRecord.queued, hkeep.inbound,
      hkeep.peerClosed]
    rfl

/-- A packet that is queued while no bytes are in flight adds its bytes. -/
theorem intake_handOver (a : Adapter σ) {h : Handle} {r : SocketRecord} (hr : a.table.get? h = some r)
    (hheld : ∀ i, a.rx.held i = []) (packet : Packet) :
    (a.handOver h packet).intake h = some ⟨r.queued ++ packet.data, r.peerClosed⟩ := by
  have hr' : (a.handOver h packet).table.get? h =
      some { r with inbound := r.inbound ++ [packet] } := by
    rw [table_handOver]
    exact SocketTable.get?_modify_self hr
  rw [intake_of_get? hr', rx_handOver, hheld]
  simp [SocketRecord.queued]

theorem intake_handOver_other (a : Adapter σ) {h k : Handle} (hne : h ≠ k) (packet : Packet) :
    (a.handOver h packet).intake k = a.intake k := by
  unfold intake
  rw [table_handOver, rx_handOver, SocketTable.get?_modify_of_ne hne,
    SocketTable.incarnation_modify]

/-- A partial packet is queued at its owner. -/
theorem intake_settle (ha : a.Steady) {i : Incarnation} {packet : Packet}
    (howner : a.rx.owner? = some i) (hpacket : a.rx.packet? = some packet) (h : Handle) :
    ((a.onRx .part).handOver i.handle packet).intake h = a.intake h := by
  have howes := ha.sound.owned i howner
  have hparted (j : Incarnation) : (a.onRx .part).rx.held j = [] := RxState.held_of_not_owner nofun
  by_cases hh : i.handle = h
  · subst hh
    obtain ⟨r, hr⟩ := Option.isSome_iff_exists.mp (ha.sound.isOpen (.inr howner))
    rw [intake_handOver (a.onRx .part) hr hparted, intake_of_get? hr,
      SocketTable.incarnation_of_current howes.current, RxState.held_of_owner howner hpacket]
  · rw [intake_handOver_other (a.onRx .part) hh]
    refine intake_of_held rfl ?_
    rw [hparted, RxState.held_of_not_owner]
    rw [howner]
    rintro ⟨⟩
    exact hh rfl

end Frame

/-! ### Asking -/

section Asking
variable [Chip σ] {a b : Adapter σ}

theorem intake_resumeFlow (a : Adapter σ) (h : Handle) : a.resumeFlow.intake h = a.intake h := by
  obtain ⟨bus, es, heq, -⟩ := resumeFlow_eq a
  rw [heq]
  rfl

theorem intake_pauseFlow (a : Adapter σ) (h : Handle) : a.pauseFlow.intake h = a.intake h := by
  obtain ⟨bus, stats, es, heq, -⟩ := pauseFlow_eq a
  rw [heq]
  rfl

/-- Nothing is brought by what is neither an answer nor an opening nor a read. -/
theorem Move.intake (hab : Move Deed.Asking a b) (ha : a.Steady) (h : Handle) :
    b.intake h = a.intake h := by
  cases hab with
  | chore hab => exact hab.quiet.intake h
  | create _ _ hd | register _ _ _ _ _ hd | read _ hd | answer _ hd => cases hd
  | resume => exact intake_resumeFlow a h
  | lease hnone hpool =>
    obtain ⟨rfl, _⟩ := Pool.available_lease? hpool
    rw [intake_resumeFlow]
    refine intake_of_held rfl ?_
    show RxState.held { a.rx with packet? := some (.new _) } _ = _
    unfold RxState.held
    rw [hnone]
    exact ite_self _
  | pause => exact intake_pauseFlow a h
  | settle _ howner hpacket => exact intake_settle ha howner hpacket h
  | ask _ hpacket =>
    rw [ask_eq a _ hpacket]
    dsimp only
    split <;> rfl

theorem Moves.intake (hab : Moves Deed.Asking a b) (ha : a.Steady) (h : Handle) :
    b.intake h = a.intake h := by
  induction hab with
  | refl => rfl
  | tail hmoves hmove ih => exact (hmove.intake (Moves.steady hmoves ha) h).trans ih

end Asking

/-! ### Deliveries -/

/-- An answer adds as many of its bytes as there was room for, or it ends the stream. -/
structure Brings (d : Delivery) (room : Nat) (x y : Intake) : Prop where
  running : x.ended = false
  ended : y.ended = d.ends
  bytes : d.ends = false → y.bytes = x.bytes ++ d.bytes.take room

theorem Answered.intake {a b : Adapter σ} {i : Incarnation} {d : Delivery} (h : a.Answered i d b)
    (ha : a.Steady) (hout : a.rx.outstanding? = some i) :
    ∃ x y, a.intake i.handle = some x ∧ b.intake i.handle = some y ∧ Brings d a.rx.room x y := by
  have hcursor := RxState.cursor_of_outstanding hout
  have hasks := ha.sound.asked i hcursor
  have hopen := ha.sound.isOpen (.inl hcursor)
  have hi := SocketTable.incarnation_of_current hasks.current
  obtain ⟨r, hr⟩ := Option.isSome_iff_exists.mp hopen
  have hrunning := SocketTable.live_of_awaits hasks.awaits hr
  cases h with
  | noData hd =>
    have hvoid : d.Void := hd
    refine ⟨_, _, intake_of_get? hr, intake_of_get? (a := (a.noted _).onRx .withdraw) hr, hrunning,
      hrunning.trans hvoid.ends.symm, fun _ => ?_⟩
    rw [hvoid.bytes, List.take_nil, List.append_nil]
    rfl
  | @keep remaining before hd hpacket hroom =>
    refine ⟨_, _, intake_of_get? hr, intake_of_get? (a := (a.noted _).onRx _) hr, hrunning,
      hrunning.trans (Delivery.ends_of_data hd).symm, fun _ => ?_⟩
    rw [hi, ha.sound.held_asked hcursor hpacket, Delivery.bytes_of_data hd,
      RxState.room_of_packet hpacket, List.append_assoc, ← data_fill a i.handle d before]
    refine congrArg (r.queued ++ ·) (RxState.held_of_owner ?_ rfl)
    exact congrArg some hi.symm
  | @finish remaining before hd hpacket =>
    let c := (a.noted (.socket i.handle (.received d))).onRx (·.part.withdraw)
    have hparted (j : Incarnation) : c.rx.held j = [] := RxState.held_of_not_owner nofun
    refine ⟨_, _, intake_of_get? hr, intake_handOver c hr hparted _, hrunning,
      hrunning.trans (Delivery.ends_of_data hd).symm, fun _ => ?_⟩
    rw [hi, ha.sound.held_asked hcursor hpacket, Delivery.bytes_of_data hd,
      RxState.room_of_packet hpacket, List.append_assoc, ← data_fill a i.handle d before]
  | @ended status read hd hread =>
    let c := (a.noted (.socket i.handle (.received d))).onRx .withdraw
    have hr' : (c.endStream i.handle status read).table.get? i.handle =
        some { r with peerClosed := true, poll := false } := by
      rw [table_endStream c hopen]
      exact SocketTable.get?_modify_self hr
    have hends := Delivery.ends_of_end hd
    exact ⟨_, _, intake_of_get? hr, intake_of_get? hr', hrunning, hends.symm, by simp [hends]⟩

section Deliveries
variable [Chip σ] {a : Adapter σ}

/-- A delivery that nobody asked for brings nothing. -/
theorem intake_stray (ha : a.Steady) {h : Handle}
    (hstray : ∀ i, a.rx.outstanding? = some i → i.handle ≠ h) (now : Nat) (d : Delivery) (k : Handle) :
    (a.handle now (.socket h (.received d))).intake k = a.intake k :=
  Moves.intake ((prompts_onStray (D := Deed.Asking) hstray d).leads rfl ha) ha k

theorem intake_answer (ha : a.Steady) {i : Incarnation} (hout : a.rx.outstanding? = some i)
    (now : Nat) (d : Delivery) :
    ∃ x y, a.intake i.handle = some x ∧
      (a.handle now (.socket i.handle (.received d))).intake i.handle = some y ∧
      Brings d a.rx.room x y := by
  obtain ⟨b, hanswered, hleads⟩ := answered_onDelivery (D := Deed.Asking) rfl ha hout d
  obtain ⟨x, y, hx, hy, hbrings⟩ := hanswered.intake ha hout
  have hb := hanswered.steady ha hout
  exact ⟨x, y, hx, (Moves.intake (hleads hb) hb i.handle).trans hy, hbrings⟩

end Deliveries

end Adapter

end WifiAdapter
