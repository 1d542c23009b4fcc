import WifiAdapter.Session.Action

/-! What the state of receiving promises while nobody is at the adapter.

`RxState.Sound` ties the state of receiving to the table: whom the outstanding receive
is for, whose bytes are in flight, and when the chip is told to hold data back. A
change of the table that keeps every record in the respects that matter
(`SocketTable.Keeps`) keeps it, and so does a change of slots that receiving does not
name. -/
namespace WifiAdapter

namespace RxState

/-- The outstanding receive is for `i`: an open socket that wants data, with a packet in
flight that holds no bytes of anyone else. -/
structure Asks (x : RxState) (t : SocketTable) (i : Incarnation) : Prop where
  current : t.isCurrent i = true
  awaits : t.awaits i.handle = true
  packet : x.packet?.isSome = true
  owner : x.owner? = none ∨ x.owner? = some i

/-- The bytes in flight are those of `i`: an open socket. More bytes fit, and the packet
names a sender just if the socket is a datagram socket. -/
structure Owes (x : RxState) (t : SocketTable) (i : Incarnation) : Prop where
  current : t.isCurrent i = true
  packet : ∃ p, x.packet? = some p ∧ 0 < p.room ∧
    (p.source?.isSome = true ↔ t.kind? i.handle = some .datagram)

structure Sound (x : RxState) (t : SocketTable) : Prop where
  polling : x.polling = true ↔ x.cursor?.isSome = true
  asked : ∀ i, x.cursor? = some i → x.Asks t i
  owned : ∀ i, x.owner? = some i → x.Owes t i
  /-- Without an owner the packet in flight is blank. -/
  blank : x.owner? = none → ∀ p, x.packet? = some p → p.data = [] ∧ p.source? = none
  paused : x.paused = true → x.packet? = none ∧ x.owner? = none ∧ x.cursor? = none

theorem sound_idle (t : SocketTable) : idle.Sound t where
  polling := by decide
  asked := by intro i h; cases h
  owned := by intro i h; cases h
  blank := by intro _ p h; cases h
  paused := by intro h; cases h

end RxState

/-! ### Changes of the table that do not concern receiving -/

/-- The record is the same as far as receiving is concerned, and wants data if it did before. -/
structure SocketRecord.Keeps (r r' : SocketRecord) : Prop where
  kind : r'.kind = r.kind
  inbound : r'.inbound = r.inbound
  peerClosed : r'.peerClosed = r.peerClosed
  awaiting : r.awaitingData = true → r'.awaitingData = true

namespace SocketRecord

theorem Keeps.refl (r : SocketRecord) : r.Keeps r := ⟨rfl, rfl, rfl, id⟩

/-- Nothing but a close leads out of `connected`. -/
theorem keeps_apply (r : SocketRecord) {q : Phase.Request} (hq : q ≠ .close) :
    r.Keeps (r.apply q) := by
  refine ⟨rfl, rfl, rfl, ?_⟩
  obtain ⟨kind, peer, waiting, poll, closed, inbound, pending, phase⟩ := r
  cases kind with
  | datagram => exact id
  | stream =>
    simp only [awaitingData, apply, Bool.and_eq_true, beq_iff_eq]
    rintro ⟨h, rfl⟩
    refine ⟨h, ?_⟩
    cases q <;> first | rfl | exact absurd rfl hq

theorem keeps_aimedAt (r : SocketRecord) (peer : Endpoint) : r.Keeps (r.aimedAt peer) := by
  refine ⟨rfl, rfl, rfl, ?_⟩
  simp only [awaitingData, aimedAt, Bool.and_eq_true, Bool.true_and]
  exact fun h => ⟨h.1.2, h.2⟩

theorem keeps_mark (r : SocketRecord) (b : Bool) : r.Keeps { r with waiting := b } :=
  ⟨rfl, rfl, rfl, id⟩

theorem keeps_pending (r : SocketRecord) (c : Option Chain) : r.Keeps { r with pendingTx? := c } :=
  ⟨rfl, rfl, rfl, id⟩

theorem keeps_poll (r : SocketRecord) : r.Keeps { r with poll := true } := by
  refine ⟨rfl, rfl, rfl, ?_⟩
  simp only [awaitingData, Bool.and_eq_true, Bool.true_and]
  exact fun h => ⟨h.1.2, h.2⟩

theorem Keeps.trans {r s t : SocketRecord} (h : r.Keeps s) (h' : s.Keeps t) : r.Keeps t :=
  ⟨h'.kind.trans h.kind, h'.inbound.trans h.inbound, h'.peerClosed.trans h.peerClosed,
    fun ha => h'.awaiting (h.awaiting ha)⟩

end SocketRecord

namespace SocketTable

/-- No slot is opened or freed, and every record is kept. -/
structure Keeps (t t' : SocketTable) : Prop where
  generation : ∀ h, t'.generation h = t.generation h
  free : ∀ h, t.get? h = none → t'.get? h = none
  record : ∀ h r, t.get? h = some r → ∃ r', t'.get? h = some r' ∧ r.Keeps r'

theorem Keeps.refl (t : SocketTable) : t.Keeps t :=
  ⟨fun _ => rfl, fun _ => id, fun _ r h => ⟨r, h, .refl r⟩⟩

theorem Keeps.trans {t t' t'' : SocketTable} (h : t.Keeps t') (h' : t'.Keeps t'') : t.Keeps t'' where
  generation k := (h'.generation k).trans (h.generation k)
  free k hk := h'.free k (h.free k hk)
  record k r hr := by
    obtain ⟨r', hr', hkeep⟩ := h.record k r hr
    obtain ⟨r'', hr'', hkeep'⟩ := h'.record k r' hr'
    exact ⟨r'', hr'', hkeep.trans hkeep'⟩

theorem keeps_modify (t : SocketTable) (h : Handle) {f : SocketRecord → SocketRecord}
    (hf : ∀ r : SocketRecord, r.Keeps (f r)) : t.Keeps (t.modify h f) := by
  refine ⟨fun k => generation_modify t h k f, fun k hk => ?_, fun k r hk => ?_⟩
  · rw [get?_modify, hk]
    split <;> rfl
  · rw [get?_modify, hk]
    split
    · exact ⟨f r, rfl, hf r⟩
    · exact ⟨r, rfl, .refl r⟩

section Keeps
variable {t t' : SocketTable} (hk : t.Keeps t')
include hk

theorem Keeps.isOpen (h : Handle) : t'.isOpen h = t.isOpen h := by
  unfold SocketTable.isOpen
  cases hr : t.get? h with
  | none => rw [hk.free h hr]
  | some r =>
    obtain ⟨r', hr', _⟩ := hk.record h r hr
    rw [hr']
    rfl

theorem Keeps.isCurrent (i : Incarnation) : t'.isCurrent i = t.isCurrent i := by
  unfold SocketTable.isCurrent
  rw [hk.isOpen, hk.generation]

theorem Keeps.kind? (h : Handle) : t'.kind? h = t.kind? h := by
  unfold SocketTable.kind?
  cases hr : t.get? h with
  | none => rw [hk.free h hr]
  | some r =>
    obtain ⟨r', hr', hkeep⟩ := hk.record h r hr
    rw [hr', Option.map_some, Option.map_some, hkeep.kind]

theorem Keeps.awaits {h : Handle} (ha : t.awaits h = true) : t'.awaits h = true := by
  unfold SocketTable.awaits at ha ⊢
  cases hr : t.get? h with
  | none =>
    rw [hr] at ha
    cases ha
  | some r =>
    obtain ⟨r', hr', hkeep⟩ := hk.record h r hr
    rw [hr] at ha
    rw [hr']
    exact hkeep.awaiting ha

end Keeps

theorem kind?_of_get {t : SocketTable} {h : Handle} {r : SocketRecord} (hr : t.get h = .ok r) :
    t.kind? h = some r.kind := by
  unfold get at hr
  unfold kind?
  split at hr
  · next hget =>
    cases hr
    rw [hget]
    rfl
  · cases hr

theorem isOpen_of_awaits {t : SocketTable} {h : Handle} (ha : t.awaits h = true) :
    t.isOpen h = true := by
  unfold awaits at ha
  unfold isOpen
  cases hr : t.get? h with
  | none =>
    rw [hr] at ha
    cases ha
  | some r => rfl

/-- What a socket has queued plays no part in whether it wants data. -/
theorem awaits_requeue (t : SocketTable) (h k : Handle) (f : List Packet → List Packet) :
    (t.modify h fun r => { r with inbound := f r.inbound }).awaits k = t.awaits k := by
  unfold awaits
  rw [get?_modify]
  by_cases hk : h = k
  · rw [if_pos hk]
    cases t.get? k <;> rfl
  · rw [if_neg hk]

theorem live_of_awaits {t : SocketTable} {h : Handle} {r : SocketRecord} (ha : t.awaits h = true)
    (hr : t.get? h = some r) : r.peerClosed = false := by
  unfold awaits at ha
  rw [hr] at ha
  simp only [SocketRecord.awaitingData, Bool.and_eq_true, Bool.not_eq_true'] at ha
  exact ha.1.2

theorem isCurrent_iff {t : SocketTable} {i : Incarnation} :
    t.isCurrent i = true ↔ t.isOpen i.handle = true ∧ t.generation i.handle = i.generation := by
  simp [isCurrent]

theorem incarnation_of_current {t : SocketTable} {i : Incarnation} (hi : t.isCurrent i = true) :
    t.incarnation i.handle = i := by
  simp only [isCurrent, Bool.and_eq_true, beq_iff_eq] at hi
  unfold incarnation
  rw [hi.2]

theorem isCurrent_incarnation (t : SocketTable) (h : Handle) :
    t.isCurrent (t.incarnation h) = t.isOpen h := by
  simp [isCurrent, incarnation]

end SocketTable

namespace RxState
variable {x : RxState} {t t' : SocketTable}

/-- With no receive outstanding and no bytes in flight the table plays no part. -/
theorem sound_of_unowned (hcursor : x.cursor? = none) (hpolling : x.polling = false)
    (howner : x.owner? = none)
    (hpacket : ∀ p, x.packet? = some p → p.data = [] ∧ p.source? = none)
    (hpaused : x.paused = true → x.packet? = none) : x.Sound t where
  polling := by simp [hcursor, hpolling]
  asked i hi := by simp [hcursor] at hi
  owned i hi := by simp [howner] at hi
  blank _ := hpacket
  paused hp := ⟨hpaused hp, howner, hcursor⟩

theorem cursor_of_outstanding {i : Incarnation} (hi : x.outstanding? = some i) :
    x.cursor? = some i := by
  unfold outstanding? at hi
  split at hi
  · exact hi
  · cases hi

/-- Receiving depends on the slots it names: on who is in them, on the kind of socket
and on whether it wants data. -/
theorem Sound.transfer (h : x.Sound t)
    (ht : ∀ i, x.cursor? = some i ∨ x.owner? = some i →
      t'.isCurrent i = t.isCurrent i ∧ t'.kind? i.handle = t.kind? i.handle ∧
        (t.awaits i.handle = true → t'.awaits i.handle = true)) : x.Sound t' where
  polling := h.polling
  asked i hi := by
    obtain ⟨hcurrent, _, hawaits⟩ := ht i (.inl hi)
    have ha := h.asked i hi
    exact ⟨by rw [hcurrent]; exact ha.current, hawaits ha.awaits, ha.packet, ha.owner⟩
  owned i hi := by
    obtain ⟨hcurrent, hkind, _⟩ := ht i (.inr hi)
    have ho := h.owned i hi
    exact ⟨by rw [hcurrent]; exact ho.current, by rw [hkind]; exact ho.packet⟩
  blank := h.blank
  paused := h.paused

theorem Sound.of_keeps (h : x.Sound t) (hk : t.Keeps t') : x.Sound t' :=
  h.transfer fun i _ => ⟨hk.isCurrent i, hk.kind? i.handle, hk.awaits⟩

/-- Slots that receiving does not name can change as they like. -/
theorem Sound.of_agree (h : x.Sound t)
    (ha : ∀ i, x.cursor? = some i ∨ x.owner? = some i →
      t'.get? i.handle = t.get? i.handle ∧ t'.generation i.handle = t.generation i.handle) :
    x.Sound t' := by
  refine h.transfer fun i hi => ?_
  obtain ⟨hget, hgen⟩ := ha i hi
  simp only [SocketTable.isCurrent, SocketTable.isOpen, SocketTable.kind?, SocketTable.awaits, hget,
    hgen]
  exact ⟨trivial, trivial, id⟩

/-- A change of a record that leaves the kind of the socket and its wish for data alone. -/
theorem Sound.modify (h : x.Sound t) (k : Handle) {f : SocketRecord → SocketRecord}
    (hkind : ∀ r, (f r).kind = r.kind) (hawaiting : ∀ r, (f r).awaitingData = r.awaitingData) :
    x.Sound (t.modify k f) := by
  refine h.transfer fun i _ => ⟨SocketTable.isCurrent_modify .., ?_⟩
  simp only [SocketTable.kind?, SocketTable.awaits, SocketTable.get?_modify]
  by_cases hki : k = i.handle
  · rw [if_pos hki]
    cases t.get? i.handle with
    | none => exact ⟨rfl, id⟩
    | some r => exact ⟨congrArg some (hkind r), fun ha => (hawaiting r).trans ha⟩
  · rw [if_neg hki]
    exact ⟨rfl, id⟩

/-- The slots that receiving names are open. -/
theorem Sound.isOpen (h : x.Sound t) {i : Incarnation}
    (hi : x.cursor? = some i ∨ x.owner? = some i) : t.isOpen i.handle = true := by
  have hc : t.isCurrent i = true := by
    rcases hi with hi | hi
    · exact (h.asked i hi).current
    · exact (h.owned i hi).current
  simp only [SocketTable.isCurrent, Bool.and_eq_true] at hc
  exact hc.1

theorem Sound.occupy (h : x.Sound t) {k : Handle} (hfree : t.isOpen k = false) (r : SocketRecord) :
    x.Sound (t.occupy k r) := by
  refine h.of_agree fun i hi => ?_
  have hne : k ≠ i.handle := by
    rintro rfl
    rw [h.isOpen hi] at hfree
    cases hfree
  rw [SocketTable.get?_occupy, SocketTable.generation_occupy, if_neg hne, if_neg hne]
  exact ⟨rfl, rfl⟩

theorem Sound.release (h : x.Sound t) (pool : Pool) {k : Handle}
    (hk : ∀ i, x.cursor? = some i ∨ x.owner? = some i → i.handle ≠ k) :
    x.Sound (t.release pool k).2.1 := by
  refine h.of_agree fun i hi => ?_
  rw [SocketTable.get?_release, SocketTable.generation_release, if_neg (hk i hi).symm]
  exact ⟨rfl, rfl⟩

theorem Sound.withdraw (h : x.Sound t) : x.withdraw.Sound t where
  polling := by simp [RxState.withdraw]
  asked i hi := by simp [RxState.withdraw] at hi
  owned i hi := ⟨(h.owned i hi).current, (h.owned i hi).packet⟩
  blank := h.blank
  paused hp := ⟨(h.paused hp).1, (h.paused hp).2.1, rfl⟩

/-- The chip is told to hold back only while no packet is in flight. -/
theorem Sound.hold (h : x.Sound t) {b : Bool}
    (hb : b = true → x.packet? = none ∧ x.owner? = none ∧ x.cursor? = none) :
    { x with paused := b }.Sound t where
  polling := h.polling
  asked i hi :=
    have ha := h.asked i hi
    ⟨ha.current, ha.awaits, ha.packet, ha.owner⟩
  owned i hi := ⟨(h.owned i hi).current, (h.owned i hi).packet⟩
  blank := h.blank
  paused := hb

theorem Sound.polling_eq_false (h : x.Sound t) (hc : x.cursor? = none) : x.polling = false := by
  cases hp : x.polling with
  | false => rfl
  | true =>
    have := h.polling.mp hp
    rw [hc] at this
    cases this

/-- Dropping the bytes in flight while nothing is outstanding leaves nothing but a blank packet. -/
theorem Sound.dropPartial (h : x.Sound t) (hc : x.cursor? = none) (t' : SocketTable) :
    x.dropPartial.Sound t' := by
  refine sound_of_unowned hc (h.polling_eq_false hc) rfl (fun p hp => ?_) fun hp => ?_
  · obtain ⟨q, _, rfl⟩ := Option.map_eq_some_iff.mp hp
    exact ⟨rfl, rfl⟩
  · show x.packet?.map _ = none
    rw [(h.paused hp).1]
    rfl

theorem leave_eq (x : RxState) (k : Handle) :
    let y := if x.cursor?.any (·.handle == k) then x.withdraw else x
    x.leave k = if x.owner?.any (·.handle == k) then y.dropPartial else y := by
  unfold leave
  cases x.cursor?.any (·.handle == k) <;> rfl

theorem cursor_leave (x : RxState) (k : Handle) :
    (x.leave k).cursor? = if x.cursor?.any (·.handle == k) then none else x.cursor? := by
  rw [leave_eq]
  cases x.cursor?.any (·.handle == k) <;> cases x.owner?.any (·.handle == k) <;> rfl

theorem owner_leave (x : RxState) (k : Handle) :
    (x.leave k).owner? = if x.owner?.any (·.handle == k) then none else x.owner? := by
  rw [leave_eq]
  cases x.cursor?.any (·.handle == k) <;> cases x.owner?.any (·.handle == k) <;> rfl

theorem packet_leave (x : RxState) (k : Handle) :
    (x.leave k).packet? =
      if x.owner?.any (·.handle == k) then x.packet?.map .reset else x.packet? := by
  rw [leave_eq]
  cases x.cursor?.any (·.handle == k) <;> cases x.owner?.any (·.handle == k) <;> rfl

theorem owner_of_leave {k : Handle} {i : Incarnation} (hi : (x.leave k).owner? = some i) :
    x.owner? = some i := by
  rw [owner_leave] at hi
  split at hi
  · cases hi
  · exact hi

/-- Whatever concerns a socket that is closed is forgotten. -/
theorem Sound.leave (h : x.Sound t) (pool : Pool) (k : Handle) :
    (x.leave k).Sound (t.release pool k).2.1 := by
  -- First the outstanding receive is forgotten if it is for `k`.
  obtain ⟨y, hy, hsound, hcursor⟩ : ∃ y, (if x.cursor?.any (·.handle == k) then x.withdraw else x) = y
      ∧ y.Sound t ∧ ∀ i, y.cursor? = some i → i.handle ≠ k := by
    refine ⟨_, rfl, ?_⟩
    by_cases hany : x.cursor?.any (·.handle == k) = true
    · rw [if_pos hany]
      exact ⟨h.withdraw, fun i hi => by cases hi⟩
    · rw [if_neg hany]
      refine ⟨h, fun i hi hk => hany ?_⟩
      rw [hi]
      exact beq_iff_eq.mpr hk
  unfold RxState.leave
  rw [hy]
  dsimp only
  cases ho : y.owner? with
  | none => exact hsound.release pool fun i hi => hcursor i (by simpa [ho] using hi)
  | some j =>
    rw [Option.any_some]
    by_cases hj : j.handle = k
    · rw [if_pos (beq_iff_eq.mpr hj)]
      refine hsound.dropPartial ?_ _
      cases hc : y.cursor? with
      | none => rfl
      | some i =>
        rcases (hsound.asked i hc).owner with hn | hi
        · rw [ho] at hn
          cases hn
        · rw [ho] at hi
          cases hi
          exact absurd hj (hcursor j hc)
    · rw [if_neg (by simpa using hj)]
      refine hsound.release pool fun i hi => ?_
      rcases hi with hi | hi
      · exact hcursor i hi
      · rw [ho] at hi
        cases hi
        exact hj

/-- Without a packet nothing is in flight and nothing outstanding. -/
theorem Sound.without_packet (h : x.Sound t) (hp : x.packet? = none) :
    x.owner? = none ∧ x.cursor? = none := by
  constructor
  · cases ho : x.owner? with
    | none => rfl
    | some i =>
      obtain ⟨p, hp', _⟩ := (h.owned i ho).packet
      rw [hp] at hp'
      cases hp'
  · cases hc : x.cursor? with
    | none => rfl
    | some i =>
      have hsome := (h.asked i hc).packet
      rw [hp] at hsome
      cases hsome

/-- A new packet comes into flight. -/
theorem Sound.lease (h : x.Sound t) (hp : x.packet? = none) (capacity : Nat) :
    { x with packet? := some (.new capacity), paused := false }.Sound t := by
  obtain ⟨ho, hc⟩ := h.without_packet hp
  refine sound_of_unowned hc (h.polling_eq_false hc) ho (fun p hpacket => ?_) nofun
  cases hpacket
  exact ⟨rfl, rfl⟩

/-- A receive becomes outstanding. -/
theorem Sound.ask (h : x.Sound t) {k : Handle} (hpacket : x.packet?.isSome = true)
    (hawaits : t.awaits k = true) (ho : x.owner? = none ∨ x.owner? = some (t.incarnation k)) :
    { x with cursor? := some (t.incarnation k), polling := true }.Sound t where
  polling := ⟨fun _ => rfl, fun _ => rfl⟩
  asked i hi := by
    cases hi
    refine ⟨?_, hawaits, hpacket, ho⟩
    rw [SocketTable.isCurrent_incarnation]
    exact SocketTable.isOpen_of_awaits hawaits
  owned i hi := ⟨(h.owned i hi).current, (h.owned i hi).packet⟩
  blank := h.blank
  paused hp := by
    rw [(h.paused hp).1] at hpacket
    cases hpacket

/-- Delivered bytes come into flight. -/
theorem Sound.keep (h : x.Sound t) {i : Incarnation} (hi : x.cursor? = some i) {p : Packet}
    (hroom : 0 < p.room)
    (hsource : p.source?.isSome = true ↔ t.kind? i.handle = some .datagram) :
    { x with packet? := some p, owner? := some i, cursor? := none, polling := false }.Sound t where
  polling := ⟨nofun, nofun⟩
  asked _ := nofun
  owned j hj := by
    cases hj
    exact ⟨(h.asked i hi).current, p, rfl, hroom, hsource⟩
  blank := nofun
  paused hp := by
    have := (h.paused hp).2.2
    rw [hi] at this
    cases this

end RxState

end WifiAdapter
