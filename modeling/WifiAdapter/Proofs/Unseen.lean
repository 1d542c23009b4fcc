import WifiAdapter.Adapter.Receiving

/-! What receiving does not see.

A change of the adapter is unseen by receiving (`Adapter.Unseen`) if it leaves alone whatever
receiving looks at, and if the moves that receiving is made of come to the same before the change
as after it. Then a poll as a whole comes to the same (`Unseen.pollFrom`, `Unseen.pollIdle`). -/
namespace WifiAdapter.Adapter
variable {σ : Type} [Chip σ]

/-! ### A packet in flight -/

section
variable {a : Adapter σ} {packet : Packet} {pool : Pool}

theorem ensurePacket_of_packet (hpacket : a.rx.packet? = some packet) :
    a.ensurePacket = (true, a.resumeFlow) := by
  rw [ensurePacket, hpacket]

theorem ensurePacket_of_lease (hpacket : a.rx.packet? = none)
    (hlease : a.pool.lease? a.config.rxPacketSize = some (packet, pool)) :
    a.ensurePacket =
      (true, ({ a with pool }.onRx fun r => { r with packet? := some packet }).resumeFlow) := by
  rw [ensurePacket, hpacket, hlease]

theorem ensurePacket_of_empty (hpacket : a.rx.packet? = none)
    (hlease : a.pool.lease? a.config.rxPacketSize = none) :
    a.ensurePacket = (false, a.pauseFlow) := by
  rw [ensurePacket, hpacket, hlease]

end

/-! ### Changes that are not seen -/

/-- What a change owes that receiving does not see. -/
structure Unseen (T : Adapter σ → Adapter σ) : Prop where
  table : ∀ a, (T a).table = a.table
  rx : ∀ a, (T a).rx = a.rx
  pool : ∀ a, (T a).pool = a.pool
  rxPacketSize : ∀ a, (T a).config.rxPacketSize = a.config.rxPacketSize
  recvTimeout : ∀ a, (T a).config.recvTimeout = a.config.recvTimeout
  enter : ∀ a e, (T a).enter e = T (a.enter e)
  onTable : ∀ a f, (T a).onTable f = T (a.onTable f)
  onRx : ∀ a f, (T a).onRx f = T (a.onRx f)
  lend : ∀ a pool, ({ T a with pool } : Adapter σ) = T { a with pool }
  /-- Receiving counts, but never what is discarded. -/
  count : ∀ a f, (∀ s n, f { s with discarded := n } = { f s with discarded := n }) →
    (T a).onStats f = T (a.onStats f)
  issue : ∀ a c, (T a).issue c = ((a.issue c).1, T (a.issue c).2)
  emit : ∀ a e, (T a).emit e = ((a.emit e).1, T (a.emit e).2)

namespace Unseen
variable {T : Adapter σ → Adapter σ} (hT : Unseen T) (a : Adapter σ) (h : Handle)
include hT

/-! ### Handing packets over -/

theorem modify (f : SocketRecord → SocketRecord) : (T a).modify h f = T (a.modify h f) :=
  hT.onTable a _

theorem order (c : Command) : (T a).order c = T (a.order c) := congrArg Prod.snd (hT.issue a c)

theorem announce (e : Event) : (T a).announce e = T (a.announce e) :=
  congrArg Prod.snd (hT.emit a e)

theorem handOver (packet : Packet) : (T a).handOver h packet = T (a.handOver h packet) := by
  unfold Adapter.handOver
  dsimp only
  rw [hT.modify, hT.count _ _ fun _ _ => rfl, hT.announce]

theorem finishPacket : (T a).finishPacket h = T (a.finishPacket h) := by
  unfold Adapter.finishPacket
  rw [hT.rx]
  cases a.rx.packet? with
  | none =>
    dsimp only
    rw [hT.onRx, hT.enter]
  | some packet =>
    dsimp only
    have hopen : (T (a.onRx .part)).table.isOpen h = (a.onRx .part).table.isOpen h := by
      rw [hT.table]
    rw [hT.onRx, hopen]
    split
    · exact hT.handOver _ h packet
    · rw [hT.pool]
      have hlent := hT.lend (a.onRx .part) ((a.onRx .part).pool.giveBack 1)
      exact (congrArg (·.enter (.unexpected .noRecord)) hlent).trans (hT.enter _ _)

theorem settlePartial : (T a).settlePartial = T a.settlePartial := by
  unfold Adapter.settlePartial
  rw [hT.rx]
  cases a.rx.owner? with
  | none => rfl
  | some owner =>
    dsimp only
    rw [hT.table]
    split
    · exact hT.finishPacket a owner.handle
    · rw [hT.enter, hT.onRx]

/-! ### Flow control -/

theorem pauseFlow : (T a).pauseFlow = T a.pauseFlow := by
  unfold Adapter.pauseFlow
  rw [hT.rx]
  split
  · rfl
  · rw [hT.order, hT.onRx, hT.count _ _ fun _ _ => rfl]

theorem resumeFlow : (T a).resumeFlow = T a.resumeFlow := by
  unfold Adapter.resumeFlow
  rw [hT.rx]
  split
  · rw [hT.order, hT.onRx]
  · rfl

theorem ensurePacket : (T a).ensurePacket = (a.ensurePacket.1, T a.ensurePacket.2) := by
  have hsize : (T a).pool.lease? (T a).config.rxPacketSize =
      a.pool.lease? a.config.rxPacketSize := by
    rw [hT.pool, hT.rxPacketSize]
  cases hp : (T a).rx.packet? with
  | some packet =>
    rw [ensurePacket_of_packet hp, ensurePacket_of_packet ((hT.rx a) ▸ hp), hT.resumeFlow]
  | none =>
    cases hl : a.pool.lease? a.config.rxPacketSize with
    | none =>
      rw [ensurePacket_of_empty hp (hsize.trans hl), ensurePacket_of_empty ((hT.rx a) ▸ hp) hl,
        hT.pauseFlow]
    | some leased =>
      obtain ⟨packet, pool⟩ := leased
      rw [ensurePacket_of_lease hp (hsize.trans hl), ensurePacket_of_lease ((hT.rx a) ▸ hp) hl]
      have hlent := congrArg (·.onRx fun r => { r with packet? := some packet }) (hT.lend a pool)
      have hheld := congrArg (·.resumeFlow) (hlent.trans (hT.onRx _ _))
      exact congrArg (Prod.mk true) (hheld.trans (hT.resumeFlow _))

/-! ### Asking -/

theorem clearFor : (T a).clearFor h = ((a.clearFor h).1, T (a.clearFor h).2) := by
  unfold Adapter.clearFor
  rw [hT.rx, hT.table]
  cases a.rx.owner? with
  | none => rfl
  | some owner =>
    dsimp only
    split
    · rfl
    · rw [hT.settlePartial, hT.ensurePacket]

theorem expectPacket : (T a).expectPacket = T a.expectPacket := by
  unfold Adapter.expectPacket
  rw [hT.rx]
  cases a.rx.packet? with
  | none => exact hT.enter a _
  | some packet => rfl

theorem ask : (T a).ask h = ((a.ask h).1, T (a.ask h).2) := by
  unfold Adapter.ask
  rw [hT.expectPacket, hT.rx, hT.recvTimeout, hT.issue]
  rcases a.expectPacket.issue (.receive h a.rx.room a.config.recvTimeout) with ⟨_ | _, b⟩
  · dsimp only
    rw [hT.table, hT.onRx]
  · rfl

theorem pollEach (l : List Handle) (a : Adapter σ) :
    Adapter.pollEach l (T a) = T (Adapter.pollEach l a) := by
  induction l generalizing a with
  | nil => rfl
  | cons h rest ih =>
    unfold Adapter.pollEach
    rw [hT.table, hT.clearFor]
    split
    · rcases a.clearFor h with ⟨_ | _, b⟩
      · rfl
      · dsimp only
        rw [hT.ask]
        rcases b.ask h with ⟨_ | _, c⟩
        · exact ih c
        · rfl
    · exact ih a

theorem pollFrom (start : Nat) : (T a).pollFrom start = T (a.pollFrom start) := by
  unfold Adapter.pollFrom
  rw [hT.onRx]
  dsimp only
  rw [hT.ensurePacket]
  rcases (a.onRx .withdraw).ensurePacket with ⟨_ | _, b⟩
  · rfl
  · exact hT.pollEach _ b

theorem pollIdle : (T a).pollIdle = T a.pollIdle := by
  unfold Adapter.pollIdle
  rw [hT.rx]
  split
  · rfl
  · exact hT.pollFrom a 0

end Unseen

end WifiAdapter.Adapter
