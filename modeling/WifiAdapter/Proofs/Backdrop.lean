import WifiAdapter.Adapter.Service
import WifiAdapter.Proofs.Unseen

/-! What no operation of the adapter looks at.

The worker has its own things on its desk: the notifications that wait for it, the kick, the count
of refused notifications, and the time from tick to tick (`Desk`). With them the chip may differ
in what does not show in its answers (`Backdrop`). Before another backdrop a notification is
handled and the link attended to just the same, and the backdrop stays as it is
(`Adapter.handle_against`, `Adapter.attend_against`). In particular no operation but those of the
worker itself changes anything on its desk (`Adapter.desk_handle`, `Adapter.desk_tick`). -/
namespace WifiAdapter

/-- What concerns the worker alone. -/
structure Desk where
  notifications : Queue notificationCapacity Notification
  kicked : Bool
  overflowed : UInt32
  pollInterval : Nat

/-- Another desk, and a change of the chip that no command notices. -/
structure Backdrop (σ : Type) [Chip σ] extends Desk where
  chip : σ → σ
  execute : ∀ (c : Command) (s : σ),
    Chip.execute c (chip s) = ((Chip.execute c s).1, chip (Chip.execute c s).2)

variable {σ : Type} [Chip σ] (w : Backdrop σ)

/-! ### The bus and the station -/

def Bus.against (b : Bus σ) : Bus σ := { b with chip := w.chip b.chip }

namespace Bus
variable (b : Bus σ)

theorem issue_against (c : Command) :
    (b.against w).issue c = ((b.issue c).1, (b.issue c).2.against w) := by
  simp only [issue, against, w.execute]
  rfl

/-- The next piece goes to the chip. -/
theorem drain_piece {h : Handle} {chain : Chain} {piece : Bytes}
    (hpiece : chain.piece? maxStreamSegment = some piece) :
    b.drain h chain =
      match b.issue (.send h piece) with
      | (.accepted _, bus) => bus.drain h (chain.advance piece.length)
      | (.refused status, bus) =>
        if status = .bufferFull then (.blocked, chain, bus)
        else (.failed status.refusal, chain, bus) := by
  rw [drain.eq_def]
  split
  · next hnone => cases hpiece.symm.trans hnone
  · next hsome =>
    cases hpiece.symm.trans hsome
    rfl

theorem drain_done {h : Handle} {chain : Chain} (hpiece : chain.piece? maxStreamSegment = none) :
    b.drain h chain = (.done, chain, b) := by
  rw [drain.eq_def]
  split
  · rfl
  · next hsome => cases hpiece.symm.trans hsome

theorem drain_against (h : Handle) (chain : Chain) :
    (b.against w).drain h chain =
      ((b.drain h chain).1, (b.drain h chain).2.1, (b.drain h chain).2.2.against w) := by
  fun_induction Bus.drain b h chain with
  | case1 b chain hpiece => rw [drain_done _ hpiece]
  | case2 b chain piece hpiece _ b' hissue ih =>
    rw [drain_piece _ hpiece, issue_against, hissue]
    exact ih
  | case3 b chain piece hpiece b' hissue =>
    rw [drain_piece _ hpiece, issue_against, hissue]
    simp
  | case4 b chain piece hpiece status b' hissue hfull =>
    rw [drain_piece _ hpiece, issue_against, hissue]
    simp [hfull]

end Bus

def Station.against (s : Station σ) : Station σ := { s with bus := s.bus.against w }

namespace Station
variable (s : Station σ) (now : Nat)

@[simp] theorem link_against : (s.against w).link = s.link := rfl

@[simp] theorem onLink_against (f : Link → Link) :
    (s.against w).onLink f = (s.onLink f).against w := rfl

@[simp] theorem issue_against (c : Command) :
    (s.against w).issue c = ((s.issue c).1, (s.issue c).2.against w) := by
  simp only [issue, against, Bus.issue_against]

@[simp] theorem order_against (c : Command) : (s.against w).order c = (s.order c).against w := by
  simp only [order, Bus.order, against, Bus.issue_against]

@[simp] theorem powerDown_against : (s.against w).powerDown = s.powerDown.against w := by
  unfold powerDown
  rw [link_against]
  cases s.link.state <;> simp

@[simp] theorem settleIdle_against : (s.against w).settleIdle = s.settleIdle.against w := by
  unfold settleIdle powerUp
  rw [link_against, issue_against]
  rcases s.issue .init with ⟨_ | _, t⟩ <;> simp [apply_ite (against w)]

@[simp] theorem beginScan_against :
    (s.against w).beginScan now = (s.beginScan now).against w := by
  unfold beginScan
  rw [link_against, issue_against]
  rcases s.issue (.scanRegion s.link.policy.region) with ⟨_ | _, t⟩
  · dsimp only
    rw [issue_against]
    rcases t.issue .scan with ⟨_ | _, u⟩ <;> simp [apply_ite (against w)]
  · simp [apply_ite (against w)]

@[simp] theorem beginConnecting_against :
    (s.against w).beginConnecting = s.beginConnecting.against w := by
  unfold beginConnecting
  rw [link_against]
  cases s.link.network? with
  | none => simp [apply_ite (against w)]
  | some network =>
    cases s.link.wanted? with
    | none => simp [apply_ite (against w)]
    | some ap =>
      dsimp only
      rw [issue_against]
      rcases s.issue (.associate network.ssid ap.auth network.key) with ⟨_ | _, t⟩ <;>
        simp [apply_ite (against w)]

@[simp] theorem step_against : (s.against w).step now = (s.step now).against w := by
  unfold step
  rw [link_against]
  cases s.link.target with
  | addressPending => simp [apply_ite (against w)]
  | connected =>
    cases s.link.state <;> cases s.link.address? <;> simp
  | _ => simp

@[simp] theorem convergeWithin_against (moves : Nat) (s : Station σ) :
    (s.against w).convergeWithin now moves = (s.convergeWithin now moves).against w := by
  induction moves generalizing s with
  | zero => by_cases h : s.link.state = s.link.target <;> simp [convergeWithin, h]
  | succ moves ih => by_cases h : s.link.state = s.link.target <;> simp [convergeWithin, h, ih]

@[simp] theorem converge_against : (s.against w).converge now = (s.converge now).against w := by
  simp [converge]

theorem tick_against : (s.against w).tick now = (s.tick now).against w := by
  unfold tick
  rw [link_against]
  cases s.link.retryAt? with
  | none => simp
  | some time =>
    dsimp only
    rw [onLink_against]
    split <;> simp

@[simp] theorem fetchResult_against :
    (s.against w).fetchResult now = (s.fetchResult now).against w := by
  unfold fetchResult
  rw [link_against, issue_against]
  rcases s.issue (.scanResult s.link.fetched) with ⟨_ | _, t⟩ <;> simp

@[simp] theorem onScanDone_against (status : Status) (found : Nat) :
    (s.against w).onScanDone now status found = (s.onScanDone now status found).against w := by
  unfold onScanDone
  rw [link_against]
  split
  · rfl
  · split <;> simp

@[simp] theorem onScanResult_against (ap : AccessPoint) :
    (s.against w).onScanResult now ap = (s.onScanResult now ap).against w := by
  unfold onScanResult
  rw [link_against, onLink_against]
  dsimp only
  rw [link_against]
  split
  · rfl
  · split <;> simp

theorem onRadio_against (m : RadioMessage) :
    (s.against w).onRadio now m = (s.onRadio now m).against w := by
  cases m <;> simp [onRadio]

end Station

def Adapter.against (a : Adapter σ) : Adapter σ :=
  { a with
    bus := a.bus.against w
    notifications := w.notifications
    kicked := w.kicked
    overflowed := w.overflowed
    config := { a.config with pollInterval := w.pollInterval } }

namespace Adapter
variable (a : Adapter σ) (h : Handle)

/-! ### Parts -/

@[simp] theorem table_against : (a.against w).table = a.table := rfl

@[simp] theorem rx_against : (a.against w).rx = a.rx := rfl

@[simp] theorem link_against : (a.against w).link = a.link := rfl

@[simp] theorem completions_against : (a.against w).completions = a.completions := rfl

@[simp] theorem enter_against (e : Entry) : (a.against w).enter e = (a.enter e).against w := rfl

@[simp] theorem modify_against (f : SocketRecord → SocketRecord) :
    (a.against w).modify h f = (a.modify h f).against w := rfl

@[simp] theorem onRx_against (f : RxState → RxState) :
    (a.against w).onRx f = (a.onRx f).against w := rfl

@[simp] theorem onStats_against (f : Stats → Stats) :
    (a.against w).onStats f = (a.onStats f).against w := rfl

@[simp] theorem discard_against : (a.against w).discard = a.discard.against w := rfl

@[simp] theorem signal_against (status : Status) :
    (a.against w).signal h status = (a.signal h status).against w := rfl

@[simp] theorem disarm_against : (a.against w).disarm h = (a.disarm h).against w := rfl

@[simp] theorem issue_against (c : Command) :
    (a.against w).issue c = ((a.issue c).1, (a.issue c).2.against w) := by
  simp only [issue, against, Bus.issue_against]

@[simp] theorem order_against (c : Command) : (a.against w).order c = (a.order c).against w := by
  simp only [order, Bus.order, against, Bus.issue_against]

@[simp] theorem wake_against (status : Status) :
    (a.against w).wake h status = (a.wake h status).against w := by
  simp only [wake_eq]
  rfl

@[simp] theorem emit_against (e : Event) :
    (a.against w).emit e = ((a.emit e).1, (a.emit e).2.against w) := by
  have hevents : (a.against w).events = a.events := rfl
  unfold emit
  rw [hevents]
  cases a.events.push? e <;> rfl

@[simp] theorem announce_against (e : Event) :
    (a.against w).announce e = (a.announce e).against w := by
  simp [announce]

/-! ### Receiving -/

theorem unseen_against : Unseen fun a : Adapter σ => a.against w where
  table _ := rfl
  rx _ := rfl
  pool _ := rfl
  rxPacketSize _ := rfl
  recvTimeout _ := rfl
  enter _ _ := rfl
  onTable _ _ := rfl
  onRx _ _ := rfl
  lend _ _ := rfl
  count _ _ _ := rfl
  issue := issue_against w
  emit := emit_against w

@[simp] theorem finishPacket_against :
    (a.against w).finishPacket h = (a.finishPacket h).against w :=
  (unseen_against w).finishPacket a h

@[simp] theorem settlePartial_against : (a.against w).settlePartial = a.settlePartial.against w :=
  (unseen_against w).settlePartial a

@[simp] theorem endStream_against (status : Status) (read : ReadStatus) :
    (a.against w).endStream h status read = (a.endStream h status read).against w := by
  unfold endStream
  rw [onRx_against]
  dsimp only
  rw [table_against]
  split <;> simp

@[simp] theorem pollFrom_against (start : Nat) :
    (a.against w).pollFrom start = (a.pollFrom start).against w :=
  (unseen_against w).pollFrom a start

@[simp] theorem pollIdle_against : (a.against w).pollIdle = a.pollIdle.against w :=
  (unseen_against w).pollIdle a

@[simp] theorem onData_against (i : Incarnation) (d : Delivery) (remaining : Nat) :
    (a.against w).onData i d remaining = (a.onData i d remaining).against w := by
  unfold onData takeIn
  rw [rx_against]
  cases a.rx.packet? with
  | none => simp
  | some before =>
    dsimp only
    rw [onRx_against, finishPacket_against, ← apply_ite (against w), pollFrom_against]
    rfl

@[simp] theorem onDelivery_against (d : Delivery) :
    (a.against w).onDelivery h d = (a.onDelivery h d).against w := by
  unfold onDelivery
  rw [rx_against]
  cases a.rx.outstanding? with
  | none => simp
  | some i =>
    dsimp only
    rw [table_against]
    split
    · split
      · unfold onAnswer
        cases d.outcome <;> simp
      · simp
    · simp

/-! ### Notifications -/

@[simp] theorem complete_against (purpose : Purpose) (status : Status) (starts : Bool) :
    (a.against w).complete h purpose status starts =
      (a.complete h purpose status starts).against w := by
  simp [complete]

@[simp] theorem onCompletion_against (purpose : Purpose) (status : Status) :
    (a.against w).onCompletion h purpose status = (a.onCompletion h purpose status).against w := by
  unfold onCompletion
  rw [table_against]
  cases a.table.get? h with
  | none => rfl
  | some r =>
    dsimp only
    rw [complete_against, pollIdle_against]
    split
    · rfl
    · split <;> rfl

@[simp] theorem onConnect_against (status : Status) :
    (a.against w).onConnect h status = (a.onConnect h status).against w := by
  unfold onConnect
  rw [table_against]
  cases a.table.get? h with
  | none => rfl
  | some r =>
    dsimp only
    rw [modify_against, announce_against, pollIdle_against]
    split
    · rfl
    · split <;> rfl

@[simp] theorem release_against :
    (a.against w).release h = ((a.release h).1, (a.release h).2.against w) := rfl

theorem register_against (child : Handle) (table : SocketTable) :
    (a.against w).register h child table =
      ((a.register h child table).1, (a.register h child table).2.against w) := by
  have hemit := emit_against w
    ({ a with table }.enter (.opened (table.incarnation child))) (.newConnection h child)
  unfold register
  dsimp only
  rw [show ({ a.against w with table } : Adapter σ).enter (.opened (table.incarnation child)) =
    (({ a with table } : Adapter σ).enter (.opened (table.incarnation child))).against w from rfl,
    hemit]
  rcases (({ a with table } : Adapter σ).enter (.opened (table.incarnation child))).emit
    (.newConnection h child) with ⟨_ | _, b⟩ <;> simp

@[simp] theorem onAccept_against (child : Answer Handle) (peer : NativeAddr) :
    (a.against w).onAccept h child peer = (a.onAccept h child peer).against w := by
  unfold onAccept
  cases child with
  | refused status => rfl
  | accepted child =>
    dsimp only
    rw [table_against, order_against]
    cases a.table.get? h with
    | none => rfl
    | some r =>
      dsimp only
      split
      · rfl
      · cases a.table.adopt child r.kind peer.endpoint with
        | error error => rfl
        | ok table =>
          dsimp only
          rw [register_against]
          rcases a.register h child table with ⟨_ | _, b⟩ <;> simp

@[simp] theorem onSent_against (status : Status) :
    (a.against w).onSent h status = (a.onSent h status).against w := by
  unfold onSent
  rw [table_against]
  cases (a.table.get? h).bind (·.pendingTx?) with
  | none => rfl
  | some chain =>
    dsimp only
    split
    · simp
    · rw [show (a.against w).bus = a.bus.against w from rfl, Bus.drain_against]
      rcases a.bus.drain h chain with ⟨_ | _ | _, rest, bus⟩
      · exact announce_against w (({ a with bus }).modify h fun r => { r with pendingTx? := none })
          (.writable h none)
      · rfl
      · exact announce_against w (({ a with bus }).modify h fun r => { r with pendingTx? := none }) _

theorem flushLinkEvents_against : (a.against w).flushLinkEvents = a.flushLinkEvents.against w := by
  have hfold (l : List LinkEvent) (b : Adapter σ) :
      l.foldl (fun a e => a.announce (.link e)) (b.against w) =
        (l.foldl (fun a e => a.announce (.link e)) b).against w := by
    induction l generalizing b with
    | nil => rfl
    | cons e rest ih => simp [ih]
  exact hfold a.link.events.items { a with link := { a.link with events := .empty } }

theorem withStation_against {α : Type} {f : Station σ → α × Station σ}
    (hf : ∀ s : Station σ, f (s.against w) = ((f s).1, (f s).2.against w)) :
    (a.against w).withStation f = ((a.withStation f).1, (a.withStation f).2.against w) := by
  unfold withStation
  rw [show (⟨(a.against w).link, (a.against w).bus⟩ : Station σ) =
    (⟨a.link, a.bus⟩ : Station σ).against w from rfl, hf]
  have hflush := flushLinkEvents_against w
    { a with link := (f ⟨a.link, a.bus⟩).2.link, bus := (f ⟨a.link, a.bus⟩).2.bus }
  exact congrArg (Prod.mk _) hflush

/-- **A notification is handled before every backdrop alike.** -/
theorem handle_against (now : Nat) (note : Notification) :
    (a.against w).handle now note = (a.handle now note).against w := by
  unfold handle
  rw [rx_against, enter_against]
  cases note with
  | radio m =>
    have hradio := withStation_against w (a.enter (.handled (.radio m) a.rx.expecting?))
      (f := fun s => ((), s.onRadio now m)) fun s => by rw [Station.onRadio_against]
    exact congrArg Prod.snd hradio
  | socket h m => cases m <;> simp [onNotification, onSocket]

/-- The link makes the attempt that is due, and receiving starts again. -/
def attend (a : Adapter σ) (now : Nat) : Adapter σ :=
  (a.withStation fun s => ((), s.tick now)).2.pollIdle

theorem attend_against (now : Nat) : (a.against w).attend now = (a.attend now).against w := by
  have htick := withStation_against w a (f := fun s => ((), s.tick now)) fun s => by
    rw [Station.tick_against]
  unfold attend
  rw [htick, pollIdle_against]

/-! ### The desk -/

def desk (a : Adapter σ) : Desk :=
  ⟨a.notifications, a.kicked, a.overflowed, a.config.pollInterval⟩

/-- The backdrop that an adapter stands before. -/
def backdrop (a : Adapter σ) : Backdrop σ where
  toDesk := a.desk
  chip := id
  execute _ _ := rfl

theorem against_backdrop : a.against a.backdrop = a := rfl

/-- What does the same before every backdrop changes nothing on the desk. -/
theorem desk_of_against {f : Adapter σ → Adapter σ}
    (hf : ∀ (w : Backdrop σ) (a : Adapter σ), f (a.against w) = (f a).against w) :
    (f a).desk = a.desk :=
  calc (f a).desk = (f (a.against a.backdrop)).desk := by rw [against_backdrop]
    _ = ((f a).against a.backdrop).desk := by rw [hf]
    _ = a.desk := rfl

theorem desk_handle (now : Nat) (note : Notification) : (a.handle now note).desk = a.desk :=
  desk_of_against a (f := (·.handle now note)) fun w a => handle_against w a now note

/-- The adapter with other notifications waiting. -/
def requeue (a : Adapter σ) (notifications : Queue notificationCapacity Notification) : Adapter σ :=
  { a with notifications }

/-- What waits plays no part in how a notification is handled. -/
theorem handle_requeue (now : Nat) (note : Notification)
    (notifications : Queue notificationCapacity Notification) :
    (a.requeue notifications).handle now note = (a.handle now note).requeue notifications := by
  have hdesk := a.desk_handle now note
  have hkicked : (a.handle now note).kicked = a.kicked := congrArg Desk.kicked hdesk
  have hoverflowed : (a.handle now note).overflowed = a.overflowed := congrArg Desk.overflowed hdesk
  have hinterval : (a.handle now note).config.pollInterval = a.config.pollInterval :=
    congrArg Desk.pollInterval hdesk
  have hagainst := handle_against { a.backdrop with notifications } a now note
  refine hagainst.trans ?_
  unfold against
  dsimp only [backdrop, desk]
  rw [← hkicked, ← hoverflowed, ← hinterval]
  rfl

theorem desk_drainChip (now n : Nat) (a : Adapter σ) : (drainChip now n a).desk = a.desk := by
  induction n generalizing a with
  | zero => rfl
  | succ n ih =>
    unfold drainChip
    cases a.bus.poll with
    | none => rfl
    | some polled => exact (ih _).trans (desk_handle _ now polled.1)

theorem tick_eq (now : Nat) :
    a.tick now = (if a.link.armed then a.drainChip now tickDrainMax else a).attend now := rfl

/-- A tick changes nothing on the desk. -/
theorem desk_tick (now : Nat) : (a.tick now).desk = a.desk := by
  rw [tick_eq, desk_of_against _ (f := (·.attend now)) fun w a => attend_against w a now]
  split
  · exact desk_drainChip ..
  · rfl

/-! ### One notification after another -/

/-- Handles notifications in their order. -/
def handleAll (now : Nat) (a : Adapter σ) (notes : List Notification) : Adapter σ :=
  notes.foldl (·.handle now ·) a

theorem handleAll_against (now : Nat) (notes : List Notification) (a : Adapter σ) :
    (a.against w).handleAll now notes = (a.handleAll now notes).against w := by
  induction notes generalizing a with
  | nil => rfl
  | cons note rest ih =>
    have hfirst := ih (a.handle now note)
    rw [← handle_against] at hfirst
    exact hfirst

theorem desk_handleAll (now : Nat) (notes : List Notification) :
    (a.handleAll now notes).desk = a.desk :=
  desk_of_against a (f := (·.handleAll now notes)) fun w a => handleAll_against w now notes a

end Adapter

end WifiAdapter
