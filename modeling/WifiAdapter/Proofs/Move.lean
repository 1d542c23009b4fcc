import Mathlib.Logic.Relation
import WifiAdapter.Proofs.Journal
import WifiAdapter.Proofs.Receiving
import WifiAdapter.Proofs.Station

/-! What can happen to an adapter, one thing at a time.

A `Move` is one thing that happens while somebody is at the adapter; every operation
is a sequence of moves. Most moves do not concern receiving (`Chore`), the others say
exactly when they happen and what becomes of the packet in flight. Some moves belong to
the handling of certain notifications (`Deed`): moves are told apart by which they allow. A call that waits
adds moves of its own on its socket (`CallStep`), and a `Step` is any of these or the
close of a socket.

What does not concern receiving keeps the state of receiving and whatever of the table
it depends on (`Adapter.Quiet`). -/
namespace WifiAdapter

/-- What only some notifications and some requests of the application bring about. -/
inductive Deed where
  /-- A socket that the chip has opened is taken in or turned away. -/
  | occupy
  /-- A socket is closed. -/
  | shut (h : Handle)
  /-- The receive outstanding for a socket is answered. -/
  | answer (h : Handle)
  /-- An operation comes to its end. -/
  | complete (h : Handle)
  /-- A connect begins or comes to its end, or the other end of a socket is named. -/
  | connect (h : Handle)
  /-- Data of a stream goes to the chip, or waits for it. -/
  | transmit (h : Handle)
  /-- The application gives a chain for a socket to send. -/
  | give (h : Handle) (chain : Chain)
  /-- The application takes a packet of a socket. -/
  | read (h : Handle)
  /-- The application drops packets it holds. -/
  | drop
  /-- The link changes, or the application is told of it. -/
  | link
  /-- A socket is asked for data. -/
  | ask
  /-- A notification is queued for the worker, refused, or taken from its queue. -/
  | queue
  /-- The application takes an event. -/
  | take

def Deed.Any : Deed → Prop := fun _ => True

def Deed.None : Deed → Prop := fun _ => False

/-- Nothing but asking for data. -/
def Deed.Asking : Deed → Prop := (· = .ask)

/-- What the handling of a notification may bring about. -/
def Notification.deed? : Notification → Option Deed
  | .socket _ (.accepted ..) => some .occupy
  | .socket h (.received _) => some (.answer h)
  | .socket h (.bound _) | .socket h (.listening _) => some (.complete h)
  | .socket h (.connected _) => some (.connect h)
  | .socket h (.sent _) => some (.transmit h)
  | .radio _ => some .link
  | _ => none

/-- What the application brings about by itself, and what a poll does, is no doing of a
notification. -/
def Deed.Incoming : Deed → Prop
  | .shut _ | .give .. | .read _ | .drop | .ask | .queue | .take => False
  | _ => True

theorem Notification.incoming {note : Notification} {d : Deed} (hd : d ∈ note.deed?) :
    d.Incoming := by
  unfold Notification.deed? at hd
  split at hd <;> cases hd <;> trivial

/-- What the handling of a notification may bring about, asking for data included. -/
def Notification.deeds (note : Notification) (d : Deed) : Prop := d = .ask ∨ d ∈ note.deed?

theorem Notification.eq_connected {note : Notification} {h : Handle}
    (hd : note.deed? = some (.connect h)) : ∃ status, note = .socket h (.connected status) := by
  unfold Notification.deed? at hd
  split at hd <;> cases hd
  exact ⟨_, rfl⟩

/-- The connection that the chip has opened, if the notification tells of one. -/
def Notification.announced? : Notification → Option Handle
  | .socket _ (.accepted (.accepted child) _) => some child
  | _ => none

/-- The stream that makes progress, if the notification reports any. -/
def Notification.progress? : Notification → Option Handle
  | .socket h (.sent _) => some h
  | _ => none

/-- Some of a chain is left, with no empty segment unless the chain had one. -/
structure Chain.LeftOf (rest chain : Chain) : Prop where
  some : rest.segments ≠ []
  solid : chain.Solid → rest.Solid

namespace Adapter
variable {σ : Type}

/-- The adapter after a slot was taken into use. -/
def occupied (a : Adapter σ) (h : Handle) (r : SocketRecord) : Adapter σ :=
  { a with table := a.table.occupy h r }.enter (.opened ((a.table.occupy h r).incarnation h))

/-- The adapter about to handle a notification. -/
def noted (a : Adapter σ) (note : Notification) : Adapter σ :=
  a.enter (.handled note a.rx.expecting?)

/-- The notification last taken up tells of a connection and its other end. -/
def Introduced (a : Adapter σ) (listener child : Handle) (peer : Endpoint) : Prop :=
  ∃ native expecting?, a.bus.journal.getLast? =
    some (.handled (.socket listener (.accepted (.accepted child) native)) expecting?) ∧
      native.endpoint = peer

/-! ### What does not concern receiving -/

/-- The state of receiving is the same, the table is kept as far as it matters, and what
was entered in the journal is of no account. -/
structure Quiet (a b : Adapter σ) : Prop where
  rx : b.rx = a.rx
  config : b.config = a.config
  table : a.table.Keeps b.table
  journal : ∃ es, b.bus.journal = a.bus.journal ++ es ∧ ∀ e ∈ es, e.Quiet

/-- A change of parts of the adapter that receiving never looks at. -/
theorem Quiet.of_eq {a b : Adapter σ} (hrx : b.rx = a.rx) (hconfig : b.config = a.config)
    (htable : b.table = a.table) (hjournal : b.bus.journal = a.bus.journal) : a.Quiet b where
  rx := hrx
  config := hconfig
  table := by
    rw [htable]
    exact .refl _
  journal := ⟨[], by simp [hjournal], by simp⟩

theorem quiet_modify (a : Adapter σ) (h : Handle) {f : SocketRecord → SocketRecord}
    (hf : ∀ r : SocketRecord, r.Keeps (f r)) : a.Quiet (a.modify h f) where
  rx := rfl
  config := rfl
  table := SocketTable.keeps_modify a.table h hf
  journal := ⟨[], by simp [modify, onTable], by simp⟩

/-- An entry of no account, with nothing else. -/
theorem quiet_enter (a : Adapter σ) {e : Entry} (he : e.Quiet) : a.Quiet (a.enter e) where
  rx := rfl
  config := rfl
  table := .refl _
  journal := ⟨[e], rfl, by simpa using he⟩

theorem quiet_announce (a : Adapter σ) {e : Event} (he : ∀ b, (Entry.event e b).Quiet) :
    a.Quiet (a.announce e) where
  rx := by simp
  config := by simp
  table := by
    rw [table_announce]
    exact .refl _
  journal := ⟨_, journal_announce a e, by simpa using he _⟩

theorem Quiet.trans {a b c : Adapter σ} (h : a.Quiet b) (h' : b.Quiet c) : a.Quiet c where
  rx := h'.rx.trans h.rx
  config := h'.config.trans h.config
  table := h.table.trans h'.table
  journal := Entry.appended_trans h.journal h'.journal

theorem quiet_wake (a : Adapter σ) (h : Handle) (status : Status) : a.Quiet (a.wake h status) := by
  rw [wake_eq]
  exact .of_eq rfl rfl rfl rfl

theorem quiet_complete (a : Adapter σ) (h : Handle) (purpose : Purpose) (status : Status)
    (starts : Bool) : a.Quiet (a.complete h purpose status starts) := by
  refine ((quiet_modify a h fun r => ?_).trans
    (quiet_enter (e := .completed _ purpose status) _ trivial)).trans (quiet_wake _ h status)
  have hr := r.keeps_apply (q := purpose.done status.isSuccess) (by cases purpose <;> nofun)
  cases starts with
  | false => exact hr
  | true => exact hr.trans (SocketRecord.keeps_poll _)

/-! ### Moves and steps -/

/-- What may wait at a stream: what is left of a chain that waits there, or of one that is given
for it while it is connected. -/
def MayWait (D : Deed → Prop) (a : Adapter σ) (h : Handle) (rest : Chain) : Prop :=
  ∃ r chain, a.table.get? h = some r ∧ rest.LeftOf chain ∧
    (r.pendingTx? = some chain ∨ r.kind = .stream ∧ r.phase = .connected ∧ D (.give h chain))

/-- What a delivery brings to the socket that was asked. -/
inductive Answered (a : Adapter σ) (i : Incarnation) (d : Delivery) : Adapter σ → Prop where
  /-- The chip has no data. -/
  | noData (hd : d.outcome = .noData) :
      Answered a i d ((a.noted (.socket i.handle (.received d))).onRx .withdraw)
  /-- Delivered bytes stay in flight. -/
  | keep {remaining : Nat} {before : Packet} (hd : d.outcome = .data remaining)
      (hpacket : a.rx.packet? = some before) (hroom : 0 < (a.fill i.handle d before).room) :
      Answered a i d ((a.noted (.socket i.handle (.received d))).onRx fun x =>
        { x with
          packet? := some (a.fill i.handle d before)
          owner? := some i
          cursor? := none
          polling := false })
  /-- Delivered bytes complete the packet in flight. -/
  | finish {remaining : Nat} {before : Packet} (hd : d.outcome = .data remaining)
      (hpacket : a.rx.packet? = some before) :
      Answered a i d (((a.noted (.socket i.handle (.received d))).onRx (·.part.withdraw)).handOver
        i.handle (a.fill i.handle d before))
  | ended {status : Status} {read : ReadStatus}
      (hd : d.outcome = .closed ∧ status = .connectionAborted ∨ d.outcome = .failed status)
      (hread : read ≠ .data) :
      Answered a i d (((a.noted (.socket i.handle (.received d))).onRx .withdraw).endStream i.handle
        status read)

variable [Chip σ]

/-- Moves that do not concern receiving. -/
inductive Chore (D : Deed → Prop) : Adapter σ → Adapter σ → Prop where
  | chip (a : Adapter σ) (chip : σ) : Chore D a { a with bus := { a.bus with chip } }
  | opening (a : Adapter σ) (kind : SocketKind) (hd : D .occupy) :
      Chore D a { a with bus := (a.bus.openSocket kind).2 }
  | command (a : Adapter σ) {c : Command} (hc : c.Plain) (hd : c.Radio → D .link) :
      Chore D a (a.order c)
  /-- A connection that does not become a socket is closed. -/
  | turnAway (a : Adapter σ) (child : Handle) (hd : D .occupy) : Chore D a (a.order (.close child))
  | note (a : Adapter σ) {note : Notification}
      (hn : (Entry.handled note a.rx.expecting?).answer? = none)
      (hd : ∀ child ∈ note.announced?, D .occupy)
      (hprogress : ∀ h ∈ note.progress?, D (.transmit h)) : Chore D a (a.noted note)
  | connect (a : Adapter σ) (h : Handle) (peer : Endpoint)
      (hstream : a.table.kind? h = some .stream) (hd : D (.connect h)) :
      Chore D a ((a.modify h fun r => (r.apply .connect).aimedAt peer).order
        (.connect h (.ofEndpoint peer)))
  | connectDone (a : Adapter σ) (h : Handle) (ok : Bool) (hd : D (.connect h)) :
      Chore D a (a.modify h (·.apply (.connectDone ok)))
  | aim (a : Adapter σ) (h : Handle) (peer : Endpoint)
      (hdatagram : a.table.kind? h = some .datagram) (hd : D (.connect h)) :
      Chore D a (a.modify h (·.aimedAt peer))
  | transmit (a : Adapter σ) (h : Handle) (data : Bytes) (hd : D (.transmit h)) :
      Chore D a (a.order (.send h data))
  | pending (a : Adapter σ) (h : Handle) (chain? : Option Chain) (hd : D (.transmit h))
      (hwait : ∀ rest ∈ chain?, a.MayWait D h rest) :
      Chore D a (a.modify h fun r => { r with pendingTx? := chain? })
  | complete (a : Adapter σ) {h : Handle} {r : SocketRecord} {purpose : Purpose} {status : Status}
      (hr : a.table.get? h = some r)
      (hp : (r.phase.transition (purpose.done status.isSuccess)).rejected = false) (starts : Bool)
      (hd : D (.complete h)) :
      Chore D a (a.complete h purpose status starts)
  | writable (a : Adapter σ) (h : Handle) (error? : Option SocketError)
      (hd : D (.connect h) ∨ D (.transmit h)) : Chore D a (a.announce (.writable h error?))
  | linkEvent (a : Adapter σ) (e : LinkEvent) (hd : D .link) : Chore D a (a.announce (.link e))
  | discard (a : Adapter σ) : Chore D a a.discard
  | link (a : Adapter σ) (link : Link) (hd : D .link) : Chore D a { a with link }
  | scratch (a : Adapter σ) (scratch : Bytes) (hfits : scratch.length ≤ datagramCapacity) :
      Chore D a { a with scratch }
  | queues (a : Adapter σ) (notifications : Queue notificationCapacity Notification)
      (kicked : Bool) (overflowed : UInt32)
      (hd : D .queue ∨ notifications = a.notifications ∧ overflowed = a.overflowed) :
      Chore D a { a with notifications, kicked, overflowed }
  | take (a : Adapter σ) {e : Event} {events : Queue eventCapacity Event}
      (hpop : a.events.pop? = some (e, events)) (hd : D .take) : Chore D a { a with events }
  | giveBack (a : Adapter σ) (leases : Nat) (hd : D .drop) :
      Chore D a { a with pool := a.pool.giveBack leases }

/-- What happens to an adapter apart from closes and from calls that wait. -/
inductive Move (D : Deed → Prop) : Adapter σ → Adapter σ → Prop where
  | chore {a b : Adapter σ} (h : Chore D a b) : Move D a b
  | create (a : Adapter σ) {kind : SocketKind} {h : Handle}
      (hbus : (a.bus.openSocket kind).1 = .accepted h) (hfree : a.table.isOpen h = false)
      (hd : D .occupy) :
      Move D a ({ a with bus := (a.bus.openSocket kind).2 }.occupied h (.new kind))
  | register (a : Adapter σ) {listener child : Handle} {r : SocketRecord}
      (hr : a.table.get? listener = some r) (hlistens : r.phase = .listening) (peer : Endpoint)
      (hpeer : a.Introduced listener child peer) (hfree : a.table.isOpen child = false)
      (hd : D .occupy) :
      Move D a (a.register listener child (a.table.occupy child (.accepted r.kind peer))).2
  | read (a : Adapter σ) (h : Handle) (hd : D (.read h)) : Move D a (a.receive h).2
  | resume (a : Adapter σ) : Move D a a.resumeFlow
  | lease (a : Adapter σ) {packet : Packet} {pool : Pool} (hnone : a.rx.packet? = none)
      (hpool : a.pool.lease? a.config.rxPacketSize = some (packet, pool)) :
      Move D a ({ a with pool }.onRx fun x => { x with packet? := some packet }).resumeFlow
  | pause (a : Adapter σ) (hnone : a.rx.packet? = none)
      (hpool : a.pool.lease? a.config.rxPacketSize = none) : Move D a a.pauseFlow
  /-- A partial packet goes to its owner. -/
  | settle (a : Adapter σ) {i : Incarnation} {packet : Packet} (hcursor : a.rx.cursor? = none)
      (howner : a.rx.owner? = some i) (hpacket : a.rx.packet? = some packet) :
      Move D a ((a.onRx .part).handOver i.handle packet)
  | ask (a : Adapter σ) {h : Handle} (hcursor : a.rx.cursor? = none)
      (hpacket : a.rx.packet?.isSome = true) (hawaits : a.table.awaits h = true)
      (howner : a.rx.owner? = none ∨ a.rx.owner? = some (a.table.incarnation h))
      (hd : D .ask) : Move D a (a.ask h).2
  | answer {a b : Adapter σ} {i : Incarnation} {d : Delivery} (hout : a.rx.outstanding? = some i)
      (hd : D (.answer i.handle)) (h : a.Answered i d b) : Move D a b

section Mono
variable {D D' : Deed → Prop} {a b : Adapter σ}

omit [Chip σ] in
theorem MayWait.mono {h : Handle} {rest : Chain} (hwait : a.MayWait D h rest)
    (hD : ∀ d, D d → D' d) : a.MayWait D' h rest := by
  obtain ⟨r, chain, hr, hleft, hfrom⟩ := hwait
  exact ⟨r, chain, hr, hleft, hfrom.imp_right fun ⟨hkind, hphase, hd⟩ => ⟨hkind, hphase, hD _ hd⟩⟩

/-- Moves that allow less are moves that allow more. -/
theorem Chore.mono (h : Chore D a b) (hD : ∀ d, D d → D' d) : Chore D' a b := by
  cases h with
  | chip chip => exact .chip a chip
  | opening kind hd => exact .opening a kind (hD _ hd)
  | command hc hd => exact .command a hc fun hradio => hD _ (hd hradio)
  | turnAway child hd => exact .turnAway a child (hD _ hd)
  | note hn hd hprogress =>
    exact .note a hn (fun child hchild => hD _ (hd child hchild)) fun h hh => hD _ (hprogress h hh)
  | connect h peer hstream hd => exact .connect a h peer hstream (hD _ hd)
  | connectDone h ok hd => exact .connectDone a h ok (hD _ hd)
  | aim h peer hdatagram hd => exact .aim a h peer hdatagram (hD _ hd)
  | transmit h data hd => exact .transmit a h data (hD _ hd)
  | pending h chain? hd hwait =>
    exact .pending a h chain? (hD _ hd) fun rest hrest => (hwait rest hrest).mono hD
  | complete hr hp starts hd => exact .complete a hr hp starts (hD _ hd)
  | writable h error? hd => exact .writable a h error? (hd.imp (hD _) (hD _))
  | linkEvent e hd => exact .linkEvent a e (hD _ hd)
  | discard => exact .discard a
  | link link hd => exact .link a link (hD _ hd)
  | scratch scratch hfits => exact .scratch a scratch hfits
  | queues notifications kicked overflowed hd =>
    exact .queues a notifications kicked overflowed (hd.imp_left (hD _))
  | take hpop hd => exact .take a hpop (hD _ hd)
  | giveBack leases hd => exact .giveBack a leases (hD _ hd)

theorem Move.mono (h : Move D a b) (hD : ∀ d, D d → D' d) : Move D' a b := by
  cases h with
  | chore h => exact .chore (h.mono hD)
  | create hbus hfree hd => exact .create a hbus hfree (hD _ hd)
  | register hr hlistens peer hpeer hfree hd =>
    exact .register a hr hlistens peer hpeer hfree (hD _ hd)
  | read h hd => exact .read a h (hD _ hd)
  | resume => exact .resume a
  | lease hnone hpool => exact .lease a hnone hpool
  | pause hnone hpool => exact .pause a hnone hpool
  | settle hcursor howner hpacket => exact .settle a hcursor howner hpacket
  | ask hcursor hpacket hawaits howner hd =>
    exact .ask a hcursor hpacket hawaits howner (hD _ hd)
  | answer hout hd h => exact .answer hout (hD _ hd) h

end Mono

/-- What a call that waits on a socket does, apart from its command. -/
inductive CallStep : Handle → Adapter σ → Adapter σ → Prop where
  | request (a : Adapter σ) (h : Handle) (purpose : Purpose)
      (hlisten : purpose = .listen → a.table.kind? h = some .stream) :
      CallStep h a (a.modify h (·.apply purpose.request))
  | revert (a : Adapter σ) (h : Handle) (purpose : Purpose) : CallStep h a (a.revert h purpose)
  | disarm (a : Adapter σ) (h : Handle) : CallStep h a (a.disarm h)
  | mark (a : Adapter σ) (h : Handle) (waiting : Bool) :
      CallStep h a (a.modify h fun r => { r with waiting })
  | park (a : Adapter σ) (i : Incarnation) : CallStep i.handle a (a.enter (.parked i))
  | take (a : Adapter σ) (i : Incarnation) (status : Status) :
      CallStep i.handle a (a.enter (.taken i status))

/-- What happens to an adapter while at most one socket is closed or called on. -/
inductive Step (D : Deed → Prop) (site? : Option Handle) : Adapter σ → Adapter σ → Prop where
  | move {a b : Adapter σ} (h : Move D a b) : Step D site? a b
  | close (a : Adapter σ) {h : Handle} (hsite : site? = some h) (hd : D (.shut h)) :
      Step D site? a (a.close h)
  | call {a b : Adapter σ} {h : Handle} (hsite : site? = some h) (hcall : CallStep h a b) :
      Step D site? a b

/-! ### Moves that do not concern receiving -/

theorem quiet_order (a : Adapter σ) {c : Command}
    (hc : ∀ answer, (Entry.command c answer).Quiet) : a.Quiet (a.order c) where
  rx := rfl
  config := rfl
  table := .refl _
  journal := ⟨_, rfl, by simpa using hc _⟩

theorem Chore.quiet {D : Deed → Prop} {a b : Adapter σ} (h : Chore D a b) : a.Quiet b := by
  cases h with
  | chip => exact .of_eq rfl rfl rfl rfl
  | opening kind =>
    exact ⟨rfl, rfl, .refl _, [_], rfl, by simp [Entry.Quiet]⟩
  | @command c hc =>
    refine quiet_order a fun answer => ?_
    cases c <;> trivial
  | turnAway child => exact quiet_order a fun _ => trivial
  | note hn => exact quiet_enter a (Entry.quiet_handled hn)
  | connect h peer =>
    refine (quiet_modify a h fun r => ?_).trans (quiet_order _ fun _ => trivial)
    exact (r.keeps_apply (q := .connect) nofun).trans (SocketRecord.keeps_aimedAt _ peer)
  | connectDone h ok => exact quiet_modify a h fun r => r.keeps_apply nofun
  | aim h peer => exact quiet_modify a h fun r => r.keeps_aimedAt peer
  | transmit h data => exact quiet_order a fun _ => trivial
  | pending h chain? => exact quiet_modify a h fun r => r.keeps_pending chain?
  | complete hr hp starts => exact quiet_complete ..
  | writable h error? => exact quiet_announce a fun _ => trivial
  | linkEvent e => exact quiet_announce a fun _ => trivial
  | discard | link | scratch | queues | take | giveBack => exact .of_eq rfl rfl rfl rfl

omit [Chip σ] in
theorem CallStep.quiet {a b : Adapter σ} {h : Handle} (hcall : CallStep h a b) : a.Quiet b := by
  cases hcall with
  | request _ _ purpose => exact quiet_modify a h fun r => r.keeps_apply (by cases purpose <;> nofun)
  | revert _ _ purpose => exact quiet_modify a h fun r => r.keeps_apply (by cases purpose <;> nofun)
  | disarm => exact .of_eq rfl rfl rfl rfl
  | mark _ _ waiting => exact quiet_modify a h fun r => r.keeps_mark waiting
  | park i | take i => exact quiet_enter a trivial

end Adapter

end WifiAdapter
