import WifiAdapter.Link.Settling
import WifiAdapter.SocketTable

/-! The adapter: the chip, the table of sockets, the link and the queues between them.

The adapter is one value. Whatever is done to it (a call, a notification, a tick) is
a function from this value to the next one; nothing is done halfway, so every value
that can be seen is one that holds between two operations. -/
namespace WifiAdapter

/-- Notifications waiting for the worker. -/
def notificationCapacity : Nat := 16

/-- Events waiting for the application. -/
def eventCapacity : Nat := 16

/-! ### Counters -/

/-- The largest value of a counter. -/
def counterMax : Nat := UInt32.size - 1

/-- The sum, or the largest value if the sum is beyond it. -/
def saturatingAdd (m n : Nat) : Nat := min (m + n) counterMax

structure Stats where
  rxPackets : Nat
  rxBytes : Nat
  flowPauses : Nat
  droppedEvents : Nat
  discarded : Nat
deriving DecidableEq, Repr

def Stats.zero : Stats := ⟨0, 0, 0, 0, 0⟩

/-! ### Receiving -/

/-- The state of receiving. One packet is in flight for all sockets, and one receive
is outstanding at a time. -/
structure RxState where
  /-- The packet in flight. -/
  packet? : Option Packet
  /-- Whose bytes are in the packet. -/
  owner? : Option Incarnation
  /-- Whom the outstanding receive is for. -/
  cursor? : Option Incarnation
  /-- A receive is outstanding. -/
  polling : Bool
  /-- The chip was told to hold inbound data back. -/
  paused : Bool
deriving DecidableEq

def RxState.idle : RxState :=
  { packet? := none, owner? := none, cursor? := none, polling := false, paused := false }

/-- Forgets the bytes in flight; the packet stays. -/
def RxState.dropPartial (r : RxState) : RxState :=
  { r with packet? := r.packet?.map .reset, owner? := none }

/-- Parts with the packet in flight. -/
def RxState.part (r : RxState) : RxState := { r with packet? := none, owner? := none }

/-- Forgets the outstanding receive. -/
def RxState.withdraw (r : RxState) : RxState := { r with cursor? := none, polling := false }

/-- Forgets whatever concerns a socket. -/
def RxState.leave (r : RxState) (h : Handle) : RxState :=
  let r := if r.cursor?.any (·.handle == h) then r.withdraw else r
  if r.owner?.any (·.handle == h) then r.dropPartial else r

/-- Whom the outstanding receive is for, if one is outstanding. -/
def RxState.outstanding? (r : RxState) : Option Incarnation :=
  if r.polling then r.cursor? else none

/-- How many more bytes the packet in flight can take. -/
def RxState.room (r : RxState) : Nat :=
  match r.packet? with
  | some packet => packet.room
  | none => 0

/-- The bytes in flight that belong to a socket. -/
def RxState.held (r : RxState) (socket : Incarnation) : Bytes :=
  match r.packet? with
  | some packet => if r.owner? = some socket then packet.data else []
  | none => []

/-- The outstanding receive, as far as it can still be answered. -/
def RxState.expecting? (r : RxState) : Option Expectation :=
  r.outstanding?.map fun socket => ⟨socket, r.room, r.held socket⟩

/-! ### The adapter -/

structure Adapter (σ : Type) where
  bus : Bus σ
  table : SocketTable
  rx : RxState
  pool : Pool
  link : Link
  config : Config
  /-- Where the payload of a datagram is put together. -/
  scratch : Bytes
  stats : Stats
  /-- Per socket, the completion posted for a waiting caller. -/
  completions : Slots (Option Status)
  notifications : Queue notificationCapacity Notification
  events : Queue eventCapacity Event
  /-- The worker is asked to look at the link soon. -/
  kicked : Bool
  /-- Notifications refused for want of room. -/
  overflowed : UInt32
deriving DecidableEq

namespace Adapter
variable {σ : Type}

/-- An adapter at rest over a chip and a pool of so many packets. -/
def new (chip : σ) (packets : Nat) (config : Config) : Adapter σ :=
  let config := config.sanitized
  { bus := ⟨chip, []⟩
    table := .empty
    rx := .idle
    pool := ⟨packets⟩
    link := .new config.linkPolicy
    config
    scratch := []
    stats := .zero
    completions := .fill none
    notifications := .empty
    events := .empty
    kicked := false
    overflowed := 0 }

/-! ### Small moves -/

/-- Enters something in the journal. -/
def enter (a : Adapter σ) (e : Entry) : Adapter σ := { a with bus := a.bus.enter e }

def onTable (a : Adapter σ) (f : SocketTable → SocketTable) : Adapter σ :=
  { a with table := f a.table }

/-- Changes the record of an open socket. -/
def modify (a : Adapter σ) (h : Handle) (f : SocketRecord → SocketRecord) : Adapter σ :=
  a.onTable (·.modify h f)

def onStats (a : Adapter σ) (f : Stats → Stats) : Adapter σ := { a with stats := f a.stats }

def onRx (a : Adapter σ) (f : RxState → RxState) : Adapter σ := { a with rx := f a.rx }

/-- Counts a notification that had no effect. -/
def discard (a : Adapter σ) : Adapter σ :=
  a.onStats fun s => { s with discarded := saturatingAdd s.discarded 1 }

/-- Posts a completion for a socket, in the place of one posted before. -/
def signal (a : Adapter σ) (h : Handle) (status : Status) : Adapter σ :=
  { a with completions := a.completions.set h (some status) }

/-- Takes away what is posted for a socket. -/
def disarm (a : Adapter σ) (h : Handle) : Adapter σ :=
  { a with completions := a.completions.set h none }

/-- Posts a completion if a caller waits for one. -/
def wake (a : Adapter σ) (h : Handle) (status : Status) : Adapter σ :=
  match a.table.get? h with
  | some r => if r.waiting then a.signal h status else a
  | none => a

/-- At most a completion is posted. -/
theorem wake_eq (a : Adapter σ) (h : Handle) (status : Status) :
    a.wake h status =
      { a with
        completions :=
          if (a.table.get? h).any (·.waiting) then a.completions.set h (some status)
          else a.completions } := by
  unfold wake
  cases a.table.get? h with
  | none => rfl
  | some r => cases hw : r.waiting <;> simp [hw, signal]

/-- Offers an event to the application. Says whether there was room; an event
without room is counted and lost. -/
def emit (a : Adapter σ) (e : Event) : Bool × Adapter σ :=
  match a.events.push? e with
  | some events => (true, { a with events }.enter (.event e true))
  | none =>
    (false, (a.enter (.event e false)).onStats fun s =>
      { s with droppedEvents := saturatingAdd s.droppedEvents 1 })

/-- Offers an event, whether there is room or not. -/
def announce (a : Adapter σ) (e : Event) : Adapter σ := (a.emit e).2

/-- An event concerns the queue of events, their count and the journal. -/
theorem announce_eq (a : Adapter σ) (e : Event) :
    ∃ events stats, a.announce e =
      { a with events, stats, bus := a.bus.enter (.event e (a.emit e).1) } := by
  unfold announce emit
  cases h : a.events.push? e with
  | some events => exact ⟨events, a.stats, rfl⟩
  | none =>
    exact ⟨a.events, { a.stats with droppedEvents := saturatingAdd a.stats.droppedEvents 1 }, rfl⟩

section Announce
variable (a : Adapter σ) (e : Event)

@[simp] theorem table_announce : (a.announce e).table = a.table := by
  obtain ⟨_, _, h⟩ := announce_eq a e
  rw [h]

@[simp] theorem rx_announce : (a.announce e).rx = a.rx := by
  obtain ⟨_, _, h⟩ := announce_eq a e
  rw [h]

@[simp] theorem config_announce : (a.announce e).config = a.config := by
  obtain ⟨_, _, h⟩ := announce_eq a e
  rw [h]

@[simp] theorem completions_announce : (a.announce e).completions = a.completions := by
  obtain ⟨_, _, h⟩ := announce_eq a e
  rw [h]

@[simp] theorem journal_announce :
    (a.announce e).bus.journal = a.bus.journal ++ [.event e (a.emit e).1] := by
  obtain ⟨_, _, h⟩ := announce_eq a e
  rw [h]
  rfl

end Announce

/-- The counters as shown: refused notifications count as discarded. -/
def shownStats (a : Adapter σ) : Stats :=
  { a.stats with discarded := saturatingAdd a.stats.discarded a.overflowed.toNat }

/-- Takes the oldest event. -/
def takeEvent (a : Adapter σ) : Option Event × Adapter σ :=
  match a.events.pop? with
  | none => (none, a)
  | some (e, events) => (some e, { a with events })

/-- Takes every event. -/
def takeEvents (a : Adapter σ) : List Event × Adapter σ :=
  (a.events.items, { a with events := .empty })

/-- Queues a notification for the worker, if there is room. -/
def enqueue? (a : Adapter σ) (note : Notification) : Option (Adapter σ) :=
  (a.notifications.push? note).map fun notifications => { a with notifications }

/-- Queues a notification for the worker. One without room is handed back and counted. -/
def notify (a : Adapter σ) (note : Notification) : Except Notification Unit × Adapter σ :=
  match a.enqueue? note with
  | some a => (.ok (), a)
  | none => (.error note, { a with overflowed := a.overflowed + 1 })

variable [Chip σ]

def issue (a : Adapter σ) (c : Command) : Answer Unit × Adapter σ :=
  let (answer, bus) := a.bus.issue c
  (answer, { a with bus })

def order (a : Adapter σ) (c : Command) : Adapter σ := { a with bus := a.bus.order c }

end Adapter

end WifiAdapter
