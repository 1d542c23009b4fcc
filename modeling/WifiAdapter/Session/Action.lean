import WifiAdapter.Session.Basic

/-! Everything that can happen to a session, and histories of it.

An action is a call of the application, a notification, a poll of a parked task, the
passing of time, or a change of the chip of its own accord. `Session.run` takes a
session through a history of actions. -/
namespace WifiAdapter

inductive Action (σ : Type) where
  | create (domain : Domain) (type : SocketType)
  | close (h : Handle)
  | bind (h : Handle) (address : SocketAddr)
  | listen (h : Handle) (backlog : UInt8)
  | connect (h : Handle) (remote : SocketAddr)
  | send (h : Handle) (chain : Chain) (dest? : Option SocketAddr)
  | receive (h : Handle)
  | setOption (h : Handle) (option : SocketOption)
  /-- The application drops the packet it holds at a place. -/
  | drop (place : Nat)
  /-- A notification handled at once. -/
  | dispatch (note : Notification)
  /-- A notification queued if there is room. -/
  | notify (note : Notification)
  /-- A notification queued as soon as there is room. -/
  | post (note : Notification)
  | tick
  | start
  | stop
  | join (ssid key : String)
  | scan
  | takeEvent
  | nextEvent
  /-- A worker sets to work. -/
  | work
  /-- A parked task is polled. -/
  | poll (id : Nat)
  /-- A parked task is polled while the adapter is busy. -/
  | contend (id : Nat)
  /-- A parked task is dropped. -/
  | cancel (id : Nat)
  | advance (milliseconds : Nat)
  /-- The chip takes another state of its own accord. -/
  | chip (state : σ)

/-- What an action answers. -/
inductive Reply where
  /-- There is nothing to say. -/
  | nothing
  | opened (result : Except SocketError Handle)
  | result (result : Except SocketError Unit)
  | sent (result : Except Rejected Unit)
  | received (result : Except SocketError Received)
  | link (result : Except LinkError Unit)
  | event (event? : Option Event)
  /-- Whether there was something to do it to, or room for it. -/
  | flag (yes : Bool)
  /-- The operation is not finished; it is parked under a number. -/
  | parked (id : Nat)
  | finished (result : TaskResult)
deriving Repr

namespace Reply
variable {σ : Type}

/-- The reply of an operation after its first look. -/
def ofBegun : Polled Nat TaskResult × Session σ → Reply × Session σ
  | (.finished value, s) => (.finished value, s)
  | (.waiting id, s) => (.parked id, s)

/-- The reply of a poll: the result, if the task finished. -/
def ofPolled : Option TaskResult × Session σ → Reply × Session σ
  | (some value, s) => (.finished value, s)
  | (none, s) => (.nothing, s)

end Reply

namespace Session
variable {σ : Type}

/-- Gives back the lease of the packet held at a place. -/
def drop (s : Session σ) (place : Nat) : Bool × Session σ :=
  if place < s.held.length then
    (true,
      { s with
        held := s.held.eraseIdx place
        adapter := { s.adapter with pool := s.adapter.pool.giveBack 1 } })
  else (false, s)

/-- Gives back the leases of all packets held. -/
def dropAll (s : Session σ) : Session σ :=
  { s with
    held := []
    adapter := { s.adapter with pool := s.adapter.pool.giveBack s.held.length } }

/-- Drops a parked task. The mark on its socket stays. -/
def cancel (s : Session σ) (id : Nat) : Bool × Session σ :=
  ((s.find? id).isSome, s.remove id)

/-- Reads a packet, which the application then holds. -/
def receive (s : Session σ) (h : Handle) : Except SocketError Received × Session σ :=
  match s.adapter.receive h with
  | (.ok received, adapter) =>
    (.ok received, { s with adapter, held := s.held ++ [received.packet] })
  | (.error error, adapter) => (.error error, { s with adapter })

/-- Begins a bare wait for a completion on a socket. -/
def wait (s : Session σ) (h : Handle) (timeout : Nat) : Polled Nat TaskResult × Session σ :=
  s.begin fun now a =>
    let (outcome, a) := Call.start none h (now + timeout) a
    (Task.ofCall outcome, a)

variable [Chip σ]

/-- Does what an action says. -/
def perform (s : Session σ) (action : Action σ) : Reply × Session σ :=
  match action with
  | .create domain type =>
    let (result, s) := s.onAdapter (·.create domain type)
    (.opened result, s)
  | .close h => (.nothing, { s with adapter := s.adapter.close h })
  | .bind h address =>
    Reply.ofBegun <| s.begin fun now a =>
      let (outcome, a) := Call.bind h address now a
      (Task.ofCall outcome, a)
  | .listen h backlog =>
    Reply.ofBegun <| s.begin fun now a =>
      let (outcome, a) := Call.listen h backlog now a
      (Task.ofCall outcome, a)
  | .connect h remote =>
    let (result, s) := s.onAdapter (·.connect h remote)
    (.result result, s)
  | .send h chain dest? =>
    let (result, s) := s.onAdapter (·.send h chain dest?)
    (.sent result, s)
  | .receive h =>
    let (result, s) := s.receive h
    (.received result, s)
  | .setOption h option =>
    let (result, s) := s.onAdapter (·.setOption h option)
    (.result result, s)
  | .drop place =>
    let (dropped, s) := s.drop place
    (.flag dropped, s)
  | .dispatch note => (.nothing, { s with adapter := s.adapter.handle s.clock note })
  | .notify note =>
    let (result, s) := s.onAdapter (·.notify note)
    (.flag result.isOk, s)
  | .post note => Reply.ofBegun <| s.begin fun _ a => Task.pollPost note a
  | .tick => (.nothing, { s with adapter := s.adapter.tick s.clock })
  | .start =>
    let (result, s) := s.onAdapter (·.start s.clock)
    (.link result, s)
  | .stop => (.nothing, { s with adapter := s.adapter.stop s.clock })
  | .join ssid key =>
    let (result, s) := s.onAdapter (·.join s.clock ssid key)
    (.link result, s)
  | .scan =>
    let (result, s) := s.onAdapter (·.scan s.clock)
    (.link result, s)
  | .takeEvent =>
    let (event?, s) := s.onAdapter (·.takeEvent)
    (.event event?, s)
  | .nextEvent => Reply.ofBegun <| s.begin fun _ a => Task.pollEvent a
  | .work => Reply.ofBegun <| s.begin fun now a => (Task.work .fresh).poll now a
  | .poll id => Reply.ofPolled (s.poll id)
  | .contend id => Reply.ofPolled (s.contend id)
  | .cancel id =>
    let (cancelled, s) := s.cancel id
    (.flag cancelled, s)
  | .advance milliseconds => (.nothing, { s with clock := s.clock + milliseconds })
  | .chip state =>
    (.nothing, { s with adapter := { s.adapter with bus := { s.adapter.bus with chip := state } } })

/-- A history of actions. -/
def run (s : Session σ) : List (Action σ) → Session σ
  | [] => s
  | action :: rest => run (s.perform action).2 rest

theorem run_append (s : Session σ) (a b : List (Action σ)) :
    run s (a ++ b) = run (run s a) b := by
  induction a generalizing s with
  | nil => rfl
  | cons x rest ih => exact ih _

/-- A message for a socket arrives while parked callers are waking up: time passes,
every task is polled while the adapter is busy, and only then is the message handled. -/
def race (s : Session σ) (milliseconds : Nat) (h : Handle) (m : SocketMessage) :
    List (Nat × TaskResult) × Session σ :=
  let s := { s with clock := s.clock + milliseconds }
  let (results, s) := s.passWith fun t now a => t.contend now a
  (results, { s with adapter := s.adapter.handle s.clock (.socket h m) })

end Session

end WifiAdapter
