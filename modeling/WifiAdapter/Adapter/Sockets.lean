import WifiAdapter.Adapter.Sending
import WifiAdapter.Adapter.Waiting

/-! The socket operations that do not wait, and what the chip reports about sockets. -/
namespace WifiAdapter

/-- The address family asked for. -/
inductive Domain where
  | inet
  | inet6
deriving DecidableEq, Repr

/-- The kind of socket asked for. -/
inductive SocketType where
  | stream
  | datagram
  | raw
deriving DecidableEq, Repr

inductive SocketOption where
  | joinGroup (group : IpAddr)
  | leaveGroup (group : IpAddr)
  /-- The interface for outgoing multicast; there is only one. -/
  | multicastInterface (index : Nat)
  | other (level name : Nat)
deriving DecidableEq, Repr

/-- A packet read by the application, with its sender. -/
structure Received where
  packet : Packet
  sender : Endpoint
deriving DecidableEq, Repr

/-- The sockets the chip can make: IPv4 streams and datagrams. -/
def SocketKind.of? (domain : Domain) (type : SocketType) : Except SocketError SocketKind :=
  match domain, type with
  | .inet6, _ => .error .familyNotSupported
  | .inet, .stream => .ok .stream
  | .inet, .datagram => .ok .datagram
  | .inet, .raw => .error .protocolNotSupported

/-- The record with its other end known and data wanted. -/
def SocketRecord.aimedAt (r : SocketRecord) (peer : Endpoint) : SocketRecord :=
  { r with peer? := some peer, poll := true }

namespace Adapter
variable {σ : Type}

/-! ### Reading -/

/-- Takes the oldest packet of a socket. A datagram comes from the sender stamped on
it, everything else from the other end of the socket. -/
def receive (a : Adapter σ) (h : Handle) : Except SocketError Received × Adapter σ :=
  match a.table.get h with
  | .error error => (.error error, a)
  | .ok r =>
    match r.inbound with
    | [] => (.error .again, a)
    | packet :: rest =>
      let b := a.modify h fun r => { r with inbound := rest }
      (.ok ⟨packet, (packet.source?.or r.peer?).getD .unspecified⟩,
        b.enter (.read (a.table.incarnation h) packet))

def peerName (a : Adapter σ) (h : Handle) : Except SocketError Endpoint :=
  (a.table.get h).map (·.peerName)

def isPeerClosed (a : Adapter σ) (h : Handle) : Except SocketError Bool :=
  (a.table.get h).map (·.peerClosed)

/-- The number of packets waiting to be read. -/
def pendingRx (a : Adapter σ) (h : Handle) : Except SocketError Nat :=
  (a.table.get h).map (·.inbound.length)

def phase (a : Adapter σ) (h : Handle) : Except SocketError Phase :=
  (a.table.get h).map (·.phase)

/-- Frees a slot, giving back the packets queued in it. -/
def release (a : Adapter σ) (h : Handle) : Option SocketRecord × Adapter σ :=
  let (record?, table, pool) := a.table.release a.pool h
  (record?, { a with table, pool })

variable [Chip σ]

/-! ### Opening and closing -/

/-- Opens a socket. -/
def create (a : Adapter σ) (domain : Domain) (type : SocketType) :
    Except SocketError Handle × Adapter σ :=
  match SocketKind.of? domain type with
  | .error error => (.error error, a)
  | .ok kind =>
    match a.table.allocate a.bus kind with
    | (.error error, table, bus) => (.error error, { a with table, bus })
    | (.ok h, table, bus) =>
      (.ok h, { a with table, bus }.enter (.opened (table.incarnation h)))

/-- Closes a socket. What is outstanding for it is forgotten and whoever waits for it
is woken. Closing a free slot does nothing. -/
def close (a : Adapter σ) (h : Handle) : Adapter σ :=
  match a.release h with
  | (none, a) => a
  | (some r, a) =>
    let a := (a.order (.close h)).onRx (·.leave h)
    if r.waiting then a.signal h .connectionAborted else a

/-! ### Connecting -/

/-- Connects a stream; its end is reported by an event. A datagram socket only
remembers the other end, and says that the argument was invalid. -/
def connect (a : Adapter σ) (h : Handle) (remote : SocketAddr) :
    Except SocketError Unit × Adapter σ :=
  match remote with
  | .v6 => (.error .invalidArgument, a)
  | .v4 peer =>
    match a.table.get h with
    | .error error => (.error error, a)
    | .ok r =>
      if r.kind = .datagram then (.error .invalidArgument, a.modify h (·.aimedAt peer))
      else if (r.phase.transition .connect).rejected then (.error .invalidArgument, a)
      else
        let a := a.modify h fun r => (r.apply .connect).aimedAt peer
        match a.issue (.connect h (.ofEndpoint peer)) with
        | (.accepted _, a) => (.ok (), a)
        | (.refused status, a) =>
          (.error status.refusal, a.modify h (·.apply (.connectDone false)))

/-- Joins or leaves a multicast group. -/
def setMembership (a : Adapter σ) (h : Handle) (group : IpAddr) (join : Bool) :
    Except SocketError Unit × Adapter σ :=
  match group with
  | .v6 => (.error .invalidArgument, a)
  | .v4 group =>
    match a.table.get h with
    | .error error => (.error error, a)
    | .ok _ =>
      match a.issue (.multicast h group join) with
      | (.accepted _, a) => (.ok (), a)
      | (.refused status, a) => (.error status.refusal, a)

/-- Membership goes to the chip; the choice of interface is no choice, and there are
no other options. -/
def setOption (a : Adapter σ) (h : Handle) (option : SocketOption) :
    Except SocketError Unit × Adapter σ :=
  match option with
  | .joinGroup group => a.setMembership h group true
  | .leaveGroup group => a.setMembership h group false
  | .multicastInterface _ => (.ok (), a)
  | .other _ _ => (.error .protocolNotSupported, a)

/-! ### What the chip reports -/

/-- Registers a connection and tells the application; it is closed again when the
application cannot be told. Says whether it could. -/
def register (a : Adapter σ) (listener child : Handle) (table : SocketTable) : Bool × Adapter σ :=
  let a := { a with table }.enter (.opened (table.incarnation child))
  match a.emit (.newConnection listener child) with
  | (true, a) => (true, a)
  | (false, a) => (false, (a.release child).2.order (.close child))

/-- A listener took in a connection. It becomes a socket if the listener still
listens, its slot is free and the application can be told; otherwise the chip is to
close it. -/
def onAccept (a : Adapter σ) (listener : Handle) (child : Answer Handle) (peer : NativeAddr) :
    Adapter σ :=
  match child with
  | .refused _ => a
  | .accepted child =>
    match a.table.get? listener with
    | none => a.order (.close child)
    | some r =>
      if r.phase ≠ .listening then a.order (.close child)
      else
        match a.table.adopt child r.kind peer.endpoint with
        | .error _ => a.order (.close child)
        | .ok table =>
          match a.register listener child table with
          | (true, a) => a.pollIdle
          | (false, a) => a

/-- A connect has come to its end. -/
def onConnect (a : Adapter σ) (h : Handle) (status : Status) : Adapter σ :=
  match a.table.get? h with
  | none => a.discard
  | some r =>
    let request := .connectDone status.isSuccess
    if (r.phase.transition request).rejected then a
    else
      let a := (a.modify h (·.apply request)).announce (.writable h status.error?)
      if status.isSuccess then a.pollIdle else a

def onSocket (a : Adapter σ) (h : Handle) (m : SocketMessage) : Adapter σ :=
  match m with
  | .bound status => a.onCompletion h .bind status
  | .listening status => a.onCompletion h .listen status
  | .accepted child peer => a.onAccept h child peer
  | .connected status => a.onConnect h status
  | .received delivery => a.onDelivery h delivery
  | .sent status => a.onSent h status
  | .sentTo _ => a

end Adapter

end WifiAdapter
