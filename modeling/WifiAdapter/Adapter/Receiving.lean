import WifiAdapter.Adapter.Basic

/-! Receiving for all sockets with one packet in flight and one receive outstanding.

Sockets that want data are asked in ascending order, one at a time, each starting
where the one before it left off (`pollFrom`). Bytes of one socket never reach
another: before the next socket is asked, a partial packet goes to its owner
(`settlePartial`). When no packet can be leased the chip is paused, and it is
resumed as soon as one can. -/
namespace WifiAdapter.Adapter
variable {σ : Type}

/-! ### Handing packets over -/

/-- Queues a packet at its socket and says so. -/
def handOver (a : Adapter σ) (h : Handle) (packet : Packet) : Adapter σ :=
  let a := a.modify h fun r => { r with inbound := r.inbound ++ [packet] }
  let a := a.onStats fun s =>
    { s with
      rxPackets := saturatingAdd s.rxPackets 1
      rxBytes := saturatingAdd s.rxBytes packet.data.length }
  a.announce (.readable h .data)

/-- Hands the packet in flight over to a socket. A packet whose socket is gone is dropped. -/
def finishPacket (a : Adapter σ) (h : Handle) : Adapter σ :=
  match a.rx.packet? with
  | none => (a.onRx .part).enter (.unexpected .noPacket)
  | some packet =>
    let a := a.onRx .part
    if a.table.isOpen h then a.handOver h packet
    else { a with pool := a.pool.giveBack 1 }.enter (.unexpected .noRecord)

/-- Hands a partial packet to its owner, or drops its bytes when the owner is gone. -/
def settlePartial (a : Adapter σ) : Adapter σ :=
  match a.rx.owner? with
  | none => a
  | some owner =>
    if a.table.isCurrent owner then a.finishPacket owner.handle
    else (a.enter (.unexpected .staleOwner)).onRx .dropPartial

/-- Marks a socket as closed by its other end and tells whoever waits for it. -/
def endStream (a : Adapter σ) (h : Handle) (status : Status) (read : ReadStatus) : Adapter σ :=
  let a := a.onRx .dropPartial
  if a.table.isOpen h then
    let a := a.modify h fun r => { r with peerClosed := true, poll := false }
    (a.wake h status).announce (.readable h read)
  else a.enter (.unexpected .noRecord)

variable [Chip σ]

/-! ### Flow control -/

/-- Tells the chip to hold inbound data back, unless it was told already. -/
def pauseFlow (a : Adapter σ) : Adapter σ :=
  if a.rx.paused then a
  else
    ((a.order (.flow true)).onRx fun r => { r with paused := true }).onStats fun s =>
      { s with flowPauses := saturatingAdd s.flowPauses 1 }

/-- Lets the chip deliver again, if it was told to hold back. -/
def resumeFlow (a : Adapter σ) : Adapter σ :=
  if a.rx.paused then (a.order (.flow false)).onRx fun r => { r with paused := false } else a

/-- Makes sure that a packet is in flight. Says whether there is one. -/
def ensurePacket (a : Adapter σ) : Bool × Adapter σ :=
  match a.rx.packet? with
  | some _ => (true, a.resumeFlow)
  | none =>
    match a.pool.lease? a.config.rxPacketSize with
    | some (packet, pool) =>
      (true, ({ a with pool }.onRx fun r => { r with packet? := some packet }).resumeFlow)
    | none => (false, a.pauseFlow)

/-! ### Asking -/

/-- Room for bytes of the present occupant of `h`: a partial packet of anyone else is
handed over first. Says whether a packet is in flight. -/
def clearFor (a : Adapter σ) (h : Handle) : Bool × Adapter σ :=
  match a.rx.owner? with
  | none => (true, a)
  | some owner =>
    if owner = a.table.incarnation h then (true, a) else a.settlePartial.ensurePacket

/-- Relies on a packet in flight. -/
def expectPacket (a : Adapter σ) : Adapter σ :=
  match a.rx.packet? with
  | some _ => a
  | none => a.enter (.unexpected .noPacket)

/-- Asks the chip for as many bytes as fit. Says whether it took the request. -/
def ask (a : Adapter σ) (h : Handle) : Bool × Adapter σ :=
  match a.expectPacket.issue (.receive h a.rx.room a.config.recvTimeout) with
  | (.accepted _, a) =>
    (true, a.onRx fun r => { r with cursor? := some (a.table.incarnation h), polling := true })
  | (.refused _, a) => (false, a)

/-- Asks the sockets of a list in turn, until the chip takes a request or no packet
can be leased. A socket that wants no data is passed over. -/
def pollEach : List Handle → Adapter σ → Adapter σ
  | [], a => a
  | h :: rest, a =>
    if a.table.awaits h then
      match a.clearFor h with
      | (false, a) => a
      | (true, a) =>
        match a.ask h with
        | (true, a) => a
        | (false, a) => pollEach rest a
    else pollEach rest a

/-- Asks the sockets from `start` on. The chip is paused instead when no packet can be leased. -/
def pollFrom (a : Adapter σ) (start : Nat) : Adapter σ :=
  let a := a.onRx .withdraw
  match a.ensurePacket with
  | (false, a) => a
  | (true, a) => pollEach (Handle.startingAt start) a

/-- Asks from the beginning, unless a receive is outstanding. -/
def pollIdle (a : Adapter σ) : Adapter σ := if a.rx.polling then a else a.pollFrom 0

/-! ### Deliveries -/

/-- A packet with the delivered bytes, as far as they fit. The sender of the first
bytes of a datagram is the sender of the packet. -/
def fill (a : Adapter σ) (h : Handle) (d : Delivery) (before : Packet) : Packet :=
  let packet := before.append d.payload
  if before.isEmpty && a.table.kind? h == some .datagram then packet.stamp d.sender.endpoint
  else packet

/-- Takes the delivered bytes into the packet in flight, which goes to its socket when
it is full or the chip has no more. -/
def takeIn (a : Adapter σ) (socket : Incarnation) (d : Delivery) (remaining : Nat)
    (before : Packet) : Adapter σ :=
  let packet := a.fill socket.handle d before
  let a := a.onRx fun r => { r with packet? := some packet, owner? := some socket }
  if 0 < remaining ∧ 0 < packet.room then a else a.finishPacket socket.handle

/-- Takes the delivered bytes in. While the chip has more, the same socket is asked again. -/
def onData (a : Adapter σ) (socket : Incarnation) (d : Delivery) (remaining : Nat) : Adapter σ :=
  let h := socket.handle
  match a.rx.packet? with
  | none => (a.enter (.unexpected .noPacket)).pollFrom (h.val + 1)
  | some before =>
    (a.takeIn socket d remaining before).pollFrom (if 0 < remaining then h.val else h.val + 1)

/-- What a delivery brings to the socket it was asked for. -/
def onAnswer (a : Adapter σ) (socket : Incarnation) (d : Delivery) : Adapter σ :=
  let h := socket.handle
  match d.outcome with
  | .noData => a.settlePartial.pollFrom (h.val + 1)
  | .data remaining => a.onData socket d remaining
  | .closed => (a.endStream h .connectionAborted .endOfStream).pollFrom (h.val + 1)
  | .failed status => (a.endStream h status (.failed status.refusal)).pollFrom (h.val + 1)

/-- A delivery nobody asked for is discarded, as is one for a socket gone meanwhile. -/
def onDelivery (a : Adapter σ) (h : Handle) (d : Delivery) : Adapter σ :=
  match a.rx.outstanding? with
  | none => a.discard.pollIdle
  | some socket =>
    if socket.handle = h then
      if a.table.isCurrent socket then a.onAnswer socket d
      else
        (((a.enter (.unexpected .staleCursor)).onRx .dropPartial).discard).pollFrom (h.val + 1)
    else a.discard.pollIdle

end WifiAdapter.Adapter
