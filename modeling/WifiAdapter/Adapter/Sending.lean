import WifiAdapter.Adapter.Basic

/-! Sending: datagrams whole, streams piece by piece.

A datagram is put together in a bounded buffer and given to the chip in one command.
A stream is given to the chip in pieces until its buffer is full; what is left waits
in the record of the socket and goes on when the chip reports progress. A send that
fails hands back the data that did not go out. -/
namespace WifiAdapter

/-- A failed send: the cause, and the data that did not go out. -/
structure Rejected where
  error : SocketError
  chain : Chain
deriving DecidableEq, Repr

/-- How far the chip took the data of a stream. -/
inductive Progress where
  | done
  | blocked
  | failed (error : SocketError)
deriving DecidableEq, Repr

/-- Gives the chip piece after piece until there is none left or it refuses one. -/
def Bus.drain {σ : Type} [Chip σ] (bus : Bus σ) (h : Handle) (chain : Chain) :
    Progress × Chain × Bus σ :=
  match _ : chain.piece? maxStreamSegment with
  | none => (.done, chain, bus)
  | some piece =>
    match bus.issue (.send h piece) with
    | (.accepted _, bus) => bus.drain h (chain.advance piece.length)
    | (.refused status, bus) =>
      if status = .bufferFull then (.blocked, chain, bus)
      else (.failed status.refusal, chain, bus)
termination_by chain.length + chain.segments.length
decreasing_by exact Chain.advance_piece_lt maxStreamSegment_pos (by assumption)

namespace Adapter
variable {σ : Type} [Chip σ]

/-- Sends a datagram. It needs a destination that the chip can hold, and must not be
longer than the settings allow. -/
def sendDatagram (a : Adapter σ) (h : Handle) (chain : Chain) (dest? : Option SocketAddr) :
    Except Rejected Unit × Adapter σ :=
  match dest? with
  | none => (.error ⟨.destinationRequired, chain⟩, a)
  | some dest =>
    match dest.native? with
    | none => (.error ⟨.invalidArgument, chain⟩, a)
    | some address =>
      if a.config.maxDatagram < chain.length then (.error ⟨.invalidArgument, chain⟩, a)
      else
        let a := { a with scratch := [] }
        match Chain.flattenWithin datagramCapacity a.scratch chain.segments with
        | none => (.error ⟨.invalidArgument, chain⟩, a)
        | some payload =>
          match { a with scratch := payload }.issue (.sendTo h payload address) with
          | (.accepted _, a) => (.ok (), a)
          | (.refused status, a) => (.error ⟨status.refusal, chain⟩, a)

/-- Why a stream cannot take data now. -/
def streamRefusal? (r : SocketRecord) (dest? : Option SocketAddr) : Option SocketError :=
  if dest?.isSome ∨ r.phase ≠ .connected then some .invalidArgument
  else if r.peerClosed then some .connectionAborted
  else if r.pendingTx?.isSome then some .again
  else none

/-- Sends on a stream. What the chip has no room for waits in the record. -/
def sendStream (a : Adapter σ) (h : Handle) (r : SocketRecord) (chain : Chain)
    (dest? : Option SocketAddr) : Except Rejected Unit × Adapter σ :=
  match streamRefusal? r dest? with
  | some error => (.error ⟨error, chain⟩, a)
  | none =>
    if chain.isEmpty then (.ok (), a)
    else
      let (progress, rest, bus) := a.bus.drain h chain
      let a := { a with bus }
      match progress with
      | .done => (.ok (), a)
      | .blocked => (.ok (), a.modify h fun r => { r with pendingTx? := some rest })
      | .failed error => (.error ⟨error, rest⟩, a)

/-- Sends on an open socket. A datagram needs a destination, a stream must not have one. -/
def send (a : Adapter σ) (h : Handle) (chain : Chain) (dest? : Option SocketAddr) :
    Except Rejected Unit × Adapter σ :=
  match a.table.get h with
  | .error error => (.error ⟨error, chain⟩, a)
  | .ok r =>
    match r.kind with
    | .datagram => a.sendDatagram h chain dest?
    | .stream => a.sendStream h r chain dest?

/-- The chip reports progress on a stream: what waits goes on, or is given up when
the report is a failure. The application hears of the end, good or bad. -/
def onSent (a : Adapter σ) (h : Handle) (status : Status) : Adapter σ :=
  match (a.table.get? h).bind (·.pendingTx?) with
  | none => a
  | some chain =>
    if status.code < 0 then
      (a.modify h fun r => { r with pendingTx? := none }).announce (.writable h status.refusal)
    else
      let (progress, rest, bus) := a.bus.drain h chain
      let a := { a with bus }
      match progress with
      | .blocked => a.modify h fun r => { r with pendingTx? := some rest }
      | .done => (a.modify h fun r => { r with pendingTx? := none }).announce (.writable h none)
      | .failed error =>
        (a.modify h fun r => { r with pendingTx? := none }).announce (.writable h (some error))

end Adapter

end WifiAdapter
