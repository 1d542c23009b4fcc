import WifiAdapter.Adapter.Receiving

/-! Calls that wait: bind and listen.

To the caller a bind or a listen is one call with one result. To the adapter it is a
command now and a completion later. In between the caller is parked with a deadline
(`Call`), and the completion reaches it through the cell kept for its socket. A
parked caller first looks whether a completion is posted, then at the clock
(`Call.look`); with an outcome in hand it still has to come back to the adapter to
learn its result (`Adapter.finishCall`). Between the two, other things can happen. -/
namespace WifiAdapter

/-- What a look at an operation shows: it goes on, or it is finished. -/
inductive Polled (τ ρ : Type) where
  | waiting (rest : τ)
  | finished (result : ρ)
deriving DecidableEq, Repr

/-- A caller that waits for a completion. -/
structure Call where
  /-- What it began, and takes back if it fails; a bare wait began nothing. -/
  purpose? : Option Purpose
  socket : Incarnation
  deadline : Nat
  /-- What it saw: nothing so far, a completion, or that its time had run out. -/
  seen? : Option (Option Status)
deriving DecidableEq, Repr

namespace Adapter
variable {σ : Type}

/-- Takes back a request that failed. -/
def revert (a : Adapter σ) (h : Handle) (purpose : Purpose) : Adapter σ :=
  a.modify h (·.apply (purpose.done false))

/-- Begins an operation that waits: nobody else may be waiting on the socket, the
socket must admit the request, and the chip must take the command. -/
def beginCall [Chip σ] (a : Adapter σ) (h : Handle) (purpose : Purpose) (command : Command) :
    Except SocketError Unit × Adapter σ :=
  match a.table.get h with
  | .error error => (.error error, a)
  | .ok r =>
    if r.waiting then (.error .again, a)
    else if (r.phase.transition purpose.request).rejected then (.error .invalidArgument, a)
    else
      let a := (a.modify h (·.apply purpose.request)).disarm h
      match a.issue command with
      | (.accepted _, a) => (.ok (), a)
      | (.refused status, a) => (.error status.refusal, a.revert h purpose)

/-- Takes the completion posted for the socket of a call, if the call has seen nothing yet. -/
def takeCompletion (a : Adapter σ) (c : Call) : Call × Adapter σ :=
  match c.seen?, a.completions.get c.socket.handle with
  | none, some status =>
    ({ c with seen? := some (some status) },
      (a.disarm c.socket.handle).enter (.taken c.socket status))
  | _, _ => (c, a)

/-- The result of a call, from whether its socket is still the one it began on, and from
the completion, if there is one. -/
def callResult (current : Bool) (completion : Option Status) : Except SocketError Unit :=
  if current then
    match completion with
    | some status => status.result
    | none => .error .timedOut
  else .error .connectionAborted

/-- Takes back what a failed call began. -/
def settleCall (a : Adapter σ) (c : Call) (result : Except SocketError Unit) : Adapter σ :=
  match result, c.purpose? with
  | .error _, some purpose => a.revert c.socket.handle purpose
  | _, _ => a

/-- Gives a call that has seen an outcome its result. A completion posted in the
meantime counts where the clock had run out. Whatever is posted is taken away. The
call is aborted if its socket was closed while it waited; a call that fails takes
back what it began. -/
def finishCall (a : Adapter σ) (c : Call) (outcome : Option Status) :
    Except SocketError Unit × Adapter σ :=
  let h := c.socket.handle
  let current := a.table.isCurrent c.socket
  let result := callResult current (outcome.or (a.completions.get h))
  let a := a.disarm h
  let a := if current then a.modify h fun r => { r with waiting := false } else a
  (result, a.settleCall c result)

end Adapter

namespace Call
variable {σ : Type}

/-- What a look at a call shows. -/
abbrev Outcome := Polled Call (Except SocketError Unit)

/-- A look at the completion, then at the clock. -/
def look (c : Call) (now : Nat) (a : Adapter σ) : Call × Adapter σ :=
  let (c, a) := a.takeCompletion c
  match c.seen? with
  | none => (if c.deadline ≤ now then { c with seen? := some none } else c, a)
  | some _ => (c, a)

/-- The result of a call that has seen an outcome; otherwise the call goes on waiting. -/
def conclude (c : Call) (a : Adapter σ) : Outcome × Adapter σ :=
  match c.seen? with
  | none => (.waiting c, a)
  | some outcome =>
    let (result, a) := a.finishCall c outcome
    (.finished result, a)

/-- A look, and the result if there is an outcome. -/
def poll (c : Call) (now : Nat) (a : Adapter σ) : Outcome × Adapter σ :=
  let (c, a) := c.look now a
  c.conclude a

/-- Marks the socket as waited on and looks at the completion for the first time. The
clock plays no part yet: a deadline is noticed at a later look. -/
def start (purpose? : Option Purpose) (h : Handle) (deadline : Nat) (a : Adapter σ) :
    Outcome × Adapter σ :=
  if a.table.isOpen h then
    let c : Call := { purpose?, socket := a.table.incarnation h, deadline, seen? := none }
    let a := (a.modify h fun r => { r with waiting := true }).enter (.parked c.socket)
    let (c, a) := a.takeCompletion c
    c.conclude a
  else (.finished (.error .invalidArgument), a)

/-- Binds a socket to a local address. -/
def bind [Chip σ] (h : Handle) (address : SocketAddr) (now : Nat) (a : Adapter σ) :
    Outcome × Adapter σ :=
  match address.native? with
  | none => (.finished (.error .invalidArgument), a)
  | some native =>
    match a.beginCall h .bind (.bind h native) with
    | (.error error, a) => (.finished (.error error), a)
    | (.ok _, a) => start (some .bind) h (now + a.config.bindTimeout) a

/-- Makes a bound stream socket listen. -/
def listen [Chip σ] (h : Handle) (backlog : UInt8) (now : Nat) (a : Adapter σ) :
    Outcome × Adapter σ :=
  match a.table.get h with
  | .error error => (.finished (.error error), a)
  | .ok r =>
    if r.kind ≠ .stream then (.finished (.error .invalidArgument), a)
    else
      match a.beginCall h .listen (.listen h backlog) with
      | (.error error, a) => (.finished (.error error), a)
      | (.ok _, a) => start (some .listen) h (now + a.config.listenTimeout) a

end Call

namespace Adapter
variable {σ : Type}

/-- A socket goes on from the end of an operation, and whoever waits for it is told. -/
def complete (a : Adapter σ) (h : Handle) (purpose : Purpose) (status : Status) (starts : Bool) :
    Adapter σ :=
  let a := a.modify h fun r =>
    let r := r.apply (purpose.done status.isSuccess)
    if starts then { r with poll := true } else r
  (a.enter (.completed (a.table.incarnation h) purpose status)).wake h status

variable [Chip σ]

/-- A bind or a listen has come to its end on the chip. A completion the socket does
not expect has no effect. A datagram socket starts to receive as soon as it is bound. -/
def onCompletion (a : Adapter σ) (h : Handle) (purpose : Purpose) (status : Status) : Adapter σ :=
  match a.table.get? h with
  | none => a.discard
  | some r =>
    let transition := r.phase.transition (purpose.done status.isSuccess)
    if transition.rejected then a
    else
      let starts := transition.after == .bound && r.kind == .datagram
      let a := a.complete h purpose status starts
      if starts then a.pollIdle else a

end Adapter

end WifiAdapter
