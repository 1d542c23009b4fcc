import WifiAdapter.Chip

/-! A chip that follows a script.

The script names the commands that are refused and with what word, how many stream
sends still succeed, and which handle a new socket gets. Without a script the chip
takes every command and hands out the lowest handle it has not marked as open. -/
namespace WifiAdapter

/-- What a script can refuse. -/
inductive ScriptedCommand where
  | socket
  | bind
  | listen
  | connect
  | sendTo
  | multicast
  | init
  | scanRegion
  | scan
  | scanResult
  | associate
  | disassociate
  /-- A receive on one socket. -/
  | receiveOn (h : Handle)
  /-- A receive on any socket. -/
  | receive
  /-- A send on one socket, whatever the budget. -/
  | sendOn (h : Handle)
  /-- A send beyond the budget; within the budget this refuses nothing. -/
  | send
deriving DecidableEq, Repr

structure ScriptedChip where
  refusals : List (ScriptedCommand × Status)
  /-- How many sends still succeed; none is any number. -/
  budget? : Option Nat
  /-- The handle every new socket gets. -/
  forced? : Option Handle
  /-- The handles handed out and not closed since. -/
  taken : Slots Bool
  /-- Notifications pulled in, oldest first. -/
  inbox : List Notification
deriving DecidableEq

namespace ScriptedChip

def new : ScriptedChip :=
  { refusals := [], budget? := none, forced? := none, taken := .fill false, inbox := [] }

instance : Inhabited ScriptedChip := ⟨new⟩

/-- The word with which a command is refused, if it is. -/
def refusal? (c : ScriptedChip) (name : ScriptedCommand) : Option Status := c.refusals.lookup name

/-- Sets or, with none, removes a refusal. -/
def script (c : ScriptedChip) (name : ScriptedCommand) (status? : Option Status) : ScriptedChip :=
  let others := c.refusals.filter (·.1 != name)
  { c with refusals := (status?.toList.map fun status => (name, status)) ++ others }

def mark (c : ScriptedChip) (h : Handle) (taken : Bool) : ScriptedChip :=
  { c with taken := c.taken.set h taken }

/-- The lowest handle of a kind that is not marked as open. -/
def free? (c : ScriptedChip) (kind : SocketKind) : Option Handle :=
  (Handle.ofKind kind).find? fun h => !c.taken.get h

/-- The word for having no socket of a kind left. -/
def exhausted : SocketKind → Status
  | .stream => .streamsExhausted
  | .datagram => .datagramsExhausted

def openSocket (kind : SocketKind) (c : ScriptedChip) : Answer Handle × ScriptedChip :=
  match c.refusal? .socket with
  | some status => (.refused status, c)
  | none =>
    match c.forced?.or (c.free? kind) with
    | some h => (.accepted h, c.mark h true)
    | none => (.refused (exhausted kind), c)

/-- Refuses what the script refuses under a name. -/
def obey (name : ScriptedCommand) (c : ScriptedChip) : Answer Unit × ScriptedChip :=
  match c.refusal? name with
  | some status => (.refused status, c)
  | none => (.accepted (), c)

/-- A send within the budget. -/
def spend (c : ScriptedChip) : Answer Unit × ScriptedChip :=
  match c.budget? with
  | none => (.accepted (), c)
  | some 0 => (.refused ((c.refusal? .send).getD .bufferFull), c)
  | some (n + 1) => (.accepted (), { c with budget? := some n })

def execute (command : Command) (c : ScriptedChip) : Answer Unit × ScriptedChip :=
  match command with
  | .bind .. => c.obey .bind
  | .listen .. => c.obey .listen
  | .connect .. => c.obey .connect
  | .send h _ =>
    match c.refusal? (.sendOn h) with
    | some status => (.refused status, c)
    | none => c.spend
  | .sendTo .. => c.obey .sendTo
  | .receive h .. =>
    match c.refusal? (.receiveOn h) with
    | some status => (.refused status, c)
    | none => c.obey .receive
  | .close h => (.accepted (), c.mark h false)
  | .multicast .. => c.obey .multicast
  | .flow _ => (.accepted (), c)
  | .init => c.obey .init
  | .deinit => (.accepted (), c)
  | .scanRegion _ => c.obey .scanRegion
  | .scan => c.obey .scan
  | .scanResult _ => c.obey .scanResult
  | .associate .. => c.obey .associate
  | .disassociate => c.obey .disassociate

/-- Pulls in more notifications. -/
def pull (c : ScriptedChip) (notes : List Notification) : ScriptedChip :=
  { c with inbox := c.inbox ++ notes }

def poll (c : ScriptedChip) : Option (Notification × ScriptedChip) :=
  match c.inbox with
  | [] => none
  | note :: rest => some (note, { c with inbox := rest })

instance : Chip ScriptedChip := ⟨openSocket, execute, poll⟩

end ScriptedChip

end WifiAdapter
