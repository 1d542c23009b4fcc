import WifiAdapter.Event
import WifiAdapter.Lifecycle
import WifiAdapter.Packet

/-! The chip together with the journal of all traffic.

Everything that crosses the boundary of the adapter is entered in the journal in
the order in which it happens, and with it the turning points inside that a history
is told by: slots taken into use, callers that wait and what they are told, and cases
that were not expected. The adapter never reads the journal: it is there for what can
be said about a history. -/
namespace WifiAdapter

/-- A receive the chip has yet to answer: for whom, for how many bytes at most, and
what was read for the same packet before. -/
structure Expectation where
  socket : Incarnation
  room : Nat
  held : Bytes
deriving DecidableEq, Repr

/-- Cases that receiving provides for and does not expect. -/
inductive Guard where
  /-- A receive is answered whose socket is gone. -/
  | staleCursor
  /-- The owner of the bytes in flight is gone. -/
  | staleOwner
  /-- No packet is in flight. -/
  | noPacket
  /-- A packet or the end of a stream finds no socket. -/
  | noRecord
deriving DecidableEq, Repr

inductive Entry where
  /-- A request for a socket, with the chip's answer. -/
  | opening (kind : SocketKind) (answer : Answer Handle)
  /-- Any other command, with the chip's answer. -/
  | command (command : Command) (answer : Answer Unit)
  /-- A notification about to be handled, with the receive outstanding at that moment. -/
  | handled (notification : Notification) (expecting? : Option Expectation)
  /-- An event for the application, and whether its queue had room. -/
  | event (event : Event) (queued : Bool)
  /-- A packet taken by the application. -/
  | read (socket : Incarnation) (packet : Packet)
  /-- A slot taken into use. -/
  | opened (socket : Incarnation)
  /-- A caller that begins to wait on a socket. -/
  | parked (socket : Incarnation)
  /-- The end of an operation that was under way on a socket. -/
  | completed (socket : Incarnation) (purpose : Purpose) (status : Status)
  /-- A posted completion, taken by a caller that waits on a socket. -/
  | taken (socket : Incarnation) (status : Status)
  /-- A case that was not expected. -/
  | unexpected (guard : Guard)
deriving DecidableEq, Repr

/-- A chip and the journal of its traffic, oldest entry first. -/
structure Bus (σ : Type) where
  chip : σ
  journal : List Entry
deriving DecidableEq

namespace Bus
variable {σ : Type}

def enter (b : Bus σ) (e : Entry) : Bus σ := { b with journal := b.journal ++ [e] }

@[simp] theorem chip_enter (b : Bus σ) (e : Entry) : (b.enter e).chip = b.chip := rfl

@[simp] theorem journal_enter (b : Bus σ) (e : Entry) :
    (b.enter e).journal = b.journal ++ [e] := rfl

variable [Chip σ]

/-- Asks the chip for a socket. -/
def openSocket (b : Bus σ) (kind : SocketKind) : Answer Handle × Bus σ :=
  let (answer, chip) := Chip.openSocket kind b.chip
  (answer, { b with chip }.enter (.opening kind answer))

/-- Gives the chip a command. -/
def issue (b : Bus σ) (c : Command) : Answer Unit × Bus σ :=
  let (answer, chip) := Chip.execute c b.chip
  (answer, { b with chip }.enter (.command c answer))

/-- Gives the chip a command whose answer plays no part. -/
def order (b : Bus σ) (c : Command) : Bus σ := (b.issue c).2

/-- Takes the oldest notification the chip holds. -/
def poll (b : Bus σ) : Option (Notification × Bus σ) :=
  (Chip.poll b.chip).map fun (note, chip) => (note, { b with chip })

theorem journal_openSocket (b : Bus σ) (kind : SocketKind) :
    (b.openSocket kind).2.journal = b.journal ++ [.opening kind (b.openSocket kind).1] := rfl

theorem journal_issue (b : Bus σ) (c : Command) :
    (b.issue c).2.journal = b.journal ++ [.command c (b.issue c).1] := rfl

theorem journal_of_issue {b b' : Bus σ} {c : Command} {answer : Answer Unit}
    (h : b.issue c = (answer, b')) : b'.journal = b.journal ++ [.command c answer] := by
  have hjournal := b.journal_issue c
  rwa [h] at hjournal

end Bus

end WifiAdapter
