import WifiAdapter.Worker

/-! Tasks: operations that may take more than one look to finish.

A task is what remains of an operation that could not finish at once. Polling it
either finishes it with a result or leaves a task. While someone else is at the
adapter a task can be polled too (`Task.contend`): it sees what there is to see, and
takes what was left for it, but it does nothing to the sockets, the link or the chip. -/
namespace WifiAdapter

inductive Task where
  /-- A bind, a listen or a bare wait. -/
  | call (call : Call)
  /-- A notification waiting for room in the queue. -/
  | post (note : Notification)
  /-- Somebody waiting for the next event. -/
  | nextEvent
  | work (worker : Worker)
deriving DecidableEq, Repr

/-- What a task comes to. -/
inductive TaskResult where
  | call (result : Except SocketError Unit)
  | posted
  | event (event : Event)
deriving Repr

namespace Task
variable {σ : Type}

/-- What a look at a task shows. -/
abbrev Outcome := Polled Task TaskResult

/-- What a look at a call shows, as a task. -/
def ofCall : Call.Outcome → Outcome
  | .waiting c => .waiting (.call c)
  | .finished result => .finished (.call result)

/-- Queues the notification if there is room. -/
def pollPost (note : Notification) (a : Adapter σ) : Outcome × Adapter σ :=
  match a.enqueue? note with
  | some a => (.finished .posted, a)
  | none => (.waiting (.post note), a)

/-- Takes the oldest event if there is one. -/
def pollEvent (a : Adapter σ) : Outcome × Adapter σ :=
  match a.takeEvent with
  | (some e, a) => (.finished (.event e), a)
  | (none, a) => (.waiting .nextEvent, a)

/-- A poll of a task while the adapter is busy. Calls look but do not conclude; the
worker takes something in hand but does not do it. -/
def contend (t : Task) (now : Nat) (a : Adapter σ) : Outcome × Adapter σ :=
  match t with
  | .call c =>
    let (c, a) := c.look now a
    (.waiting (.call c), a)
  | .post note => pollPost note a
  | .nextEvent => pollEvent a
  | .work w =>
    let (w, a) := w.contend now a
    (.waiting (.work w), a)

/-- A poll of a task while nobody is at the adapter. -/
def poll [Chip σ] (t : Task) (now : Nat) (a : Adapter σ) : Outcome × Adapter σ :=
  match t with
  | .call c =>
    let (outcome, a) := c.poll now a
    (ofCall outcome, a)
  | .post note => pollPost note a
  | .nextEvent => pollEvent a
  | .work w =>
    let (w, a) := w.poll now a
    (.waiting (.work w), a)

end Task

end WifiAdapter
