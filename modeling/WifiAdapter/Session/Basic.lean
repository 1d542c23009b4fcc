import WifiAdapter.Session.Task

/-! A session: an adapter in use, with its clock, its parked tasks and the packets
the application holds. -/
namespace WifiAdapter

/-- A task and the number it is known by. -/
structure Parked where
  id : Nat
  task : Task
deriving DecidableEq, Repr

structure Session (σ : Type) where
  adapter : Adapter σ
  clock : Nat
  /-- The parked tasks, oldest first. -/
  tasks : List Parked
  nextTask : Nat
  /-- The packets read and not yet dropped, oldest first. -/
  held : List Packet
deriving DecidableEq

namespace Session
variable {σ : Type}

def new (chip : σ) (packets : Nat) (config : Config) : Session σ :=
  { adapter := .new chip packets config, clock := 0, tasks := [], nextTask := 0, held := [] }

/-- Does something to the adapter. -/
def onAdapter {α : Type} (s : Session σ) (f : Adapter σ → α × Adapter σ) : α × Session σ :=
  let (result, adapter) := f s.adapter
  (result, { s with adapter })

/-- The task of a number, if it is parked. -/
def find? (s : Session σ) (id : Nat) : Option Task :=
  (s.tasks.find? (·.id == id)).map (·.task)

/-- Parks a task that is not finished, under the next number. -/
def park (s : Session σ) (t : Task) : Nat × Session σ :=
  (s.nextTask, { s with tasks := s.tasks ++ [⟨s.nextTask, t⟩], nextTask := s.nextTask + 1 })

/-- Puts a task in the place of the one of that number. -/
def replace (s : Session σ) (id : Nat) (t : Task) : Session σ :=
  { s with tasks := s.tasks.map fun p => if p.id = id then { p with task := t } else p }

/-- Takes a task off the list. -/
def remove (s : Session σ) (id : Nat) : Session σ :=
  { s with tasks := s.tasks.filter (·.id != id) }

/-- The first poll of an operation: a result, or the number under which it is parked. -/
def begin (s : Session σ) (f : Nat → Adapter σ → Task.Outcome × Adapter σ) :
    Polled Nat TaskResult × Session σ :=
  match f s.clock s.adapter with
  | (.finished result, adapter) => (.finished result, { s with adapter })
  | (.waiting task, adapter) =>
    let (id, s) := { s with adapter }.park task
    (.waiting id, s)

/-- Polls a parked task in the given manner. A finished one leaves the list. -/
def pollWith (f : Task → Nat → Adapter σ → Task.Outcome × Adapter σ) (s : Session σ) (id : Nat) :
    Option TaskResult × Session σ :=
  match s.find? id with
  | none => (none, s)
  | some task =>
    match f task s.clock s.adapter with
    | (.finished result, adapter) => (some result, { s with adapter }.remove id)
    | (.waiting task, adapter) => (none, { s with adapter }.replace id task)

/-- Polls several tasks in turn, collecting the results of those that finish. -/
def pollEachWith (f : Task → Nat → Adapter σ → Task.Outcome × Adapter σ) :
    List Nat → Session σ → List (Nat × TaskResult) × Session σ
  | [], s => ([], s)
  | id :: rest, s =>
    let (result?, s) := s.pollWith f id
    let (results, s) := pollEachWith f rest s
    (result?.toList.map (fun r => (id, r)) ++ results, s)

/-- Polls every parked task once, oldest first. -/
def passWith (f : Task → Nat → Adapter σ → Task.Outcome × Adapter σ) (s : Session σ) :
    List (Nat × TaskResult) × Session σ :=
  pollEachWith f (s.tasks.map (·.id)) s

variable [Chip σ]

def poll (s : Session σ) (id : Nat) : Option TaskResult × Session σ := s.pollWith Task.poll id

/-- Polls a task while the adapter is busy. -/
def contend (s : Session σ) (id : Nat) : Option TaskResult × Session σ :=
  s.pollWith (fun t now a => t.contend now a) id

/-- Polls every task once. -/
def pass (s : Session σ) : List (Nat × TaskResult) × Session σ := s.passWith Task.poll

/-- Polls every task so many times. -/
def passes : Nat → Session σ → List (Nat × TaskResult) × Session σ
  | 0, s => ([], s)
  | n + 1, s =>
    let (first, s) := s.pass
    let (others, s) := passes n s
    (first ++ others, s)

end Session

end WifiAdapter
