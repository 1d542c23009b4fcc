import WifiAdapter.Adapter.Service

/-! The worker that keeps an adapter going.

The worker waits for the first of three things: a queued notification, a kick, or the
time of the next tick. It looks for them in this order, and what it finds it takes in
hand; for that it need not be at the adapter. To do what it has in hand, it has to be:
then it handles the notification, or it ticks. A wait begins afresh after each of
them, and only a wait that has been looked at before notices the time; so the worker
always yields once before it ticks because of the clock. The time of the next tick
outlives notifications. -/
namespace WifiAdapter

inductive Worker where
  /-- Not yet begun. -/
  | fresh
  /-- Waiting. `looked` says whether this wait has been looked at before. -/
  | waiting (nextTick : Nat) (looked : Bool)
  /-- With a notification in hand. -/
  | handling (nextTick : Nat) (note : Notification)
  /-- With a tick in hand. -/
  | ticking
deriving DecidableEq, Repr

namespace Worker
variable {σ : Type}

/-- A new wait after a tick. -/
def afterTick (now : Nat) (a : Adapter σ) : Worker := .waiting (now + a.config.pollInterval) false

/-- A wait that has been looked at. -/
def lookedAt : Worker → Worker
  | .waiting nextTick _ => .waiting nextTick true
  | w => w

/-- Takes the first thing there is in hand, if there is any. -/
def take? (now nextTick : Nat) (looked : Bool) (a : Adapter σ) : Option (Worker × Adapter σ) :=
  match a.notifications.pop? with
  | some (note, notifications) => some (.handling nextTick note, { a with notifications })
  | none =>
    if a.kicked then some (.ticking, { a with kicked := false })
    else if looked ∧ nextTick ≤ now then some (.ticking, a)
    else none

/-- A poll while someone else is at the adapter. A wait may end with something in
hand, and that is as far as the worker gets. -/
def contend (w : Worker) (now : Nat) (a : Adapter σ) : Worker × Adapter σ :=
  match w with
  | .waiting nextTick looked => (take? now nextTick looked a).getD (w.lookedAt, a)
  | _ => (w, a)

/-- As many turns as a poll takes at most: one to begin or to do what is in hand, two
for each queued notification, two for a tick, and one that finds nothing. -/
def enough (a : Adapter σ) : Nat := 2 * a.notifications.items.length + 4

variable [Chip σ]

/-- Begins, or does what is in hand. -/
def resume (w : Worker) (now : Nat) (a : Adapter σ) : Worker × Adapter σ :=
  match w with
  | .fresh => (afterTick now a, a)
  | .waiting .. => (w, a)
  | .handling nextTick note => (.waiting nextTick false, a.handle now note)
  | .ticking =>
    let a := a.tick now
    (afterTick now a, a)

/-- One turn: a wait takes something in hand, if there is anything, and what is in
hand is done. -/
def turn (now : Nat) (w : Worker) (a : Adapter σ) : Option (Worker × Adapter σ) :=
  match w with
  | .waiting nextTick looked => take? now nextTick looked a
  | _ => some (w.resume now a)

/-- Turn after turn, at most so many, until there is nothing to take. -/
def turns (now : Nat) : Nat → Worker → Adapter σ → Worker × Adapter σ
  | 0, w, a => (w, a)
  | n + 1, w, a =>
    match turn now w a with
    | some (w, a) => turns now n w a
    | none => (w.lookedAt, a)

/-- Does everything there is to do. -/
def poll (w : Worker) (now : Nat) (a : Adapter σ) : Worker × Adapter σ :=
  turns now (enough a) w a

end Worker

end WifiAdapter
