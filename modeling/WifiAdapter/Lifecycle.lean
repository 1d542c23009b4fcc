/-! The phases in the life of a socket.

A request moves a socket from phase to phase; most requests make sense in a few
phases only and are rejected in the others (`Phase.step?`). Closing is possible in
every phase and final. -/
namespace WifiAdapter

inductive Phase where
  | unbound
  | binding
  | bound
  | listenPending
  | listening
  | connecting
  | connected
  | closed
deriving DecidableEq, Repr, Inhabited

namespace Phase

/-- What can happen to a socket. The `…Done` requests carry whether it went well. -/
inductive Request where
  | bind
  | bindDone (ok : Bool)
  | listen
  | listenDone (ok : Bool)
  | connect
  | connectDone (ok : Bool)
  | accepted
  | close
deriving DecidableEq, Repr

/-- What became of a request. -/
inductive Verdict where
  | applied
  | unchanged
  | rejected
deriving DecidableEq, Repr

/-- A request's effect: the phases before and after it, and its verdict. -/
structure Transition where
  before : Phase
  after : Phase
  verdict : Verdict
deriving DecidableEq, Repr

def all : List Phase :=
  [unbound, binding, bound, listenPending, listening, connecting, connected, closed]

def label : Phase → String
  | unbound => "unbound"
  | binding => "binding"
  | bound => "bound"
  | listenPending => "listen_pending"
  | listening => "listening"
  | connecting => "connecting"
  | connected => "connected"
  | closed => "closed"

def Verdict.label : Verdict → String
  | applied => "Applied"
  | unchanged => "Unchanged"
  | rejected => "InvalidTransition"

/-- The phase a request leads to; none if the phase does not admit the request. -/
def step? : Phase → Request → Option Phase
  | _, .close => some closed
  | unbound, .bind => some binding
  | unbound, .connect => some connecting
  | unbound, .accepted => some connected
  | binding, .bindDone ok => some (if ok then bound else unbound)
  | bound, .listen => some listenPending
  | bound, .connect => some connecting
  | listenPending, .listenDone ok => some (if ok then listening else bound)
  | connecting, .connectDone ok => some (if ok then connected else unbound)
  | _, _ => none

/-- A request's effect. A phase that does not admit it stays as it is. -/
def transition (p : Phase) (r : Request) : Transition :=
  match p.step? r with
  | none => ⟨p, p, .rejected⟩
  | some q => ⟨p, q, if q = p then .unchanged else .applied⟩

/-- The phase after a request. -/
def apply (p : Phase) (r : Request) : Phase := (p.transition r).after

def Transition.rejected (t : Transition) : Bool := t.verdict == .rejected

theorem rejected_transition (p : Phase) (r : Request) :
    (p.transition r).rejected = (p.step? r).isNone := by
  unfold transition
  cases h : p.step? r with
  | none => rfl
  | some q =>
    by_cases hq : q = p <;> simp [Transition.rejected, hq]

theorem apply_eq (p : Phase) (r : Request) : p.apply r = (p.step? r).getD p := by
  unfold apply transition
  cases p.step? r <;> rfl

theorem apply_close (p : Phase) : p.apply .close = closed := by
  cases p <;> rfl

/-- Nothing leads out of `closed`. -/
theorem apply_closed (r : Request) : closed.apply r = closed := by
  cases r <;> rfl

end Phase

/-- The operations that wait for a completion. -/
inductive Purpose where
  | bind
  | listen
deriving DecidableEq, Repr

/-- The request with which an operation begins. -/
def Purpose.request : Purpose → Phase.Request
  | .bind => .bind
  | .listen => .listen

/-- The request with which an operation ends. -/
def Purpose.done (ok : Bool) : Purpose → Phase.Request
  | .bind => .bindDone ok
  | .listen => .listenDone ok

/-- The phase while an operation is under way. -/
def Purpose.pending : Purpose → Phase
  | .bind => .binding
  | .listen => .listenPending

/-- The phase after an operation that went well. -/
def Purpose.goal : Purpose → Phase
  | .bind => .bound
  | .listen => .listening

/-- Taking back a request changes the phase wherever it is admitted. -/
theorem Phase.apply_done_false_iff (p : Phase) (purpose : Purpose) :
    p.apply (purpose.done false) = p ↔ p.step? (purpose.done false) = none := by
  cases p <;> cases purpose <;> decide

end WifiAdapter
