/-! Status words of the co-processor and the errors callers see.

The chip reports the fate of a command as a signed word (`Status`). Nothing of it
reaches an application: every word that is not success stands for one of
eleven causes (`Status.error?`). Requests on the link fail for causes of their
own (`LinkError`). -/
namespace WifiAdapter

/-- The signed word the chip answers with; zero is success. -/
structure Status where
  code : Int
deriving DecidableEq, Repr, Inhabited

/-- Why a socket operation failed. -/
inductive SocketError where
  | invalidArgument
  | familyNotSupported
  | protocolNotSupported
  | outOfResources
  | addressInUse
  | again
  | timedOut
  | connectionAborted
  | destinationRequired
  | addressNotAvailable
  | unknown
deriving DecidableEq, Repr, Inhabited

/-- Why a request on the link failed. -/
inductive LinkError where
  | invalidState
  | invalidCredentials
deriving DecidableEq, Repr, Inhabited

namespace SocketError

/-- Every cause, in the order in which they are documented. -/
def all : List SocketError :=
  [invalidArgument, familyNotSupported, protocolNotSupported, outOfResources, addressInUse, again,
    timedOut, connectionAborted, destinationRequired, addressNotAvailable, unknown]

/-- The word under which a cause is reported. -/
def label : SocketError → String
  | invalidArgument => "invalid_argument"
  | familyNotSupported => "af_not_supported"
  | protocolNotSupported => "proto_not_supported"
  | outOfResources => "out_of_resources"
  | addressInUse => "addr_in_use"
  | again => "again"
  | timedOut => "timed_out"
  | connectionAborted => "conn_aborted"
  | destinationRequired => "dest_addr_required"
  | addressNotAvailable => "addr_not_available"
  | unknown => "unknown"

end SocketError

namespace LinkError

/-- Every cause, in the order in which they are documented. -/
def all : List LinkError := [invalidState, invalidCredentials]

/-- The word under which a cause is reported. -/
def label : LinkError → String
  | invalidState => "invalid_state"
  | invalidCredentials => "invalid_credentials"

end LinkError

namespace Status

/-! ### Words with a meaning of their own -/

def success : Status := ⟨0⟩
def connectionAborted : Status := ⟨-12⟩
def timeout : Status := ⟨-13⟩
/-- The chip has no room for more outgoing data. -/
def bufferFull : Status := ⟨-14⟩

/-- The chip has no stream socket left. -/
def streamsExhausted : Status := ⟨-3⟩
/-- The chip has no datagram socket left. -/
def datagramsExhausted : Status := ⟨-4⟩

def isSuccess (s : Status) : Bool := s.code == 0

/-! ### Causes -/

/-- The cause a word stands for; none for success. A word without a meaning of its
own is `unknown`. -/
def error? (s : Status) : Option SocketError :=
  match s.code with
  | 0 => none
  | -1 | -6 | -9 => some .invalidArgument
  | -2 => some .addressInUse
  | -3 | -4 | -7 | -14 => some .outOfResources
  | -11 => some .destinationRequired
  | -12 => some .connectionAborted
  | -13 => some .timedOut
  | _ => some .unknown

/-- The cause of a refusal. A refusal that carries the success word has no known cause. -/
def refusal (s : Status) : SocketError := s.error?.getD .unknown

/-- The word as the result of a call. -/
def result (s : Status) : Except SocketError Unit :=
  match s.error? with
  | none => .ok ()
  | some e => .error e

@[simp] theorem error?_success : success.error? = none := rfl

theorem error?_eq_none_iff (s : Status) : s.error? = none ↔ s.code = 0 := by
  unfold error?
  split <;> simp_all

theorem isSuccess_iff (s : Status) : s.isSuccess = true ↔ s.error? = none := by
  rw [error?_eq_none_iff, isSuccess, beq_iff_eq]

theorem result_of_success {s : Status} (h : s.isSuccess = true) : s.result = .ok () := by
  unfold result
  rw [(isSuccess_iff s).mp h]

end Status

end WifiAdapter
