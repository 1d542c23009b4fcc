import WifiAdapter.Status
import WifiAdapter.Address
import WifiAdapter.Handle

/-! The co-processor as the adapter sees it.

Commands are answered at once, and the answer says only whether the chip took the
command; what became of it arrives later as a `Notification`. A chip is any state
that can answer commands and hand out notifications (`Chip`): the adapter is the
same over all of them. -/
namespace WifiAdapter

/-! ### Networks -/

/-- The longest network name, in bytes. -/
def maxSsid : Nat := 32

/-- The longest network key, in bytes. -/
def maxKey : Nat := 64

inductive ScanRegion where
  | northAmerica
  | europe
  | asia
deriving DecidableEq, Repr, Inhabited

def ScanRegion.label : ScanRegion → String
  | .northAmerica => "NorthAmerica"
  | .europe => "Europe"
  | .asia => "Asia"

/-- How a network admits its members. -/
inductive AuthType where
  | openNetwork
  | wpaPsk
  | wep
  | enterprise
deriving DecidableEq, Repr, Inhabited

def AuthType.label : AuthType → String
  | .openNetwork => "Open"
  | .wpaPsk => "WpaPsk"
  | .wep => "Wep"
  | .enterprise => "Enterprise"

/-- One network found by a scan. -/
structure AccessPoint where
  ssid : String
  bssid : Bytes
  rssi : Int
  auth : AuthType
  channel : UInt8
deriving DecidableEq, Repr, Inhabited

/-- The address the network gave the adapter, with the length of its network part. -/
structure InterfaceAddress where
  ip : Ipv4
  networkLength : UInt8
deriving DecidableEq, Repr, Inhabited

/-! ### Commands -/

/-- A command to the chip, other than the request for a new socket. -/
inductive Command where
  | bind (h : Handle) (address : NativeAddr)
  | listen (h : Handle) (backlog : UInt8)
  | connect (h : Handle) (address : NativeAddr)
  | send (h : Handle) (data : Bytes)
  | sendTo (h : Handle) (data : Bytes) (address : NativeAddr)
  /-- Asks for up to `room` bytes. -/
  | receive (h : Handle) (room timeout : Nat)
  | close (h : Handle)
  | multicast (h : Handle) (group : Ipv4) (join : Bool)
  /-- Stops or resumes the delivery of inbound data. -/
  | flow (paused : Bool)
  | init
  | deinit
  | scanRegion (region : ScanRegion)
  | scan
  | scanResult (index : Nat)
  | associate (ssid : String) (auth : AuthType) (key : String)
  | disassociate
deriving DecidableEq, Repr

/-- Whether the chip took a command; a taken request for a socket comes with a handle. -/
inductive Answer (α : Type) where
  | accepted (value : α)
  | refused (status : Status)
deriving DecidableEq, Repr

/-! ### Notifications -/

/-- What a receive brought: the delivered length or a negative word, the number of
bytes the chip still holds, the sender and the bytes. -/
structure Delivery where
  length : Int
  remaining : Nat
  sender : NativeAddr
  data : Bytes
deriving DecidableEq, Repr

inductive SocketMessage where
  | bound (status : Status)
  | listening (status : Status)
  | accepted (child : Answer Handle) (peer : NativeAddr)
  | connected (status : Status)
  | received (delivery : Delivery)
  /-- A byte count, or a negative word. -/
  | sent (status : Status)
  | sentTo (status : Status)
deriving DecidableEq, Repr

inductive RadioMessage where
  | scanDone (status : Status) (found : Nat)
  | scanResult (found : AccessPoint)
  | association (connected : Bool) (reason : UInt8)
  | addressAssigned (address : InterfaceAddress)
deriving DecidableEq, Repr

inductive Notification where
  | socket (h : Handle) (message : SocketMessage)
  | radio (message : RadioMessage)
deriving DecidableEq, Repr

/-- What a delivery means for its socket. -/
inductive Delivery.Outcome where
  | noData
  | data (remaining : Nat)
  | closed
  | failed (status : Status)
deriving DecidableEq, Repr

/-- A timeout is no data, a positive length is data, zero is the end of the stream
and every other negative length is a failure. -/
def Delivery.outcome (d : Delivery) : Outcome :=
  if d.length = Status.timeout.code then .noData
  else if 0 < d.length then .data d.remaining
  else if d.length = 0 then .closed
  else .failed ⟨d.length⟩

/-- The delivered bytes: no more than the length says, no more than there are. -/
def Delivery.payload (d : Delivery) : Bytes := d.data.take d.length.natAbs

/-! ### The chip -/

/-- A state that answers commands and hands out notifications. Closing, flow control
and `deinit` always happen: their answer is not looked at. -/
class Chip (σ : Type) where
  /-- Asks for a new socket. -/
  openSocket : SocketKind → σ → Answer Handle × σ
  /-- Gives any other command. -/
  execute : Command → σ → Answer Unit × σ
  /-- Takes the oldest notification already pulled in. -/
  poll : σ → Option (Notification × σ)

end WifiAdapter
