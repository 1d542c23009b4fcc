import WifiAdapter.Bus
import WifiAdapter.Config
import WifiAdapter.Queue

/-! The state of the wireless link.

The link is in one of six states and has a target among the same six. Requests and
notifications only ever set the target; the state follows by settling
(`WifiAdapter.Link.Settling`). -/
namespace WifiAdapter

inductive LinkState where
  | stopped
  | initializing
  | scanning
  | connecting
  | addressPending
  | connected
deriving DecidableEq, Repr, Inhabited

def LinkState.all : List LinkState :=
  [.stopped, .initializing, .scanning, .connecting, .addressPending, .connected]

def LinkState.label : LinkState → String
  | .stopped => "Stopped"
  | .initializing => "Initializing"
  | .scanning => "Scanning"
  | .connecting => "Connecting"
  | .addressPending => "AddressPending"
  | .connected => "Connected"

/-- The most networks a scan keeps. -/
def maxScanResults : Nat := 20

/-- Link events held for the adapter to fetch. -/
def linkEventCapacity : Nat := 4

/-- A network to join. -/
structure Network where
  ssid : String
  key : String
deriving DecidableEq, Repr

/-- A name of 1 to 32 bytes and a key of at most 64. -/
def Network.of? (ssid key : String) : Option Network :=
  if ssid.isEmpty ∨ maxSsid < ssid.utf8ByteSize ∨ maxKey < key.utf8ByteSize then none
  else some ⟨ssid, key⟩

/-- What an adapter's settings say about the link. -/
structure LinkPolicy where
  region : ScanRegion
  /-- How long to wait before the next attempt. -/
  backoff : Nat
  /-- Whether a lost link is sought again without being asked. -/
  reconnect : Bool
deriving DecidableEq, Repr

def Config.linkPolicy (c : Config) : LinkPolicy := ⟨c.scanRegion, c.rescanBackoff, c.autoReconnect⟩

/-- What is shown of a link. -/
structure LinkStatus where
  state : LinkState
  target : LinkState
  address? : Option InterfaceAddress
  armed : Bool
deriving DecidableEq, Repr

structure Link where
  state : LinkState
  target : LinkState
  /-- The network recorded by the latest join. -/
  network? : Option Network
  /-- The networks found by the latest scan. -/
  found : Queue maxScanResults AccessPoint
  /-- How many results the scan in progress announced, as far as they are fetched. -/
  expected : Nat
  /-- How many results have come in. -/
  fetched : Nat
  address? : Option InterfaceAddress
  /-- The radio is up, so the chip may have notifications. -/
  armed : Bool
  /-- When the next attempt is due. -/
  retryAt? : Option Nat
  policy : LinkPolicy
  events : Queue linkEventCapacity LinkEvent
deriving DecidableEq

namespace Link

def new (policy : LinkPolicy) : Link :=
  { state := .stopped, target := .stopped, network? := none, found := .empty, expected := 0,
    fetched := 0, address? := none, armed := false, retryAt? := none, policy, events := .empty }

def status (l : Link) : LinkStatus := ⟨l.state, l.target, l.address?, l.armed⟩

/-- The first network found that has the recorded name. -/
def wanted? (l : Link) : Option AccessPoint :=
  l.network?.bind fun network => l.found.items.find? fun ap => ap.ssid == network.ssid

/-- Ready and not on the way elsewhere. -/
def idle (l : Link) : Bool := l.state == .initializing && l.target == .initializing

def aim (l : Link) (target : LinkState) : Link := { l with target }

def enter (l : Link) (state : LinkState) : Link := { l with state }

/-- Stays where it is. -/
def giveUp (l : Link) : Link := { l with target := l.state }

def scheduleRetry (l : Link) (now : Nat) : Link :=
  { l with retryAt? := some (now + l.policy.backoff) }

/-- Schedules a retry if there is a network to retry. -/
def retryIfWanted (l : Link) (now : Nat) : Link :=
  if l.network?.isSome then l.scheduleRetry now else l

/-- Holds an event for the adapter. An event too many is lost. -/
def report (l : Link) (e : LinkEvent) : Link :=
  { l with events := (l.events.push? e).getD l.events }

/-- Gives up the address, and says so if there was one. -/
def dropAddress (l : Link) : Link :=
  match l.address? with
  | none => l
  | some _ => { l with address? := none }.report .down

/-- Takes the oldest event. -/
def takeEvent (l : Link) : Option LinkEvent × Link :=
  match l.events.pop? with
  | none => (none, l)
  | some (e, events) => (some e, { l with events })

end Link

end WifiAdapter
