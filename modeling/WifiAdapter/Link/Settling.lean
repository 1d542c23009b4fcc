import WifiAdapter.Link.Basic

/-! How the link follows its target, and what moves the target.

`Station.step` makes one move towards the target, or changes the target when the
move is impossible or the radio refuses it; `Station.converge` repeats it until
state and target agree. Every request and every radio message ends by converging. -/
namespace WifiAdapter

/-- A link and the bus that leads to its radio. -/
structure Station (σ : Type) where
  link : Link
  bus : Bus σ
deriving DecidableEq

namespace Station
variable {σ : Type}

/-- Changes the link alone. -/
def onLink (s : Station σ) (f : Link → Link) : Station σ := { s with link := f s.link }

variable [Chip σ]

def issue (s : Station σ) (c : Command) : Answer Unit × Station σ :=
  let (answer, bus) := s.bus.issue c
  (answer, { s with bus })

def order (s : Station σ) (c : Command) : Station σ := { s with bus := s.bus.order c }

/-! ### Moves -/

/-- Takes the radio down, leaving a network first if the link is on one. -/
def powerDown (s : Station σ) : Station σ :=
  let leaving := match s.link.state with
    | .connecting | .addressPending | .connected => true
    | _ => false
  let s := if leaving then s.order .disassociate else s
  (s.order .deinit).onLink fun l =>
    { l.dropAddress with armed := false, retryAt? := none }.enter .stopped

/-- Brings the radio up. -/
def powerUp (s : Station σ) : Station σ :=
  match s.issue .init with
  | (.accepted _, s) => s.onLink fun l => { l with armed := true }.enter .initializing
  | (.refused status, s) => s.onLink fun l => (l.aim .stopped).report (.radioInitFailed status)

/-- Returns to readiness: from `stopped` by bringing the radio up, from elsewhere at once. -/
def settleIdle (s : Station σ) : Station σ :=
  if s.link.state = .stopped then s.powerUp
  else s.onLink fun l => l.dropAddress.enter .initializing

/-- Returns to readiness because the radio would not scan. -/
def scanRefused (now : Nat) (l : Link) : Link := (l.aim .initializing).retryIfWanted now

/-- Asks for a scan of the configured region. -/
def beginScan (s : Station σ) (now : Nat) : Station σ :=
  if s.link.state ≠ .initializing then s.onLink .giveUp
  else
    match s.issue (.scanRegion s.link.policy.region) with
    | (.refused _, s) => s.onLink (scanRefused now)
    | (.accepted _, s) =>
      match s.issue .scan with
      | (.refused _, s) => s.onLink (scanRefused now)
      | (.accepted _, s) => s.onLink fun l => { l with found := .empty }.enter .scanning

/-- Joins the recorded network if the latest scan found it, and scans for it if not. -/
def beginConnecting (s : Station σ) : Station σ :=
  if s.link.state ≠ .initializing ∧ s.link.state ≠ .scanning then s.onLink .giveUp
  else
    match s.link.network?, s.link.wanted? with
    | some network, some ap =>
      match s.issue (.associate network.ssid ap.auth network.key) with
      | (.accepted _, s) => s.onLink (·.enter .connecting)
      | (.refused _, s) => s.onLink (·.aim .stopped)
    | _, _ => s.onLink (·.aim .scanning)

/-- One move towards the target. -/
def step (now : Nat) (s : Station σ) : Station σ :=
  match s.link.target with
  | .stopped => s.powerDown
  | .initializing => s.settleIdle
  | .scanning => s.beginScan now
  | .connecting => s.beginConnecting
  | .addressPending =>
    if s.link.state = .connecting then s.onLink (·.enter .addressPending) else s.onLink .giveUp
  | .connected =>
    match s.link.state, s.link.address? with
    | .addressPending, some address => s.onLink fun l => (l.enter .connected).report (.up address)
    | _, _ => s.onLink .giveUp

/-- At most `moves` moves. A link that has not settled by then stays where it is. -/
def convergeWithin (now : Nat) : Nat → Station σ → Station σ
  | 0, s => if s.link.state = s.link.target then s else s.onLink .giveUp
  | moves + 1, s =>
    if s.link.state = s.link.target then s else convergeWithin now moves (s.step now)

/-- Moves until state and target agree. -/
def converge (now : Nat) (s : Station σ) : Station σ := s.convergeWithin now 8

/-! ### Requests -/

/-- Brings the radio up. Possible only while everything is down. -/
def start (now : Nat) (s : Station σ) : Except LinkError Unit × Station σ :=
  if s.link.state = .stopped ∧ s.link.target = .stopped then
    (.ok (), (s.onLink (·.aim .initializing)).converge now)
  else (.error .invalidState, s)

/-- Takes everything down. Always possible. -/
def stop (now : Nat) (s : Station σ) : Station σ := (s.onLink (·.aim .stopped)).converge now

/-- Records the network to join. An idle link starts at once; any other picks the
network up with its next attempt. -/
def join (now : Nat) (ssid key : String) (s : Station σ) : Except LinkError Unit × Station σ :=
  match Network.of? ssid key with
  | none => (.error .invalidCredentials, s)
  | some network =>
    let s := s.onLink fun l => { l with network? := some network, retryAt? := none }
    (.ok (), if s.link.idle then (s.onLink (·.aim .connecting)).converge now else s)

/-- Scans for networks. Possible only while ready. -/
def scan (now : Nat) (s : Station σ) : Except LinkError Unit × Station σ :=
  if s.link.state = .initializing then
    (.ok (), (s.onLink (·.aim .scanning)).converge now)
  else (.error .invalidState, s)

/-- Starts the attempt that is due, if the link is idle. -/
def tick (now : Nat) (s : Station σ) : Station σ :=
  let due := match s.link.retryAt? with
    | none => false
    | some time => time ≤ now
  let s :=
    if s.link.idle && due && s.link.network?.isSome then
      s.onLink fun l => { l with retryAt? := none }.aim .connecting
    else s
  s.converge now

/-! ### Radio messages -/

/-- The end of a scan: on to the recorded network if it was found, else back to readiness. -/
def completeScan (now : Nat) (l : Link) : Link :=
  let l := { l with expected := 0 }
  if l.wanted?.isSome then l.aim .connecting else (l.aim .initializing).retryIfWanted now

/-- Asks for the next scan result. -/
def fetchResult (now : Nat) (s : Station σ) : Station σ :=
  match s.issue (.scanResult s.link.fetched) with
  | (.accepted _, s) => s
  | (.refused _, s) => s.onLink (completeScan now)

def onScanDone (now : Nat) (status : Status) (found : Nat) (s : Station σ) : Station σ :=
  if s.link.state ≠ .scanning then s
  else if !status.isSuccess || found == 0 then s.onLink (completeScan now)
  else
    let s := s.onLink fun l => { l with expected := min found maxScanResults, fetched := 0 }
    s.fetchResult now

/-- A network too many is dropped. -/
def onScanResult (now : Nat) (ap : AccessPoint) (s : Station σ) : Station σ :=
  if s.link.state ≠ .scanning then s
  else
    let s := s.onLink fun l =>
      { l with found := (l.found.push? ap).getD l.found, fetched := l.fetched + 1 }
    if s.link.fetched < s.link.expected then s.fetchResult now else s.onLink (completeScan now)

/-- The network took the adapter in, turned it away, or was lost. -/
def onAssociation (now : Nat) (connected : Bool) (l : Link) : Link :=
  match l.state, connected with
  | .connecting, true => l.aim .addressPending
  | .connecting, false => (l.aim .initializing).scheduleRetry now
  | .addressPending, false | .connected, false =>
    let l := ({ l with address? := none }.report .down).aim .initializing
    if l.policy.reconnect then l.scheduleRetry now else l
  | _, _ => l

/-- The network assigned an address. It counts only while one is awaited. -/
def onAddress (address : InterfaceAddress) (l : Link) : Link :=
  if l.state = .addressPending then { l with address? := some address }.aim .connected else l

def onRadio (now : Nat) (m : RadioMessage) (s : Station σ) : Station σ :=
  let s := match m with
    | .scanDone status found => s.onScanDone now status found
    | .scanResult ap => s.onScanResult now ap
    | .association connected _ => s.onLink (onAssociation now connected)
    | .addressAssigned address => s.onLink (onAddress address)
  s.converge now

/-! ### Runs -/

/-- Everything that can happen to a link. -/
inductive Action where
  | start
  | stop
  | join (ssid key : String)
  | scan
  | tick
  | radio (message : RadioMessage)
deriving DecidableEq, Repr

/-- Whether a request was taken; what is no request always is. -/
def perform (now : Nat) (a : Action) (s : Station σ) : Except LinkError Unit × Station σ :=
  match a with
  | .start => s.start now
  | .stop => (.ok (), s.stop now)
  | .join ssid key => s.join now ssid key
  | .scan => s.scan now
  | .tick => (.ok (), s.tick now)
  | .radio m => (.ok (), s.onRadio now m)

/-- A history of actions, each with its time. -/
def run (s : Station σ) : List (Nat × Action) → Station σ
  | [] => s
  | (now, a) :: rest => run (s.perform now a).2 rest

theorem run_append (s : Station σ) (a b : List (Nat × Action)) :
    run s (a ++ b) = run (run s a) b := by
  induction a generalizing s with
  | nil => rfl
  | cons x rest ih => exact ih _

end Station

end WifiAdapter
