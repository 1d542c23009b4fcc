import WifiAdapter.Adapter.Sockets
import WifiAdapter.Interface

/-! The adapter as a whole: handling notifications, the periodic tick, and the link.

Operations take the time as an argument; the adapter has no clock of its own. -/
namespace WifiAdapter.Adapter
variable {σ : Type}

/-- The most notifications one tick takes from the chip. -/
def tickDrainMax : Nat := 16

/-! ### The link -/

/-- Moves the events of the link to the queue of the application. -/
def flushLinkEvents (a : Adapter σ) : Adapter σ :=
  a.link.events.items.foldl (fun a e => a.announce (.link e))
    { a with link := { a.link with events := .empty } }

/-- Does something to the link over the adapter's bus, and passes its events on. -/
def withStation {α : Type} (a : Adapter σ) (f : Station σ → α × Station σ) : α × Adapter σ :=
  let (result, s) := f ⟨a.link, a.bus⟩
  (result, { a with link := s.link, bus := s.bus }.flushLinkEvents)

/-- Asks the worker to look at the link soon. -/
def kick (a : Adapter σ) : Adapter σ := { a with kicked := true }

def interface (a : Adapter σ) (position : Nat) : Except SocketError Interface :=
  Interface.at? position a.link.address?

def interfaceAddress (a : Adapter σ) (index position : Nat) : Except SocketError InterfaceAddress :=
  Interface.address index position a.link.address?

variable [Chip σ]

/-- Makes a request on the link. The worker is kicked whatever comes of it. -/
def request (a : Adapter σ) (f : Station σ → Except LinkError Unit × Station σ) :
    Except LinkError Unit × Adapter σ :=
  let (result, a) := a.withStation f
  (result, a.kick)

def start (a : Adapter σ) (now : Nat) : Except LinkError Unit × Adapter σ :=
  a.request (·.start now)

def join (a : Adapter σ) (now : Nat) (ssid key : String) : Except LinkError Unit × Adapter σ :=
  a.request (·.join now ssid key)

def scan (a : Adapter σ) (now : Nat) : Except LinkError Unit × Adapter σ :=
  a.request (·.scan now)

/-- Takes the link down. The worker need not know. -/
def stop (a : Adapter σ) (now : Nat) : Adapter σ :=
  (a.withStation fun s => ((), s.stop now)).2

/-! ### Notifications -/

def onNotification (a : Adapter σ) (now : Nat) : Notification → Adapter σ
  | .socket h m => a.onSocket h m
  | .radio m => (a.withStation fun s => ((), s.onRadio now m)).2

/-- Handles a notification, entering it in the journal. -/
def handle (a : Adapter σ) (now : Nat) (note : Notification) : Adapter σ :=
  (a.enter (.handled note a.rx.expecting?)).onNotification now note

/-- Handles up to so many of the notifications that the chip holds. -/
def drainChip (now : Nat) : Nat → Adapter σ → Adapter σ
  | 0, a => a
  | n + 1, a =>
    match a.bus.poll with
    | none => a
    | some (note, bus) => drainChip now n ({ a with bus }.handle now note)

/-! ### The tick -/

/-- One round of service: what the chip holds is handled if its radio is up, the link
makes the attempt that is due, and receiving starts again if it had stopped. -/
def tick (a : Adapter σ) (now : Nat) : Adapter σ :=
  let a := if a.link.armed then a.drainChip now tickDrainMax else a
  let a := (a.withStation fun s => ((), s.tick now)).2
  a.pollIdle

end WifiAdapter.Adapter
