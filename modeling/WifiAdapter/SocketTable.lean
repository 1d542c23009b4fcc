import WifiAdapter.Bus
import WifiAdapter.Chain
import WifiAdapter.Lifecycle
import WifiAdapter.Packet

/-! The table of sockets: one slot per handle.

A slot is free or holds a record. Opening a slot raises its generation, so a
generation read while the slot was open names that occupancy and, until the counter
has gone all the way round, no later one (`Incarnation`, `SocketTable.isCurrent`). -/
namespace WifiAdapter

/-- What the adapter knows of an open socket. -/
structure SocketRecord where
  kind : SocketKind
  /-- The other end, once there is one. -/
  peer? : Option Endpoint
  /-- Some caller waits for a bind or a listen to complete. -/
  waiting : Bool
  /-- The socket wants data. -/
  poll : Bool
  /-- The other end has closed, or receiving has failed. -/
  peerClosed : Bool
  /-- Packets received and not yet read, oldest first. -/
  inbound : List Packet
  /-- What is left of a send the chip had no room for. -/
  pendingTx? : Option Chain
  phase : Phase
deriving DecidableEq

namespace SocketRecord

def new (kind : SocketKind) : SocketRecord :=
  { kind, peer? := none, waiting := false, poll := false, peerClosed := false, inbound := [],
    pendingTx? := none, phase := .unbound }

/-- The record of a connection that `peer` opened. -/
def accepted (kind : SocketKind) (peer : Endpoint) : SocketRecord :=
  { new kind with peer? := some peer, poll := true, phase := Phase.unbound.apply .accepted }

/-- Whether the chip should be asked for data on this socket. A stream carries data
only while it is connected. -/
def awaitingData (r : SocketRecord) : Bool :=
  r.poll && !r.peerClosed &&
    match r.kind with
    | .datagram => true
    | .stream => r.phase == .connected

/-- The record after a request, whether admitted or not. -/
def apply (r : SocketRecord) (request : Phase.Request) : SocketRecord :=
  { r with phase := r.phase.apply request }

/-- The other end as reported to callers: all zero as long as there is none. -/
def peerName (r : SocketRecord) : Endpoint := r.peer?.getD .unspecified

end SocketRecord

/-- A place for a socket, with the number of times it was opened. -/
structure Slot where
  generation : UInt32
  record? : Option SocketRecord
deriving DecidableEq

def Slot.free : Slot := ⟨0, none⟩

/-- A slot per handle. -/
structure SocketTable where
  slots : Slots Slot
deriving DecidableEq

namespace SocketTable

def empty : SocketTable := ⟨.fill .free⟩

/-! ### Looking -/

def get? (t : SocketTable) (h : Handle) : Option SocketRecord := (t.slots.get h).record?

/-- The record of an open socket. Callers who name a free slot are told so. -/
def get (t : SocketTable) (h : Handle) : Except SocketError SocketRecord :=
  match t.get? h with
  | some r => .ok r
  | none => .error .invalidArgument

def isOpen (t : SocketTable) (h : Handle) : Bool := (t.get? h).isSome

/-- The kind of an open socket. -/
def kind? (t : SocketTable) (h : Handle) : Option SocketKind := (t.get? h).map (·.kind)

def generation (t : SocketTable) (h : Handle) : UInt32 := (t.slots.get h).generation

/-- The latest occupancy of a slot. -/
def incarnation (t : SocketTable) (h : Handle) : Incarnation := ⟨h, t.generation h⟩

/-- Whether an occupancy is the present one. -/
def isCurrent (t : SocketTable) (i : Incarnation) : Bool :=
  t.isOpen i.handle && t.generation i.handle == i.generation

/-- Whether the socket is open and wants data. -/
def awaits (t : SocketTable) (h : Handle) : Bool :=
  match t.get? h with
  | some r => r.awaitingData
  | none => false

/-- The first socket at or after `start` that wants data. -/
def nextAwaiting (t : SocketTable) (start : Nat) : Option Handle :=
  (Handle.startingAt start).find? t.awaits

/-- The open sockets with their records, ascending. -/
def sockets (t : SocketTable) : List (Handle × SocketRecord) :=
  Handle.all.filterMap fun h => (t.get? h).map fun r => (h, r)

/-! ### Changing -/

/-- Changes the record of an open socket; a free slot stays as it is. -/
def modify (t : SocketTable) (h : Handle) (f : SocketRecord → SocketRecord) : SocketTable :=
  ⟨t.slots.set h { t.slots.get h with record? := (t.get? h).map f }⟩

/-- Puts a record into a slot, as a new occupancy. -/
def occupy (t : SocketTable) (h : Handle) (r : SocketRecord) : SocketTable :=
  ⟨t.slots.set h ⟨t.generation h + 1, some r⟩⟩

/-- Opens a socket on a handle obtained from the chip. -/
def allocate {σ : Type} [Chip σ] (t : SocketTable) (bus : Bus σ) (kind : SocketKind) :
    Except SocketError Handle × SocketTable × Bus σ :=
  match bus.openSocket kind with
  | (.refused _, bus) => (.error .outOfResources, t, bus)
  | (.accepted h, bus) =>
    if t.isOpen h then (.error .outOfResources, t, bus)
    else (.ok h, t.occupy h (.new kind), bus)

/-- Registers a connection that the chip accepted. -/
def adopt (t : SocketTable) (h : Handle) (kind : SocketKind) (peer : Endpoint) :
    Except SocketError SocketTable :=
  if t.isOpen h then .error .addressInUse else .ok (t.occupy h (.accepted kind peer))

/-- What remains of a record when its slot is freed. -/
def retired (r : SocketRecord) : SocketRecord :=
  { r.apply .close with inbound := [], pendingTx? := none }

/-- Frees a slot. The packets queued in it go back to the pool. -/
def release (t : SocketTable) (pool : Pool) (h : Handle) :
    Option SocketRecord × SocketTable × Pool :=
  match t.get? h with
  | none => (none, t, pool)
  | some r =>
    (some (retired r), ⟨t.slots.set h { t.slots.get h with record? := none }⟩,
      pool.giveBack r.inbound.length)

/-! ### What each change does to a look -/

theorem get?_modify (t : SocketTable) (h k : Handle) (f : SocketRecord → SocketRecord) :
    (t.modify h f).get? k = if h = k then (t.get? k).map f else t.get? k := by
  unfold modify get?
  rw [Slots.get_set]
  split
  · next e =>
    subst e
    rfl
  · rfl

theorem get?_modify_self {t : SocketTable} {h : Handle} {f : SocketRecord → SocketRecord}
    {r : SocketRecord} (hr : t.get? h = some r) : (t.modify h f).get? h = some (f r) := by
  rw [get?_modify, if_pos rfl, hr]
  rfl

theorem get?_modify_of_ne {t : SocketTable} {h k : Handle} {f : SocketRecord → SocketRecord}
    (hne : h ≠ k) : (t.modify h f).get? k = t.get? k := by
  rw [get?_modify, if_neg hne]

@[simp] theorem generation_modify (t : SocketTable) (h k : Handle)
    (f : SocketRecord → SocketRecord) : (t.modify h f).generation k = t.generation k := by
  unfold modify generation
  rw [Slots.get_set]
  split
  · next e =>
    subst e
    rfl
  · rfl

@[simp] theorem incarnation_modify (t : SocketTable) (h k : Handle)
    (f : SocketRecord → SocketRecord) : (t.modify h f).incarnation k = t.incarnation k := by
  unfold incarnation
  rw [generation_modify]

@[simp] theorem isOpen_modify (t : SocketTable) (h k : Handle) (f : SocketRecord → SocketRecord) :
    (t.modify h f).isOpen k = t.isOpen k := by
  unfold isOpen
  rw [get?_modify]
  split <;> simp

@[simp] theorem isCurrent_modify (t : SocketTable) (h : Handle) (f : SocketRecord → SocketRecord)
    (i : Incarnation) : (t.modify h f).isCurrent i = t.isCurrent i := by
  simp [isCurrent]

/-- A change of a record that is undone leaves no trace. -/
theorem modify_undone {t : SocketTable} {h : Handle} {f g : SocketRecord → SocketRecord}
    (hundone : ∀ r, t.get? h = some r → g (f r) = r) : (t.modify h f).modify h g = t := by
  refine congrArg SocketTable.mk (Slots.ext fun k => ?_)
  by_cases hk : h = k
  · subst hk
    rw [Slots.get_set_self, get?_modify, if_pos rfl, Option.map_map]
    have hrecord : (t.get? h).map (g ∘ f) = t.get? h := by
      cases hr : t.get? h with
      | none => rfl
      | some r => exact congrArg some (hundone r hr)
    rw [hrecord]
    unfold modify
    rw [Slots.get_set_self]
    rfl
  · rw [Slots.get_set_of_ne _ _ hk]
    exact Slots.get_set_of_ne _ _ hk

theorem get?_occupy (t : SocketTable) (h k : Handle) (r : SocketRecord) :
    (t.occupy h r).get? k = if h = k then some r else t.get? k := by
  unfold occupy get?
  rw [Slots.get_set]
  split <;> rfl

theorem isOpen_occupy (t : SocketTable) (h k : Handle) (r : SocketRecord) :
    (t.occupy h r).isOpen k = if h = k then true else t.isOpen k := by
  unfold isOpen
  rw [get?_occupy]
  split <;> rfl

theorem generation_occupy (t : SocketTable) (h k : Handle) (r : SocketRecord) :
    (t.occupy h r).generation k = if h = k then t.generation k + 1 else t.generation k := by
  unfold occupy generation
  rw [Slots.get_set]
  split
  · next e => simp [e]
  · rfl

theorem get?_release (t : SocketTable) (pool : Pool) (h k : Handle) :
    (t.release pool h).2.1.get? k = if h = k then none else t.get? k := by
  unfold release
  split
  · next hn =>
    split
    · next e => rw [← e, hn]
    · rfl
  · unfold get?
    rw [Slots.get_set]
    split <;> rfl

theorem isOpen_release (t : SocketTable) (pool : Pool) (h k : Handle) :
    (t.release pool h).2.1.isOpen k = if h = k then false else t.isOpen k := by
  unfold isOpen
  rw [get?_release]
  split <;> rfl

@[simp] theorem generation_release (t : SocketTable) (pool : Pool) (h k : Handle) :
    (t.release pool h).2.1.generation k = t.generation k := by
  unfold release
  split
  · rfl
  · unfold generation
    rw [Slots.get_set]
    split
    · next e => rw [e]
    · rfl

end SocketTable

end WifiAdapter
