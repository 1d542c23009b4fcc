import WifiAdapter.Address.Text

/-! Inbound packets and the pool they are leased from.

The pool is a number of leases. Each packet alive holds one; dropping a packet
gives its lease back. When no lease is left nothing more can be received, and that
is what drives flow control. -/
namespace WifiAdapter

/-- A packet being filled or waiting to be read. `source?` is the sender of a datagram. -/
structure Packet where
  data : Bytes
  capacity : Nat
  source? : Option Endpoint
deriving DecidableEq, Repr, Inhabited

namespace Packet

def new (capacity : Nat) : Packet := ⟨[], capacity, none⟩

def isEmpty (p : Packet) : Bool := p.data.isEmpty

/-- How many more bytes fit. -/
def room (p : Packet) : Nat := p.capacity - p.data.length

/-- Adds as many bytes as fit. -/
def append (p : Packet) (bytes : Bytes) : Packet := { p with data := p.data ++ bytes.take p.room }

def stamp (p : Packet) (source : Endpoint) : Packet := { p with source? := some source }

/-- The packet without its bytes and its sender. -/
def reset (p : Packet) : Packet := { p with data := [], source? := none }

/-- A one-line description: sizes and sender, not the bytes. -/
def describe (p : Packet) : String :=
  let source := match p.source? with
    | none => "None"
    | some e => "Some(" ++ e.text ++ ")"
  "Packet \x7b len: " ++ toString p.data.length ++ ", capacity: " ++ toString p.capacity
    ++ ", source: " ++ source ++ " \x7d"

theorem length_append (p : Packet) (bytes : Bytes) :
    (p.append bytes).data.length = p.data.length + min p.room bytes.length := by
  simp [append]

theorem room_append (p : Packet) (bytes : Bytes) :
    (p.append bytes).room = p.room - bytes.length := by
  simp only [room, append, List.length_append, List.length_take]
  omega

@[simp] theorem room_reset (p : Packet) : p.reset.room = p.capacity := by simp [room, reset]

end Packet

/-- Leases that no packet holds. -/
structure Pool where
  available : Nat
deriving DecidableEq, Repr, Inhabited

namespace Pool

/-- Takes a lease for a new packet, if one is left. -/
def lease? (p : Pool) (capacity : Nat) : Option (Packet × Pool) :=
  match p.available with
  | 0 => none
  | n + 1 => some (.new capacity, ⟨n⟩)

/-- Takes back the leases of dropped packets. -/
def giveBack (p : Pool) (leases : Nat) : Pool := ⟨p.available + leases⟩

theorem available_lease? {p q : Pool} {capacity : Nat} {packet : Packet}
    (h : p.lease? capacity = some (packet, q)) :
    packet = .new capacity ∧ p.available = q.available + 1 := by
  obtain ⟨n⟩ := p
  cases n with
  | zero => cases h
  | succ n =>
    cases h
    exact ⟨rfl, rfl⟩

theorem lease?_eq_none_iff (p : Pool) (capacity : Nat) :
    p.lease? capacity = none ↔ p.available = 0 := by
  obtain ⟨n⟩ := p
  cases n <;> simp [lease?]

end Pool

end WifiAdapter
