/-! Sockets of the chip: their kinds, their handles, and cells kept per handle.

The chip has seven stream and four datagram sockets. A handle is a number below
eleven and doubles as the index of everything the adapter keeps per socket
(`Slots`). A slot is used again after a close; `Incarnation` tells its occupants
apart. -/
namespace WifiAdapter

def streamSockets : Nat := 7
def datagramSockets : Nat := 4
abbrev maxSockets : Nat := 11

theorem maxSockets_eq : maxSockets = streamSockets + datagramSockets := rfl

/-- A socket of the chip. -/
abbrev Handle := Fin maxSockets

/-- One occupancy of a slot: the handle and the generation at which it was opened. -/
structure Incarnation where
  handle : Handle
  generation : UInt32
deriving DecidableEq, Repr

inductive SocketKind where
  | stream
  | datagram
deriving DecidableEq, Repr, Inhabited

def SocketKind.all : List SocketKind := [.stream, .datagram]

def SocketKind.label : SocketKind → String
  | .stream => "stream"
  | .datagram => "dgram"

namespace Handle

def ofNat? (n : Nat) : Option Handle := if h : n < maxSockets then some ⟨n, h⟩ else none

/-- The handles from `start` on, ascending. -/
def startingAt (start : Nat) : List Handle := (List.finRange maxSockets).drop start

/-- Every handle, ascending. -/
def all : List Handle := startingAt 0

/-- The handles of one kind of socket, ascending: streams first, then datagrams. -/
def ofKind : SocketKind → List Handle
  | .stream => all.take streamSockets
  | .datagram => startingAt streamSockets

theorem mem_startingAt {start : Nat} {h : Handle} : h ∈ startingAt start ↔ start ≤ h.val := by
  simp only [startingAt, List.mem_drop_iff_getElem, List.length_finRange, List.getElem_finRange]
  constructor
  · rintro ⟨i, hi, rfl⟩
    simp
  · intro hle
    exact ⟨h.val - start, by omega, by ext; simp; omega⟩

theorem mem_all (h : Handle) : h ∈ all := mem_startingAt.mpr (Nat.zero_le _)

end Handle

/-- A value per handle. -/
structure Slots (α : Type) where
  cells : Vector α maxSockets
deriving DecidableEq

namespace Slots
variable {α : Type}

/-- The same value everywhere. -/
def fill (x : α) : Slots α := ⟨Vector.replicate maxSockets x⟩

def get (s : Slots α) (h : Handle) : α := s.cells[h.val]

def set (s : Slots α) (h : Handle) (x : α) : Slots α := ⟨s.cells.set h.val x h.isLt⟩

@[simp] theorem get_fill (x : α) (h : Handle) : (fill x).get h = x := by simp [fill, get]

theorem get_set (s : Slots α) (h k : Handle) (x : α) :
    (s.set h x).get k = if h = k then x else s.get k := by
  simp only [get, set, Vector.getElem_set, Fin.ext_iff]

@[simp] theorem get_set_self (s : Slots α) (h : Handle) (x : α) : (s.set h x).get h = x := by
  simp [get_set]

theorem get_set_of_ne (s : Slots α) {h k : Handle} (x : α) (hne : h ≠ k) :
    (s.set h x).get k = s.get k := by
  simp [get_set, hne]

/-- A cell is not concerned if another one is set, whether it is or not. -/
theorem get_ite_set_of_ne (s : Slots α) (p : Prop) [Decidable p] {h k : Handle} (x : α)
    (hne : h ≠ k) : (if p then s.set h x else s).get k = s.get k := by
  by_cases hp : p
  · rw [if_pos hp, get_set_of_ne s x hne]
  · rw [if_neg hp]

@[ext] theorem ext {s t : Slots α} (h : ∀ k, s.get k = t.get k) : s = t := by
  obtain ⟨s⟩ := s
  obtain ⟨t⟩ := t
  congr 1
  apply Vector.ext
  intro i hi
  exact h ⟨i, hi⟩

/-- What is set again is as if it had been set once. -/
theorem set_set (s : Slots α) (h : Handle) (x y : α) : (s.set h x).set h y = s.set h y := by
  ext k
  simp only [get_set]
  split <;> rfl

theorem set_get (s : Slots α) (h : Handle) : s.set h (s.get h) = s := by
  ext k
  rw [get_set]
  split
  · next e => rw [e]
  · rfl

end Slots

end WifiAdapter
