import WifiAdapter.Chip

/-! Enumeration of network interfaces. There is exactly one, and it is up while it
has an address. -/
namespace WifiAdapter

structure InterfaceFlags where
  up : Bool
  link : Bool
  multicast : Bool
deriving DecidableEq, Repr, Inhabited

namespace InterfaceFlags

def none : InterfaceFlags := ⟨false, false, false⟩

/-- Every flag set in `b` is set in `a`. -/
def contains (a b : InterfaceFlags) : Bool :=
  (!b.up || a.up) && (!b.link || a.link) && (!b.multicast || a.multicast)

/-- The flags set in either. -/
def union (a b : InterfaceFlags) : InterfaceFlags :=
  ⟨a.up || b.up, a.link || b.link, a.multicast || b.multicast⟩

theorem contains_iff_union (a b : InterfaceFlags) : a.contains b = true ↔ a.union b = a := by
  obtain ⟨au, al, am⟩ := a
  obtain ⟨bu, bl, bm⟩ := b
  cases au <;> cases al <;> cases am <;> cases bu <;> cases bl <;> cases bm <;> decide

end InterfaceFlags

structure Interface where
  name : String
  index : Nat
  flags : InterfaceFlags
deriving DecidableEq, Repr

namespace Interface

/-- The number under which the interface is known. -/
def theIndex : Nat := 1

/-- The interface at a position of the enumeration, for the address currently held. -/
def at? (position : Nat) (address : Option InterfaceAddress) : Except SocketError Interface :=
  if position = 0 then
    .ok ⟨"wnc", theIndex, ⟨address.isSome, address.isSome, true⟩⟩
  else .error .addressNotAvailable

/-- The address at a position of an interface's enumeration. -/
def address (index position : Nat) (address : Option InterfaceAddress) :
    Except SocketError InterfaceAddress :=
  if index = theIndex then
    match position, address with
    | 0, some address => .ok address
    | _, _ => .error .addressNotAvailable
  else .error .invalidArgument

end Interface

end WifiAdapter
