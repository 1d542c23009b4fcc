/-! Network addresses, as callers write them and as the chip lays them out.

The chip speaks IPv4 only. `SocketAddr.native?` refuses every other family; what
passes is laid out as the chip's record (`NativeAddr`), number and address in
network order. The layout loses nothing: `NativeAddr.endpoint_ofEndpoint`. -/
namespace WifiAdapter

/-- A run of bytes. -/
abbrev Bytes := List UInt8

/-- An IPv4 address, most significant byte first. -/
structure Ipv4 where
  a : UInt8
  b : UInt8
  c : UInt8
  d : UInt8
deriving DecidableEq, Repr, Inhabited

/-- An IPv4 address together with a transport number. -/
structure Endpoint where
  ip : Ipv4
  portNumber : UInt16
deriving DecidableEq, Repr, Inhabited

/-- An address of either family. Nothing of an IPv6 address is ever used, so it has no content. -/
inductive IpAddr where
  | v4 (ip : Ipv4)
  | v6
deriving DecidableEq, Repr, Inhabited

/-- An endpoint of either family. -/
inductive SocketAddr where
  | v4 (endpoint : Endpoint)
  | v6
deriving DecidableEq, Repr, Inhabited

/-- The chip's address record: a family tag, then the transport number and the
address as they lie in memory, most significant byte first. -/
structure NativeAddr where
  family : UInt16
  portHigh : UInt8
  portLow : UInt8
  address : Ipv4
deriving DecidableEq, Repr, Inhabited

def Ipv4.unspecified : Ipv4 := ⟨0, 0, 0, 0⟩

def Ipv4.bytes (ip : Ipv4) : Bytes := [ip.a, ip.b, ip.c, ip.d]

def Endpoint.unspecified : Endpoint := ⟨.unspecified, 0⟩

namespace NativeAddr

/-- The tag of the IPv4 family. -/
def inet : UInt16 := 2

def ofEndpoint (e : Endpoint) : NativeAddr :=
  { family := inet
    portHigh := UInt8.ofNat (e.portNumber.toNat / 256)
    portLow := UInt8.ofNat (e.portNumber.toNat % 256)
    address := e.ip }

/-- The family tag plays no part in reading a record. -/
def endpoint (n : NativeAddr) : Endpoint :=
  ⟨n.address, UInt16.ofNat (n.portHigh.toNat * 256 + n.portLow.toNat)⟩

@[simp] theorem endpoint_ofEndpoint (e : Endpoint) : (ofEndpoint e).endpoint = e := by
  obtain ⟨ip, number⟩ := e
  have h := number.toNat_lt
  simp only [ofEndpoint, endpoint, Endpoint.mk.injEq, true_and]
  apply UInt16.toNat_inj.mp
  simp only [UInt8.toNat_ofNat', UInt16.toNat_ofNat']
  omega

end NativeAddr

/-- The chip's record for an endpoint, if the chip can hold it. -/
def SocketAddr.native? : SocketAddr → Option NativeAddr
  | v4 e => some (.ofEndpoint e)
  | v6 => none

end WifiAdapter
