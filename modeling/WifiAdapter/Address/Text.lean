import WifiAdapter.Address

/-! Written form of addresses: `a.b.c.d` and `a.b.c.d:n` in decimal. An IPv6
endpoint opens with a bracket and an IPv6 address holds a colon; what they say
further is not looked at. -/
namespace WifiAdapter

/-- Four decimal numbers with points between them. -/
def Ipv4.text (ip : Ipv4) : String :=
  ".".intercalate (ip.bytes.map fun b => toString b.toNat)

def Endpoint.text (e : Endpoint) : String :=
  e.ip.text ++ ":" ++ toString e.portNumber.toNat

/-- A decimal number below `bound`. -/
def readBelow (bound : Nat) (s : String) : Option Nat :=
  s.toNat?.bind fun n => if n < bound then some n else none

def Ipv4.read? (s : String) : Option Ipv4 :=
  match s.splitOn "." with
  | [a, b, c, d] => do
    let a ← readBelow 256 a
    let b ← readBelow 256 b
    let c ← readBelow 256 c
    let d ← readBelow 256 d
    pure ⟨.ofNat a, .ofNat b, .ofNat c, .ofNat d⟩
  | _ => none

def Endpoint.read? (s : String) : Option Endpoint :=
  match s.splitOn ":" with
  | [ip, number] => do
    let ip ← Ipv4.read? ip
    let number ← readBelow 65536 number
    pure ⟨ip, .ofNat number⟩
  | _ => none

def SocketAddr.read? (s : String) : Option SocketAddr :=
  if s.startsWith "[" then some .v6 else (Endpoint.read? s).map .v4

def IpAddr.read? (s : String) : Option IpAddr :=
  if s.contains ':' then some .v6 else (Ipv4.read? s).map .v4

end WifiAdapter
