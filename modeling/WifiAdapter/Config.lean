import WifiAdapter.Chip

/-! Settings of an adapter.

Times are in milliseconds. Every setting is brought into its range before use
(`Config.sanitized`), so a running adapter can rely on the ranges. -/
namespace WifiAdapter

/-- The most one receive can bring. -/
def maxRxPacket : Nat := 1500

/-- Room for the payload of one datagram. -/
def datagramCapacity : Nat := 1500

/-- The most one native stream send takes. -/
def maxStreamSegment : Nat := 1400

theorem maxStreamSegment_pos : 0 < maxStreamSegment := by decide

structure Config where
  bindTimeout : Nat
  listenTimeout : Nat
  pollInterval : Nat
  rxPacketSize : Nat
  recvTimeout : Nat
  maxDatagram : Nat
  scanRegion : ScanRegion
  rescanBackoff : Nat
  autoReconnect : Bool
deriving DecidableEq, Repr

/-- The value of the range from `low` to `high` nearest to `n`. -/
def clamp (low high n : Nat) : Nat := if n < low then low else if high < n then high else n

theorem clamp_of_mem {low high n : Nat} (hl : low ≤ n) (hh : n ≤ high) : clamp low high n = n := by
  simp [clamp, Nat.not_lt.mpr hl, Nat.not_lt.mpr hh]

theorem le_clamp {low high : Nat} (h : low ≤ high) (n : Nat) : low ≤ clamp low high n := by
  unfold clamp
  split
  · exact Nat.le_refl _
  · split <;> omega

theorem clamp_le {low high : Nat} (h : low ≤ high) (n : Nat) : clamp low high n ≤ high := by
  unfold clamp
  split
  · exact h
  · split <;> omega

namespace Config

def defaults : Config :=
  { bindTimeout := 1000
    listenTimeout := 1000
    pollInterval := 100
    rxPacketSize := maxRxPacket
    recvTimeout := 1
    maxDatagram := datagramCapacity
    scanRegion := .northAmerica
    rescanBackoff := 3000
    autoReconnect := true }

instance : Inhabited Config := ⟨defaults⟩

/-- The settings with every number in its range. -/
def sanitized (c : Config) : Config :=
  { c with
    bindTimeout := clamp 10 60000 c.bindTimeout
    listenTimeout := clamp 10 60000 c.listenTimeout
    pollInterval := clamp 1 5000 c.pollInterval
    rxPacketSize := clamp 64 maxRxPacket c.rxPacketSize
    recvTimeout := clamp 1 1000 c.recvTimeout
    maxDatagram := clamp 1 datagramCapacity c.maxDatagram
    rescanBackoff := clamp 0 600000 c.rescanBackoff }

theorem sanitized_defaults : defaults.sanitized = defaults := rfl

theorem sanitized_sanitized (c : Config) : c.sanitized.sanitized = c.sanitized := by
  simp [sanitized, clamp_of_mem, le_clamp, clamp_le, maxRxPacket, datagramCapacity]

end Config

/-- A time in microseconds. -/
def microseconds (milliseconds : Nat) : Nat := milliseconds * 1000

end WifiAdapter
