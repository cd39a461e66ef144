import StackedCache.Quantity.Time

/-!
# Speed grades

The timing parameters of a DRAM device, in cycles of its command clock.  The default describes a
stack with a command clock of 500 MHz.
-/

namespace StackedCache

/-- The timing parameters of a device. -/
structure Speed where
  /-- The clock period in picoseconds. -/
  tck : UInt64 := 2000
  /-- Burst length. -/
  bl : UInt32 := 2
  /-- Column to column, other bank group. -/
  ccds : UInt32 := 2
  /-- Column to column, same bank group. -/
  ccdl : UInt32 := 3
  /-- Column access. -/
  cl : UInt32 := 7
  /-- Activate to read. -/
  rcdr : UInt32 := 7
  /-- Activate to write. -/
  rcdw : UInt32 := 6
  /-- Precharge. -/
  rp : UInt32 := 7
  /-- Column write. -/
  cwl : UInt32 := 4
  /-- Activate to precharge. -/
  ras : UInt32 := 17
  /-- Activate to activate, same bank. -/
  rc : UInt32 := 24
  /-- Read to precharge. -/
  rtp : UInt32 := 7
  /-- Write to read, other bank group. -/
  wtrs : UInt32 := 2
  /-- Write to read, same bank group. -/
  wtrl : UInt32 := 4
  /-- Write recovery. -/
  wr : UInt32 := 8
  /-- Activate to activate, other bank group. -/
  rrds : UInt32 := 4
  /-- Activate to activate, same bank group. -/
  rrdl : UInt32 := 5
  /-- Window of four activates. -/
  faw : UInt32 := 20
  /-- Refresh cycle. -/
  rfc : UInt32 := 0
  /-- Refresh interval. -/
  refi : UInt32 := 1950
  /-- Shortest power-down. -/
  pd : UInt32 := 5
  /-- Leaving power-down. -/
  xp : UInt32 := 5
  /-- Shortest self-refresh. -/
  ckesr : UInt32 := 5
  /-- Leaving self-refresh. -/
  xs : UInt32 := 0
  deriving DecidableEq, Repr, Inhabited

namespace Speed

/-- The duration of `n` clock cycles. -/
def cycles (s : Speed) (n : Nat) : Time := Time.ofPs (n * s.tck.toNat)

theorem cycles_zero (s : Speed) : s.cycles 0 = .zero := by
  simp [cycles, Time.ofPs, Time.zero]

/-- The duration of cycles does not depend on how they are split. -/
theorem cycles_add (s : Speed) (m n : Nat) : s.cycles m + s.cycles n = s.cycles (m + n) := by
  rw [cycles, cycles, cycles, Time.ofPs_add, Nat.add_mul]

/-- The time between two refreshes of a bank. -/
def refreshInterval (s : Speed) : Time := s.cycles s.refi.toNat

end Speed

end StackedCache
