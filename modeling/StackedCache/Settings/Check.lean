import StackedCache.Decimal.Layout
import StackedCache.Fault
import StackedCache.Settings.Basic

/-!
# Checking settings

`Settings.check` accepts the settings the model can represent: sizes that are used as bit fields are
powers of two, counts are not zero, and the thresholds are ordered.  The first violated rule is
reported, section by section.
-/

namespace StackedCache

abbrev Check := Except SettingsFault Unit

namespace Check

/-- Requires a condition, else gives a reason. -/
def require (condition : Bool) (reason : String) : Check :=
  if condition then .ok () else .error (.inconsistent reason)

def nonZero (field : String) (value : Nat) : Check :=
  if value = 0 then .error (.zero field) else .ok ()

def isPowerOfTwo (n : Nat) : Bool := 2 ^ n.log2 = n

def powerOfTwo (field : String) (value : Nat) : Check := do
  nonZero field value
  if isPowerOfTwo value then .ok () else .error (.notPowerOfTwo field value)

def usable (field : String) (rate : Bandwidth) : Check :=
  require rate.usable ("`" ++ field ++ "` must be finite and positive")

end Check

open Check

/-- The most blocks of a page that are tracked. -/
def trackedBlocks : Nat := 64

/-- The greatest usage of a way. -/
def usageLimit : Nat := 255

def StackSettings.check (s : StackSettings) : Check := do
  powerOfTwo "dram.vaults" s.vaults.toNat
  powerOfTwo "dram.vault_size" s.vaultSize.toNat
  powerOfTwo "dram.bank_size" s.bankSize.toNat
  powerOfTwo "dram.row_size" s.rowSize.toNat
  powerOfTwo "dram.request_bytes" s.requestBytes.toNat
  require (s.bankSize ≤ s.vaultSize) "dram.bank_size exceeds dram.vault_size"
  require (s.rowSize ≤ s.bankSize) "dram.row_size exceeds dram.bank_size"
  require (s.totalBanks < 2 ^ 32) "too many banks in the stack"
  nonZero "dram.speed.tck_ps" s.speed.tck.toNat
  usable "dram.bandwidth" s.bandwidth

def CacheSettings.check (s : CacheSettings) : Check := do
  powerOfTwo "cache.sets" s.sets.toNat
  nonZero "cache.associativity" s.associativity.toNat
  powerOfTwo "cache.block_size" s.blockSize.toNat
  powerOfTwo "cache.page_size" s.pageSize.toNat
  nonZero "cache.footprint_entries" s.footprintEntries.toNat
  nonZero "cache.tags_per_row" s.tagsPerRow.toNat
  require (s.blockSize ≤ s.pageSize) "cache.page_size is smaller than cache.block_size"
  require (s.blocksPerPage ≤ trackedBlocks)
    ("a page holds " ++ toString s.blocksPerPage ++ " blocks; at most " ++ toString trackedBlocks
      ++ " are tracked")
  require (s.associativity.toNat ≤ usageLimit)
    "cache.associativity exceeds the usage counter range"

def SegmentSettings.check (s : SegmentSettings) : Check := do
  powerOfTwo "segment.segment_size" s.segmentSize.toNat
  nonZero "segment.fast_memory" s.fastMemory.toNat
  nonZero "segment.slots" s.slots.toNat
  nonZero "segment.swap_count" s.swapCount.toNat
  require (s.fastMemory.toNat % s.segmentSize.toNat = 0)
    "segment.fast_memory is not a multiple of segment.segment_size"

def MemorySettings.check (s : MemorySettings) : Check := usable "memory.bandwidth" s.bandwidth

namespace RelocationSettings

def temperatures (s : RelocationSettings) : List Celsius := [s.high, s.dangerous, s.cool, s.initial]

def thresholdText (t : Celsius) : String := Decimal.Layout.plain.text t.value

def check (s : RelocationSettings) : Check := do
  require (s.temperatures.all Celsius.isFinite) "remap temperatures must be finite"
  require (!s.high.below s.cool && !s.dangerous.below s.high)
    ("thresholds must satisfy remap <= high <= dangerous (got " ++ thresholdText s.cool ++ " / "
      ++ thresholdText s.high ++ " / " ++ thresholdText s.dangerous ++ ")")
  nonZero "remap.hot_rows" s.hotRows.toNat

end RelocationSettings

/-- Checks all sections in order; the segments matter only to the design that has them. -/
def Settings.check (s : Settings) : Check := do
  s.stack.check
  s.cache.check
  if s.cache.design = .constant then s.segment.check
  s.memory.check
  s.relocation.check

end StackedCache
