import StackedCache.Quantity.Bandwidth
import StackedCache.Quantity.Celsius
import StackedCache.Timing.Speed

/-!
# Settings

Everything that parameterises a model, in five sections, with the defaults of a stack of 4 GiB in 32
vaults.  Sizes are 64-bit and counts 32-bit words, as documents give them.

Numbers that follow from settings, such as the banks of a vault, are functions here.
-/

namespace StackedCache

/-- The design of the cache. -/
inductive Design where
  /-- Direct-mapped blocks with the tag beside the data. -/
  | alloy
  /-- Associative pages, filled by predicted footprint. -/
  | unison
  /-- Segments of fast memory, each shared by several slots. -/
  | constant
  deriving DecidableEq, Repr, Inhabited

/-- How the ways of a page set age. -/
inductive Ageing where
  /-- Each touch ages all other ways. -/
  | maxAge
  /-- Strict recency ranks. -/
  | lru
  deriving DecidableEq, Repr, Inhabited

/-- What an epoch does about heat. -/
inductive Policy where
  /-- Hot banks are disabled. -/
  | disable
  /-- Hot banks, and hot vaults if that is allowed, change places with cool ones. -/
  | swap
  /-- Hot vaults are disabled. -/
  | vaultDisable
  /-- The most used rows of hot banks move to cool ones. -/
  | hybrid
  deriving DecidableEq, Repr, Inhabited

/-- The DRAM stack. -/
structure StackSettings where
  vaults : UInt32 := 32
  /-- Bytes of a vault. -/
  vaultSize : UInt64 := 128 * 1024 * 1024
  /-- Bytes of a bank. -/
  bankSize : UInt64 := 16 * 1024 * 1024
  /-- Bytes of a row. -/
  rowSize : UInt64 := 8 * 1024
  /-- Rows are closed after each access. -/
  autoPrecharge : Bool := false
  /-- Banks are refreshed. -/
  refresh : Bool := false
  bandwidth : Bandwidth := ⟨16.0⟩
  /-- Bytes moved by one request of a transfer. -/
  requestBytes : UInt64 := 64
  speed : Speed := {}
  deriving Inhabited

/-- The cache. -/
structure CacheSettings where
  design : Design := .unison
  sets : UInt64 := 65536
  /-- Ways of a page set. -/
  associativity : UInt32 := 4
  blockSize : UInt64 := 64
  pageSize : UInt64 := 1024
  ageing : Ageing := .maxAge
  /-- Entries of the footprint history. -/
  footprintEntries : UInt64 := 64
  /-- Blocks with their tags in one row. -/
  tagsPerRow : UInt64 := 28
  /-- Pages are renumbered in the order of their first use. -/
  renumberPages : Bool := false
  deriving Inhabited

/-- The segments of fast memory. -/
structure SegmentSettings where
  /-- Bytes of fast memory. -/
  fastMemory : UInt64 := 4 * 1024 * 1024 * 1024
  segmentSize : UInt64 := 1024 * 1024
  /-- Slots that share a segment. -/
  slots : UInt32 := 6
  /-- Accesses between two decisions about the resident slot. -/
  swapCount : UInt32 := 20
  deriving Inhabited

/-- The memory behind the cache. -/
structure MemorySettings where
  latencyNs : UInt64 := 45
  bandwidth : Bandwidth := ⟨7.6⟩
  /-- The stack sits on the processor; otherwise each request crosses a bus. -/
  onTop : Bool := true
  busDelayNs : UInt64 := 0
  queueLatencyNs : UInt64 := 0
  deriving Inhabited

/-- The reaction to heat. -/
structure RelocationSettings where
  enabled : Bool := true
  policy : Policy := .swap
  /-- Data may move to other vaults. -/
  interVault : Bool := false
  /-- From here on an entity is relieved. -/
  high : Celsius := ⟨85.0⟩
  /-- From here on an entity that cannot be relieved is disabled. -/
  dangerous : Celsius := ⟨95.0⟩
  /-- Below this an entity may receive data or recover. -/
  cool : Celsius := ⟨80.0⟩
  /-- The temperature of every bank before its first reading. -/
  initial : Celsius := ⟨60.0⟩
  /-- Rows tracked for each bank, and moved at once. -/
  hotRows : UInt64 := 8
  /-- Epochs an entity stays frozen after it moved. -/
  cooldownEpochs : UInt64 := 1
  lookupLatencyPs : UInt64 := 10
  /-- The lookup latency when data may move to other vaults. -/
  globalLookupLatencyPs : UInt64 := 200
  deriving Inhabited

/-- The settings of a model. -/
structure Settings where
  /-- The model answers requests; otherwise they take no time. -/
  enabled : Bool := true
  /-- Requesters with this number or a higher one are not served. -/
  applicationCores : UInt32 := 4294967295
  stack : StackSettings := {}
  cache : CacheSettings := {}
  segment : SegmentSettings := {}
  memory : MemorySettings := {}
  relocation : RelocationSettings := {}
  deriving Inhabited

/-! ## Derived numbers -/

/-- The low 32 bits of a count. -/
def narrow (n : Nat) : Nat := n % 2 ^ 32

namespace StackSettings

/-- Banks of a vault; counts that need more than 32 bits lose the high ones. -/
def banksPerVault (s : StackSettings) : Nat := narrow (s.vaultSize.toNat / s.bankSize.toNat)

/-- Rows of a bank; counts that need more than 32 bits lose the high ones. -/
def rowsPerBank (s : StackSettings) : Nat := narrow (s.bankSize.toNat / s.rowSize.toNat)

def totalBanks (s : StackSettings) : Nat := s.vaults.toNat * s.banksPerVault

end StackSettings

def CacheSettings.blocksPerPage (s : CacheSettings) : Nat := s.pageSize.toNat / s.blockSize.toNat

/-- Segments of the fast memory. -/
def SegmentSettings.entries (s : SegmentSettings) : Nat := s.fastMemory.toNat / s.segmentSize.toNat

namespace MemorySettings

def latency (s : MemorySettings) : Time := Time.ofNs s.latencyNs.toNat

/-- The time every request waits. -/
def queueLatency (s : MemorySettings) : Time := Time.ofNs s.queueLatencyNs.toNat

/-- The time every request spends on the bus. -/
def busDelay (s : MemorySettings) : Time := if s.onTop then Time.zero else Time.ofNs s.busDelayNs.toNat

/-- A transfer from or to the memory behind the cache. -/
def accessTime (s : MemorySettings) (bytes : Nat) : Time := s.latency + s.bandwidth.transferTime bytes

end MemorySettings

/-- The time to look a bank up in the mapping. -/
def RelocationSettings.lookupLatency (s : RelocationSettings) : Time :=
  if !s.enabled then Time.zero
  else if s.interVault then Time.ofPs s.globalLookupLatencyPs.toNat
  else Time.ofPs s.lookupLatencyPs.toNat

end StackedCache
