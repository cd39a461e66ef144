/-!
# Request counters

What happened to the requests a cache has served.
-/

namespace StackedCache

/-- Counters of a cache. -/
structure CacheCounts where
  accesses : Nat := 0
  reads : Nat := 0
  writes : Nat := 0
  /-- Requests without a hit. -/
  misses : Nat := 0
  /-- Requests for a tag that was missing. -/
  pageMisses : Nat := 0
  /-- Requests for a block that was missing from its page. -/
  blockMisses : Nat := 0
  /-- Requests that went past the cache because their bank was out of use. -/
  bypasses : Nat := 0
  /-- Dirty blocks written back. -/
  writebackBlocks : Nat := 0
  /-- Blocks loaded. -/
  loadedBlocks : Nat := 0
  /-- Sets dropped after a relocation, if they held blocks. -/
  invalidations : Nat := 0
  /-- The blocks of those sets. -/
  invalidatedBlocks : Nat := 0
  /-- Sets that moved with their row. -/
  migrations : Nat := 0
  /-- The blocks of those sets. -/
  migratedBlocks : Nat := 0
  segmentHits : Nat := 0
  segmentSwaps : Nat := 0
  /-- Requests earlier than the one before. -/
  outOfOrder : Nat := 0
  /-- Reads of all sets. -/
  setReads : Nat := 0
  /-- Writes of all sets. -/
  setWrites : Nat := 0
  deriving DecidableEq, Repr, Inhabited

end StackedCache
