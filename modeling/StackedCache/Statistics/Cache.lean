import StackedCache.Json.Basic
import StackedCache.Service.Counts

/-!
# Cache counters as documents

The names under which the counters of a cache are written.
-/

namespace StackedCache

open Json

def CacheCounts.document (n : CacheCounts) : Json := .record
  [("accesses", .nat n.accesses), ("reads", .nat n.reads), ("writes", .nat n.writes),
   ("misses", .nat n.misses), ("page_misses", .nat n.pageMisses),
   ("block_misses", .nat n.blockMisses), ("disabled_accesses", .nat n.bypasses),
   ("writeback_blocks", .nat n.writebackBlocks), ("loaded_blocks", .nat n.loadedBlocks),
   ("invalidations", .nat n.invalidations), ("invalidated_blocks", .nat n.invalidatedBlocks),
   ("migrations", .nat n.migrations), ("migrated_blocks", .nat n.migratedBlocks),
   ("segment_hits", .nat n.segmentHits), ("segment_swaps", .nat n.segmentSwaps),
   ("out_of_order", .nat n.outOfOrder), ("set_reads", .nat n.setReads),
   ("set_writes", .nat n.setWrites)]

end StackedCache
