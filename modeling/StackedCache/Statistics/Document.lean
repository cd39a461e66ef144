import StackedCache.Model.Summary
import StackedCache.Statistics.Cache
import StackedCache.Statistics.Relocation
import StackedCache.Statistics.Stack

/-!
# Summaries as documents

The document of a summary has a section for each layer.
-/

namespace StackedCache

open Json

def Summary.document (s : Summary) : Json := .record
  [("accesses", .nat s.accesses), ("total_latency", s.totalLatency.document),
   ("anomalies", .nat s.anomalies), ("cache", s.cache.document),
   ("dram", .array (s.stack.map VaultActivity.document)), ("remap", s.relocation.document)]

end StackedCache
