import StackedCache.Relocation.Layer
import StackedCache.Service.Counts
import StackedCache.Stack.Vault

/-!
# Summaries

A `Summary` is what all layers of a model have counted, at one moment, with the numbers derived from
it.
-/

namespace StackedCache

/-- The statistics of a model. -/
structure Summary where
  /-- Requests answered. -/
  accesses : Nat := 0
  /-- Their latencies, added up. -/
  totalLatency : Time := .zero
  /-- Requests that failed, and requests out of order. -/
  anomalies : Nat := 0
  cache : CacheCounts := {}
  /-- Activity by vault. -/
  stack : List VaultActivity := []
  relocation : RelocationSummary := {}
  deriving Inhabited

namespace Summary

/-- The mean latency of a request, to the picosecond below; zero without requests. -/
def averageLatency (s : Summary) : Time :=
  if s.accesses = 0 then .zero else ⟨s.totalLatency.ps / s.accesses⟩

/-- The activity of all banks of all vaults. -/
def stackTotal (s : Summary) : Activity := .total (s.stack.map (·.total))

/-- The part of the requests that hit; zero without requests. -/
def hitRate (s : Summary) : Float :=
  if s.cache.accesses = 0 then 0.0
  else 1.0 - Float.ofNat s.cache.misses / Float.ofNat s.cache.accesses

end Summary

end StackedCache
