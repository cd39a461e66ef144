import StackedCache.Json.Basic
import StackedCache.Relocation.Layer

/-!
# Relocation statistics as documents

The counters stand beside what is known of the banks, in one object.  A temperature that is no
number is written as `null`.
-/

namespace StackedCache

open Json

def RelocationCounts.members (n : RelocationCounts) : List (String × Json) :=
  [("epochs", .nat n.epochs), ("disable_times", .nat n.disables),
   ("double_disable_times", .nat n.doubleDisables), ("remap_times", .nat n.bankSwaps),
   ("vault_remap_times", .nat n.vaultSwaps), ("row_migrations", .nat n.rowMigrations),
   ("recovery_times", .nat n.recoveries), ("failures", .nat n.failures)]

def RelocationSummary.bankMembers (s : RelocationSummary) : List (String × Json) :=
  [("displaced_banks", .nat s.displacedBanks), ("disabled_banks", .nat s.disabledBanks),
   ("temperatures", .array (s.temperatures.map fun t => .float t.value)),
   ("hot_accesses", .array (s.hot.map Json.nat)), ("cool_accesses", .array (s.cool.map Json.nat)),
   ("remap_accesses", .array (s.relocated.map Json.nat))]

def RelocationSummary.document (s : RelocationSummary) : Json :=
  .record (s.counts.members ++ s.bankMembers)

end StackedCache
