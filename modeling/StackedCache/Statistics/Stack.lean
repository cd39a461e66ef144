import StackedCache.Json.Basic
import StackedCache.Stack.Vault

/-!
# Stack statistics as documents

The names under which the activity of banks and vaults is written.  Times are picoseconds.
-/

namespace StackedCache

open Json

def Time.document (t : Time) : Json := .nat t.ps

def Activity.document (a : Activity) : Json := .record
  [("t_act", a.activating.document), ("t_pre", a.precharging.document),
   ("t_rd", a.reading.document), ("t_wr", a.writing.document), ("t_ref", a.refreshing.document),
   ("reads", .nat a.reads), ("writes", .nat a.writes), ("row_hits", .nat a.rowHits),
   ("refreshes", .nat a.refreshes)]

def VaultActivity.document (v : VaultActivity) : Json := .record
  [("vault", .nat v.vault), ("requests", .nat v.requests), ("total", v.total.document),
   ("banks", .array (v.banks.map Activity.document))]

end StackedCache
