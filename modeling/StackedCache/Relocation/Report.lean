import StackedCache.Fault
import StackedCache.Placement

/-!
# Reports

What an epoch decided, in the order in which it was decided.
-/

namespace StackedCache

/-- Rows that changed place with the same rows of another bank. -/
structure RowMigration where
  /-- The logical bank that was hot. -/
  source : BankPlace
  /-- The logical bank on the cool physical bank. -/
  target : BankPlace
  rows : List Nat
  deriving DecidableEq, Repr

/-- The decisions of an epoch. -/
structure Report where
  epoch : Nat
  /-- Hot logical banks and those they changed place with. -/
  bankSwaps : List (BankPlace × BankPlace) := []
  /-- Hot logical vaults and those they changed place with. -/
  vaultSwaps : List (Nat × Nat) := []
  rowMigrations : List RowMigration := []
  disabledBanks : List BankPlace := []
  disabledVaults : List Nat := []
  /-- Banks in use again or back home. -/
  recoveredBanks : List BankPlace := []
  /-- Vaults in use again or back home. -/
  recoveredVaults : List Nat := []
  /-- Hot entities without relief. -/
  failures : List RelocationFault := []
  deriving Inhabited

/-- The epoch changed a place or the state of an entity. -/
def Report.changed (r : Report) : Bool :=
  !(r.bankSwaps.isEmpty && r.vaultSwaps.isEmpty && r.rowMigrations.isEmpty
    && r.disabledBanks.isEmpty && r.disabledVaults.isEmpty && r.recoveredBanks.isEmpty
    && r.recoveredVaults.isEmpty)

end StackedCache
