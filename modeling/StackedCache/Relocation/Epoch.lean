import StackedCache.Relocation.Layer

/-!
# Decisions

An `Epoch` is the relocation layer in the middle of an epoch, together with the report on what was
decided so far.  Each function here carries out one kind of decision: it changes the layer, counts,
and reports.  The passes decide which of them happen.

A pass goes through the banks, or the vaults, in order of their numbers, and each one sees what was
decided for those before it.
-/

namespace StackedCache

/-- A layer within an epoch. -/
structure Epoch where
  layer : Layer
  report : Report
  deriving Inhabited

namespace Epoch

/-- A pass over numbered entities. -/
def through (ids : List Nat) (step : Epoch → Nat → Epoch) (e : Epoch) : Epoch := ids.foldl step e

/-- A pass over all logical banks. -/
def throughBanks (step : Epoch → Nat → Epoch) (e : Epoch) : Epoch :=
  e.through e.layer.geometry.bankIds step

/-- A pass over all logical vaults. -/
def throughVaults (step : Epoch → Nat → Epoch) (e : Epoch) : Epoch :=
  e.through (List.range e.layer.geometry.vaults) step

def place (e : Epoch) (id : Nat) : BankPlace := e.layer.geometry.bankAt id

/-- The report with further content; the layer stays. -/
def reporting (e : Epoch) (f : Report → Report) : Epoch := { e with report := f e.report }

/-- The layer with further counts. -/
def counting (e : Epoch) (f : RelocationCounts → RelocationCounts) : Epoch :=
  { e with layer := { e.layer with counts := f e.layer.counts } }

def modifyBank (e : Epoch) (id : Nat) (f : Entry → Entry) : Epoch :=
  { e with layer := e.layer.modifyBank id f }

def modifyVault (e : Epoch) (vault : Nat) (f : Entry → Entry) : Epoch :=
  { e with layer := e.layer.modifyVault vault f }

def withMapping (e : Epoch) (m : Mapping) : Epoch := { e with layer := { e.layer with mapping := m } }

/-! ## Banks -/

/-- Takes a bank out of use. -/
def disableBank (e : Epoch) (id : Nat) (double : Bool) : Epoch :=
  let e := e.modifyBank id (·.disable double)
  let e := e.counting fun c => { c with disables := c.disables + 1 }
  let e :=
    if double then e.counting fun c => { c with doubleDisables := c.doubleDisables + 1 } else e
  e.reporting fun r => { r with disabledBanks := r.disabledBanks ++ [e.place id] }

/-- Counts and reports that a bank has recovered. -/
def bankRecovered (e : Epoch) (id : Nat) : Epoch :=
  let e := e.counting fun c => { c with recoveries := c.recoveries + 1 }
  e.reporting fun r => { r with recoveredBanks := r.recoveredBanks ++ [e.place id] }

/-- Takes a bank into use again. -/
def enableBank (e : Epoch) (id : Nat) : Epoch := (e.modifyBank id Entry.enable).bankRecovered id

/-- The data of a bank does not come along when the bank moves. -/
def bankMoved (e : Epoch) (id : Nat) : Epoch :=
  e.modifyBank id fun entry => entry.invalidate.markMoved e.layer.epoch

/-- Two banks have changed place. -/
def banksMoved (e : Epoch) (a b : Nat) : Epoch := (e.bankMoved a).bankMoved b

/-! ## Vaults -/

/-- Takes a vault out of use, with the data of its banks. -/
def disableVault (e : Epoch) (vault : Nat) : Epoch :=
  let e := e.modifyVault vault (·.disable false)
  let e := { e with layer := e.layer.modifyBanks (e.layer.geometry.bankIdsOf vault) Entry.invalidate }
  let e := e.counting fun c => { c with disables := c.disables + 1 }
  e.reporting fun r => { r with disabledVaults := r.disabledVaults ++ [vault] }

/-- Counts and reports that a vault has recovered. -/
def vaultRecovered (e : Epoch) (vault : Nat) : Epoch :=
  let e := e.counting fun c => { c with recoveries := c.recoveries + 1 }
  e.reporting fun r => { r with recoveredVaults := r.recoveredVaults ++ [vault] }

/-- Takes a vault into use again. -/
def enableVault (e : Epoch) (vault : Nat) : Epoch :=
  (e.modifyVault vault Entry.enable).vaultRecovered vault

/-- The data of a vault's banks does not come along when the vault moves. -/
def vaultMoved (e : Epoch) (vault : Nat) : Epoch :=
  let e := e.modifyVault vault (·.markMoved e.layer.epoch)
  { e with layer := e.layer.modifyBanks (e.layer.geometry.bankIdsOf vault) Entry.invalidate }

/-- Two vaults have changed place. -/
def vaultsMoved (e : Epoch) (a b : Nat) : Epoch := (e.vaultMoved a).vaultMoved b

/-! ## Failures -/

/-- Reports a hot entity without relief. -/
def fail (e : Epoch) (cause : RelocationFault) : Epoch :=
  e.reporting fun r => { r with failures := r.failures ++ [cause] }

end Epoch

end StackedCache
