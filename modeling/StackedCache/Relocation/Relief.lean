import StackedCache.Relocation.Recovery

/-!
# Relief

A hot vault changes place with the coolest vault that may receive data, and a hot bank with the
coolest such bank, or only its most used rows do.  A bank that gets no relief is taken out of use
once it is dangerously hot.
-/

namespace StackedCache.Epoch

/-! ## Vaults -/

/-- A physical vault may take over a hot vault's data: it is cool, and its logical vault is at home,
in use and out of its cooldown. -/
def vaultEligible (e : Epoch) (hot candidate : Nat) : Bool :=
  candidate ≠ hot
    && (e.layer.ledger.vaultTemperature candidate).below e.layer.settings.cool
    && (e.layer.mapping.vaults.source? candidate).any fun owner =>
      e.layer.mapping.vaults.fixes owner && !e.layer.vaultDisabled owner
        && !e.layer.vaultFrozen owner

/-- The coolest vault that may take over a hot vault's data. -/
def vaultTarget? (e : Epoch) (hot : Nat) : Option Nat :=
  Celsius.coolest? e.layer.ledger.vaultTemperature
    ((List.range e.layer.geometry.vaults).filter (e.vaultEligible hot))

/-- Two logical vaults change place. -/
def swapVaults (e : Epoch) (vault partner : Nat) : Epoch :=
  let m := e.layer.mapping
  match m.vaults.swap? vault partner with
  | none => e
  | some vaults =>
      let e := (e.withMapping { m with vaults := vaults }).vaultsMoved vault partner
      let e := e.counting fun c => { c with vaultSwaps := c.vaultSwaps + 1 }
      e.reporting fun r => { r with vaultSwaps := r.vaultSwaps ++ [(vault, partner)] }

/-- The vault is hot, and neither moved nor out of use. -/
def vaultNeedsRelief (e : Epoch) (vault : Nat) : Bool :=
  !e.layer.vaultDisabled vault && !e.layer.vaultFrozen vault
    && e.layer.mapping.vaults.fixes vault
    && !(e.layer.ledger.vaultTemperature vault).below e.layer.settings.high

def relieveVault (e : Epoch) (vault : Nat) : Epoch :=
  if e.vaultNeedsRelief vault then
    match e.vaultTarget? vault with
    | none => e.fail (.noVaultTarget vault (e.layer.ledger.vaultTemperature vault))
    | some target =>
        e.swapVaults vault ((e.layer.mapping.vaults.source? target).getD target)
  else e

def relieveVaults (e : Epoch) : Epoch := e.throughVaults relieveVault

/-! ## Bank targets -/

/-- The physical banks among which a target is looked for: those of the hot bank's vault, or all. -/
def scope (e : Epoch) (hot : Nat) : List Nat :=
  if e.layer.settings.interVault then e.layer.geometry.bankIds
  else e.layer.geometry.bankIdsOf (e.layer.geometry.vaultOf hot)

/-- A physical bank may take over a hot bank's data: it is cool, and its logical bank is in use, out
of its cooldown and, if that is asked for, at home. -/
def bankEligible (e : Epoch) (atHome : Bool) (hot candidate : Nat) : Bool :=
  let owner := e.layer.mapping.logicalOf candidate
  candidate ≠ hot
    && (e.layer.ledger.temperature candidate).below e.layer.settings.cool
    && !e.layer.idDisabled owner && !e.layer.bankFrozen owner
    && !(atHome && e.layer.mapping.displaced owner)

/-- The coolest physical bank that may take over a hot bank's data. -/
def bankTarget? (e : Epoch) (atHome : Bool) (hot : Nat) : Option Nat :=
  Celsius.coolest? e.layer.ledger.temperature ((e.scope hot).filter (e.bankEligible atHome hot))

/-! ## Two ways to relieve a bank -/

/-- Two logical banks change place. -/
def swapBanks (e : Epoch) (id partner : Nat) : Epoch :=
  let m := e.layer.mapping
  match m.banks.swap? (m.slotOf id) (m.slotOf partner) with
  | none => e
  | some banks =>
      let e := (e.withMapping { m with banks := banks }).banksMoved id partner
      let e := e.counting fun c => { c with bankSwaps := c.bankSwaps + 1 }
      e.reporting fun r => { r with bankSwaps := r.bankSwaps ++ [(e.place id, e.place partner)] }

/-- Two physical banks exchange a row; the rows of both logical banks have moved. -/
def exchangeRow (id partner physical target : Nat) (e : Epoch) (row : Nat) : Epoch :=
  let m := e.layer.mapping
  let known := m.rowPermutation row
  match known.swap? physical target with
  | none => e.withMapping { m with rows := m.rows.insert row known }
  | some exchanged =>
      let e := e.withMapping { m with rows := m.rows.insert row exchanged }
      let e := (e.modifyBank id (·.migrateRow row)).modifyBank partner (·.migrateRow row)
      e.counting fun c => { c with rowMigrations := c.rowMigrations + 1 }

/-- The rows of a bank that are worth moving. -/
def rowsToMove (e : Epoch) (id : Nat) : List Nat :=
  ((e.layer.bank? id).map fun entry =>
    entry.hotRows.hottest e.layer.settings.hotRows.toNat).getD []

/-- The most used rows of a bank change place with the same rows of the target. -/
def migrateRows (e : Epoch) (id partner physical target : Nat) (rows : List Nat) : Epoch :=
  let e := e.through rows (exchangeRow id partner physical target)
  let now := e.layer.epoch
  let e := (e.modifyBank id (·.markMoved now)).modifyBank partner (·.markMoved now)
  e.reporting fun r =>
    { r with rowMigrations := r.rowMigrations ++ [⟨e.place id, e.place partner, rows⟩] }

/-! ## Banks -/

/-- How hot banks are relieved. -/
inductive Relief where
  /-- The bank changes place. -/
  | swapping
  /-- Its most used rows change place. -/
  | migrating
  deriving DecidableEq, Repr

/-- The bank is hot, and neither the bank nor its vault is out of use or in its cooldown. -/
def bankNeedsRelief (e : Epoch) (id : Nat) : Bool :=
  !e.layer.idDisabled id && !e.layer.bankFrozen id
    && !e.layer.vaultFrozen (e.layer.geometry.vaultOf id)
    && !(e.layer.temperatureOf id).below e.layer.settings.high

/-- Reports that there is no target for a bank. -/
def failBank (e : Epoch) (id : Nat) : Epoch :=
  e.fail (.noTarget (e.place id).vault (e.place id).bank (e.layer.temperatureOf id))

/-- Tries to relieve a hot bank and says whether that worked.  A displaced bank does not change
place a second time, and a bank whose rows are not in use has none to move. -/
def attemptRelief (e : Epoch) (relief : Relief) (id : Nat) : Bool × Epoch :=
  let physical := e.layer.mapping.physicalOf id
  match relief with
  | .swapping =>
      if e.layer.mapping.displaced id then (false, e)
      else
        match e.bankTarget? true physical with
        | none => (false, e.failBank id)
        | some target => (true, e.swapBanks id (e.layer.mapping.logicalOf target))
  | .migrating =>
      match e.bankTarget? false physical with
      | none => (false, e.failBank id)
      | some target =>
          let rows := e.rowsToMove id
          if rows.isEmpty then (false, e)
          else (true, e.migrateRows id (e.layer.mapping.logicalOf target) physical target rows)

/-- Relieves one bank, or takes it out of use if it is dangerously hot without relief. -/
def relieveBank (relief : Relief) (e : Epoch) (id : Nat) : Epoch :=
  if e.bankNeedsRelief id then
    let displaced := e.layer.mapping.displaced id
    let dangerous := (e.layer.temperatureOf id).reaches e.layer.settings.dangerous
    let (relieved, e) := e.attemptRelief relief id
    if !relieved && dangerous then e.disableBank id displaced else e
  else e

def relieveBanks (e : Epoch) (relief : Relief) : Epoch := e.throughBanks (relieveBank relief)

end StackedCache.Epoch
