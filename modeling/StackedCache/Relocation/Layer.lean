import StackedCache.Relocation.Entry
import StackedCache.Relocation.Ledger
import StackedCache.Relocation.Mapping
import StackedCache.Relocation.Report

/-!
# The relocation layer

The `Layer` owns the mapping from logical to physical banks, an entry for each logical bank and
vault, and the ledger of temperatures.  This module has what requests and sensors need of it; what
happens once an epoch is in the modules on passes.
-/

namespace StackedCache

/-- How often epochs decided what. -/
structure RelocationCounts where
  epochs : Nat := 0
  disables : Nat := 0
  /-- Disables of banks that were displaced already. -/
  doubleDisables : Nat := 0
  bankSwaps : Nat := 0
  vaultSwaps : Nat := 0
  rowMigrations : Nat := 0
  recoveries : Nat := 0
  failures : Nat := 0
  deriving DecidableEq, Repr, Inhabited

/-- Counters and banks at a glance. -/
structure RelocationSummary where
  counts : RelocationCounts := {}
  /-- Logical banks that are not at home. -/
  displacedBanks : Nat := 0
  /-- Logical banks that are not in use. -/
  disabledBanks : Nat := 0
  temperatures : List Celsius := []
  hot : List Nat := []
  cool : List Nat := []
  relocated : List Nat := []
  deriving Inhabited

/-- The state of relocation. -/
structure Layer where
  settings : RelocationSettings
  mapping : Mapping
  /-- Entries of logical banks, by number. -/
  banks : Array Entry
  /-- Entries of logical vaults. -/
  vaults : Array Entry
  ledger : Ledger
  counts : RelocationCounts := {}
  /-- Epochs that have passed. -/
  epoch : Nat := 0
  deriving Inhabited

namespace Layer

/-- Everything at home, in use and at the initial temperature. -/
def ofSettings (s : RelocationSettings) (g : Geometry) : Layer where
  settings := s
  mapping := .identity g
  banks := (Array.range g.totalBanks).map (Entry.fresh s.hotRows.toNat)
  vaults := (Array.range g.vaults).map (Entry.fresh s.hotRows.toNat)
  ledger := .ofSize g.vaults g.banks s.initial

def geometry (l : Layer) : Geometry := l.mapping.geometry

/-! ## Entries -/

/-- The number of a bank of the stack. -/
def bankId? (l : Layer) (p : BankPlace) : Except RelocationFault Nat :=
  if l.geometry.holds p then .ok (l.geometry.bankId p) else .error (.outOfRange p.vault p.bank)

def bank? (l : Layer) (id : Nat) : Option Entry := l.banks[id]?

def vault? (l : Layer) (vault : Nat) : Option Entry := l.vaults[vault]?

def entry? (l : Layer) (p : BankPlace) : Option Entry :=
  if l.geometry.holds p then l.bank? (l.geometry.bankId p) else none

def modifyBank (l : Layer) (id : Nat) (f : Entry → Entry) : Layer :=
  { l with banks := l.banks.modify id f }

def modifyBanks (l : Layer) (ids : List Nat) (f : Entry → Entry) : Layer :=
  ids.foldl (fun l id => l.modifyBank id f) l

def modifyVault (l : Layer) (vault : Nat) (f : Entry → Entry) : Layer :=
  { l with vaults := l.vaults.modify vault f }

/-- The entry of the logical bank itself says it is out of use. -/
def bankDisabled (l : Layer) (id : Nat) : Bool := (l.bank? id).any (·.disabled)

def vaultDisabled (l : Layer) (vault : Nat) : Bool := (l.vault? vault).any (·.disabled)

/-- A logical bank, or its vault, is out of use. -/
def idDisabled (l : Layer) (id : Nat) : Bool :=
  l.bankDisabled id || l.vaultDisabled (l.geometry.vaultOf id)

/-- A bank of the stack is out of use. -/
def disabled (l : Layer) (p : BankPlace) : Bool :=
  l.geometry.holds p && l.idDisabled (l.geometry.bankId p)

/-- An entity has moved too recently to move again. -/
def frozen (l : Layer) (e : Option Entry) : Bool :=
  e.any (·.frozen l.epoch l.settings.cooldownEpochs.toNat)

def bankFrozen (l : Layer) (id : Nat) : Bool := l.frozen (l.bank? id)

def vaultFrozen (l : Layer) (vault : Nat) : Bool := l.frozen (l.vault? vault)

/-! ## Places -/

def physicalPlace (l : Layer) (p : BankPlace) : Except RelocationFault BankPlace :=
  (l.bankId? p).map fun id => l.geometry.bankAt (l.mapping.physicalOf id)

def logicalPlace (l : Layer) (p : BankPlace) : Except RelocationFault BankPlace :=
  (l.bankId? p).map fun id => l.geometry.bankAt (l.mapping.logicalOf id)

/-- Where a logical row is. -/
def physicalLocation (l : Layer) (logical : Location) : Except RelocationFault Location :=
  (l.bankId? logical.place).map fun id =>
    let p := l.geometry.bankAt (l.mapping.physicalOfRow logical.row id)
    ⟨p.vault, p.bank, logical.row⟩

/-! ## Temperatures -/

/-- The last reading of a physical bank. -/
def temperature? (l : Layer) (p : BankPlace) : Option Celsius :=
  if l.geometry.holds p then some (l.ledger.temperature (l.geometry.bankId p)) else none

/-- The temperature of the physical bank a logical bank is on. -/
def temperatureOf (l : Layer) (id : Nat) : Celsius := l.ledger.temperature (l.mapping.physicalOf id)

/-- Stores a reading of a physical bank. -/
def setTemperature (l : Layer) (p : BankPlace) (t : Celsius) : Except RelocationFault Layer :=
  (l.bankId? p).map fun id => { l with ledger := l.ledger.setTemperature id t }

/-! ## Requests -/

/-- Records DRAM requests to a logical row: with the physical bank that serves it, and with the
logical bank and vault. -/
def recordAccess (l : Layer) (logical : Location) (requests : Nat) : Except RelocationFault Layer :=
  (l.bankId? logical.place).map fun id =>
    let physical := l.mapping.physicalOfRow logical.row id
    let hot := (l.ledger.temperature physical).reaches l.settings.high
    let recorded :=
      { l with ledger := l.ledger.recordAccess physical requests hot (physical ≠ id) }
    (recorded.modifyBank id (·.recordAccess logical.row requests)).modifyVault logical.vault
      (·.recordAccess logical.bank requests)

/-! ## Consequences for cached data -/

/-- The data of a logical bank may be used; this holds of banks that do not exist. -/
def contentValid (l : Layer) (p : BankPlace) : Bool := (l.entry? p).all (·.contentValid)

/-- A row of a logical bank has moved. -/
def rowMigrated (l : Layer) (row : Location) : Bool :=
  (l.entry? row.place).any fun e => e.migratedRows.contains row.row

/-- The logical banks whose data may not be used any more. -/
def invalidatedBanks (l : Layer) : List BankPlace :=
  (l.banks.toList.filter fun e => !e.contentValid).map fun e => l.geometry.bankAt e.id

/-- The rows that have moved, with their logical banks. -/
def migratedRows (l : Layer) : List (BankPlace × Nat) :=
  l.banks.toList.flatMap fun e => e.migratedRows.map fun row => (l.geometry.bankAt e.id, row)

/-- The cache has consequences to draw. -/
def pending (l : Layer) : Bool := l.banks.any Entry.pending

/-- The consequences are drawn. -/
def settle (l : Layer) : Layer :=
  { l with banks := l.banks.map Entry.settle, vaults := l.vaults.map Entry.settle }

/-! ## Summary -/

def summary (l : Layer) : RelocationSummary where
  counts := l.counts
  displacedBanks := l.geometry.bankIds.countP l.mapping.displaced
  disabledBanks := l.geometry.bankIds.countP l.idDisabled
  temperatures := l.ledger.temperatures.toList
  hot := l.ledger.hot.toList
  cool := l.ledger.cool.toList
  relocated := l.ledger.relocated.toList

/-- Forgets all counts; places, states and temperatures stay. -/
def resetCounts (l : Layer) : Layer :=
  { l with
    counts := {}
    ledger := l.ledger.resetCounts
    banks := l.banks.map Entry.resetCounts
    vaults := l.vaults.map Entry.resetCounts }

/-! ## Banks of the stack -/

section Places

variable {l : Layer} {p : BankPlace}

theorem bankId?_of_holds (h : l.geometry.holds p = true) : l.bankId? p = .ok (l.geometry.bankId p) := by
  rw [bankId?, if_pos h]

theorem bankId_lt (h : l.geometry.holds p = true) : l.geometry.bankId p < l.geometry.totalBanks := by
  rcases Geometry.holds_iff.1 h with ⟨hv, hb⟩
  exact Geometry.bankId_lt hv hb

theorem bankAt_bankId (h : l.geometry.holds p = true) :
    l.geometry.bankAt (l.geometry.bankId p) = p :=
  l.geometry.bankAt_bankId (Geometry.holds_iff.1 h).2

theorem physicalPlace_of_holds (h : l.geometry.holds p = true) :
    l.physicalPlace p = .ok (l.geometry.bankAt (l.mapping.physicalOf (l.geometry.bankId p))) := by
  rw [physicalPlace, bankId?_of_holds h]
  rfl

theorem logicalPlace_of_holds (h : l.geometry.holds p = true) :
    l.logicalPlace p = .ok (l.geometry.bankAt (l.mapping.logicalOf (l.geometry.bankId p))) := by
  rw [logicalPlace, bankId?_of_holds h]
  rfl

theorem physicalLocation_of_holds {r : Location} (h : l.geometry.holds r.place = true) :
    l.physicalLocation r =
      .ok
        { vault := (l.geometry.bankAt (l.mapping.physicalOfRow r.row (l.geometry.bankId r.place))).vault
          bank := (l.geometry.bankAt (l.mapping.physicalOfRow r.row (l.geometry.bankId r.place))).bank
          row := r.row } := by
  rw [physicalLocation, bankId?_of_holds h]
  rfl

theorem physicalLocation_of_not_holds {r : Location} (h : l.geometry.holds r.place = false) :
    l.physicalLocation r = .error (.outOfRange r.vault r.bank) := by
  simp only [physicalLocation, bankId?, h, Bool.false_eq_true, if_false]
  rfl

end Places

end Layer

end StackedCache
