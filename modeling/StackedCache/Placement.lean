import StackedCache.Address
import StackedCache.Settings.Basic

/-!
# Placement in the stack

A `Geometry` counts the vaults of a stack, the banks of a vault and the rows of a bank.  Banks are
numbered through the whole stack, and row-sized units as well as byte addresses have a place.
-/

namespace StackedCache

/-- A bank of the stack. -/
structure BankPlace where
  vault : Nat
  bank : Nat
  deriving DecidableEq, Repr, Inhabited

/-- A row of the stack. -/
structure Location where
  vault : Nat
  bank : Nat
  row : Nat
  deriving DecidableEq, Repr, Inhabited

/-- The bank a row belongs to. -/
def Location.place (l : Location) : BankPlace := ⟨l.vault, l.bank⟩

/-- The extent of a stack. -/
structure Geometry where
  vaults : Nat
  /-- Banks of a vault. -/
  banks : Nat
  /-- Rows of a bank. -/
  rows : Nat
  deriving DecidableEq, Repr, Inhabited

namespace Geometry

/-- The extent of the stack with the given settings. -/
def ofSettings (s : StackSettings) : Geometry := ⟨s.vaults.toNat, s.banksPerVault, s.rowsPerBank⟩

def totalBanks (g : Geometry) : Nat := g.vaults * g.banks

/-- The number of a bank in the stack. -/
def bankId (g : Geometry) (p : BankPlace) : Nat := p.vault * g.banks + p.bank

def bankAt (g : Geometry) (id : Nat) : BankPlace := ⟨id / g.banks, id % g.banks⟩

/-- The vault of the bank with a number. -/
def vaultOf (g : Geometry) (id : Nat) : Nat := id / g.banks

/-- The stack has this bank. -/
def holds (g : Geometry) (p : BankPlace) : Bool := p.vault < g.vaults && p.bank < g.banks

/-- The numbers of all banks, in order. -/
def bankIds (g : Geometry) : List Nat := List.range g.totalBanks

/-- The numbers of the banks of a vault, in order. -/
def bankIdsOf (g : Geometry) (vault : Nat) : List Nat :=
  (List.range g.banks).map fun bank => g.bankId ⟨vault, bank⟩

/-- The lowest bits of `n` that make up a field counting to `size`, in a 32-bit word. -/
def fieldOf (size n : Nat) : Nat := narrow (n % 2 ^ fieldBits size)

/-- The place of a row-sized unit: rows vary fastest, then vaults, then banks. -/
def locateRow (g : Geometry) (unit : Nat) : Location where
  row := fieldOf g.rows unit
  vault := fieldOf g.vaults (unit / 2 ^ fieldBits g.rows)
  bank := fieldOf g.banks (unit / 2 ^ (fieldBits g.rows + fieldBits g.vaults))

/-- The place of an address: chunks vary the vault fastest, then the bank, then the row. -/
def locateAddress (g : Geometry) (addr chunk : Nat) : Location :=
  let unit := addr / 2 ^ fieldBits chunk
  { vault := fieldOf g.vaults unit
    bank := fieldOf g.banks (unit / 2 ^ fieldBits g.vaults)
    row := fieldOf g.rows (unit / 2 ^ fieldBits g.vaults / 2 ^ fieldBits g.banks) }

theorem bankAt_bankId (g : Geometry) {p : BankPlace} (h : p.bank < g.banks) :
    g.bankAt (g.bankId p) = p := by
  have positive : 0 < g.banks := Nat.lt_of_le_of_lt (Nat.zero_le _) h
  simp only [bankAt, bankId, Nat.mul_comm p.vault, Nat.mul_add_div positive, Nat.mul_add_mod,
    Nat.div_eq_of_lt h, Nat.mod_eq_of_lt h, Nat.add_zero]

theorem bankId_bankAt (g : Geometry) (id : Nat) : g.bankId (g.bankAt id) = id := by
  simp only [bankAt, bankId, Nat.mul_comm (id / g.banks), Nat.div_add_mod]

theorem holds_iff {g : Geometry} {p : BankPlace} :
    g.holds p = true ↔ p.vault < g.vaults ∧ p.bank < g.banks := by
  simp [holds]

theorem bankId_lt {g : Geometry} {p : BankPlace} (hv : p.vault < g.vaults) (hb : p.bank < g.banks) :
    g.bankId p < g.totalBanks :=
  calc
    p.vault * g.banks + p.bank < p.vault * g.banks + g.banks := by omega
    _ = (p.vault + 1) * g.banks := (Nat.succ_mul ..).symm
    _ ≤ g.vaults * g.banks := Nat.mul_le_mul_right _ hv

theorem banks_pos {g : Geometry} {id : Nat} (h : id < g.totalBanks) : 0 < g.banks :=
  Nat.pos_of_mul_pos_left (Nat.lt_of_le_of_lt (Nat.zero_le id) h)

theorem vaultOf_lt {g : Geometry} {id : Nat} (h : id < g.totalBanks) : g.vaultOf id < g.vaults :=
  (Nat.div_lt_iff_lt_mul (banks_pos h)).2 h

theorem holds_bankAt {g : Geometry} {id : Nat} (h : id < g.totalBanks) :
    g.holds (g.bankAt id) = true :=
  holds_iff.2 ⟨vaultOf_lt h, Nat.mod_lt _ (banks_pos h)⟩

theorem vaultOf_bankId (g : Geometry) {p : BankPlace} (h : p.bank < g.banks) :
    g.vaultOf (g.bankId p) = p.vault :=
  congrArg BankPlace.vault (g.bankAt_bankId h)

theorem mem_bankIds {g : Geometry} {id : Nat} : id ∈ g.bankIds ↔ id < g.totalBanks := by
  simp [bankIds]

/-- The banks of a vault are those whose number lies in it. -/
theorem mem_bankIdsOf {g : Geometry} {vault id : Nat} (h : id < g.totalBanks) :
    id ∈ g.bankIdsOf vault ↔ g.vaultOf id = vault := by
  simp only [bankIdsOf, List.mem_map, List.mem_range]
  constructor
  · rintro ⟨bank, hb, rfl⟩
    exact g.vaultOf_bankId hb
  · rintro rfl
    exact ⟨id % g.banks, Nat.mod_lt _ (banks_pos h), g.bankId_bankAt id⟩

theorem lt_of_mem_bankIdsOf {g : Geometry} {vault id : Nat} (hv : vault < g.vaults)
    (h : id ∈ g.bankIdsOf vault) : id < g.totalBanks := by
  simp only [bankIdsOf, List.mem_map, List.mem_range] at h
  rcases h with ⟨bank, hb, rfl⟩
  exact bankId_lt hv hb

theorem bankIdsOf_nodup (g : Geometry) (vault : Nat) : (g.bankIdsOf vault).Nodup := by
  refine List.Pairwise.map _ ?_ List.nodup_range
  intro a b hne heq
  simp only [bankId] at heq
  omega

end Geometry

end StackedCache
