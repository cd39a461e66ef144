import StackedCache.Placement
import StackedCache.Relocation.Permutation
import StackedCache.Table

/-!
# The mapping from logical to physical banks

A logical bank is mapped in two steps: first its vault, then the bank that results.  The first step
alone gives the *slot* of the bank, the second one its physical bank.  Single rows may be redirected
in a third step, each by a permutation of its own over the physical banks.
-/

namespace StackedCache

/-- Where logical banks and rows are. -/
structure Mapping where
  geometry : Geometry
  /-- From logical to physical vaults. -/
  vaults : Permutation
  /-- From slots to physical banks. -/
  banks : Permutation
  /-- For each redirected row, from physical banks to physical banks. -/
  rows : Table Permutation := []
  deriving DecidableEq, Repr, Inhabited

namespace Mapping

/-- Everything is at home. -/
def identity (g : Geometry) : Mapping where
  geometry := g
  vaults := .identity g.vaults
  banks := .identity g.totalBanks

/-- The slot of a logical bank. -/
def slotOf (m : Mapping) (id : Nat) : Nat :=
  let p := m.geometry.bankAt id
  m.geometry.bankId ⟨(m.vaults.target? p.vault).getD p.vault, p.bank⟩

/-- The logical bank that has a slot. -/
def ownerOfSlot (m : Mapping) (slot : Nat) : Nat :=
  let p := m.geometry.bankAt slot
  m.geometry.bankId ⟨(m.vaults.source? p.vault).getD p.vault, p.bank⟩

/-- The physical bank of a logical bank. -/
def physicalOf (m : Mapping) (id : Nat) : Nat :=
  let slot := m.slotOf id
  (m.banks.target? slot).getD slot

/-- The logical bank on a physical bank. -/
def logicalOf (m : Mapping) (id : Nat) : Nat := m.ownerOfSlot ((m.banks.source? id).getD id)

/-- A logical bank, or its vault, is not at home. -/
def displaced (m : Mapping) (id : Nat) : Bool :=
  !m.banks.fixes (m.slotOf id) || !m.vaults.fixes (m.geometry.vaultOf id)

/-- The physical bank that has a row of a physical bank. -/
def redirect (m : Mapping) (row physical : Nat) : Nat :=
  match m.rows.find? row with
  | some p => (p.target? physical).getD physical
  | none => physical

/-- The physical bank that has a row of a logical bank. -/
def physicalOfRow (m : Mapping) (row id : Nat) : Nat := m.redirect row (m.physicalOf id)

/-- The permutation of a row, the identity if it is not redirected. -/
def rowPermutation (m : Mapping) (row : Nat) : Permutation :=
  (m.rows.find? row).getD (.identity m.geometry.totalBanks)

/-- All permutations agree with themselves, and the two directions of the whole mapping agree. -/
def consistent (m : Mapping) : Bool :=
  m.vaults.consistent && m.banks.consistent && m.rows.all (·.2.consistent) &&
    m.geometry.bankIds.all fun id =>
      m.logicalOf (m.physicalOf id) = id && m.physicalOf (m.logicalOf id) = id

end Mapping

end StackedCache
