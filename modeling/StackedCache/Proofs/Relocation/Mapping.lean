import StackedCache.Proofs.Relocation.Permutation
import StackedCache.Relocation.Mapping

/-!
# Sound mappings

A mapping is sound when all its permutations are inverse pairs of the right length.  Then the two
directions between logical and physical banks undo each other, for each row as well, and three kinds
of change keep it sound: an exchange of two vaults, of two slots, and of one row of two banks.

Each change moves just the banks it names, which is what the journal of relocation relies on.
-/

namespace StackedCache

namespace Mapping

variable {m : Mapping} {id a b row : Nat}

/-- All permutations of the mapping are inverse pairs over its vaults and banks. -/
structure Sound (m : Mapping) : Prop where
  vaults : m.vaults.Inverse m.geometry.vaults
  banks : m.banks.Inverse m.geometry.totalBanks
  rows : ∀ entry ∈ m.rows, entry.2.Inverse m.geometry.totalBanks
  ascending : m.rows.Ascending

theorem identity_sound (g : Geometry) : (identity g).Sound where
  vaults := Permutation.identity_inverse g.vaults
  banks := Permutation.identity_inverse g.totalBanks
  rows := fun _ h => by cases h
  ascending := List.Pairwise.nil

/-! ## Slots -/

/-- The place of a slot is found in the vault that the logical vault is mapped to. -/
theorem bankAt_slotOf (h : 0 < m.geometry.banks) (id : Nat) :
    m.geometry.bankAt (m.slotOf id) =
      ⟨(m.vaults.target? (m.geometry.vaultOf id)).getD (m.geometry.vaultOf id),
        id % m.geometry.banks⟩ :=
  m.geometry.bankAt_bankId (Nat.mod_lt _ h)

theorem bankAt_ownerOfSlot (h : 0 < m.geometry.banks) (slot : Nat) :
    m.geometry.bankAt (m.ownerOfSlot slot) =
      ⟨(m.vaults.source? (m.geometry.vaultOf slot)).getD (m.geometry.vaultOf slot),
        slot % m.geometry.banks⟩ :=
  m.geometry.bankAt_bankId (Nat.mod_lt _ h)

theorem slotOf_eq_self (h : m.geometry.banks = 0) (id : Nat) : m.slotOf id = id := by
  simp [slotOf, Geometry.bankAt, Geometry.bankId, h]

theorem ownerOfSlot_eq_self (h : m.geometry.banks = 0) (slot : Nat) :
    m.ownerOfSlot slot = slot := by
  simp [ownerOfSlot, Geometry.bankAt, Geometry.bankId, h]

namespace Sound

theorem ownerOfSlot_slotOf (h : m.Sound) (id : Nat) : m.ownerOfSlot (m.slotOf id) = id := by
  -- Without banks in a vault, division by their number reads every index as a vault.
  rcases Nat.eq_zero_or_pos m.geometry.banks with hb | hb
  · rw [slotOf_eq_self hb, ownerOfSlot_eq_self hb]
  · unfold ownerOfSlot
    rw [bankAt_slotOf hb]
    simp only [h.vaults.source_target]
    exact m.geometry.bankId_bankAt id

theorem slotOf_ownerOfSlot (h : m.Sound) (slot : Nat) : m.slotOf (m.ownerOfSlot slot) = slot := by
  rcases Nat.eq_zero_or_pos m.geometry.banks with hb | hb
  · rw [ownerOfSlot_eq_self hb, slotOf_eq_self hb]
  · unfold slotOf
    rw [bankAt_ownerOfSlot hb]
    simp only [h.vaults.target_source]
    exact m.geometry.bankId_bankAt slot

theorem slotOf_injective (h : m.Sound) (heq : m.slotOf a = m.slotOf b) : a = b := by
  calc
    a = m.ownerOfSlot (m.slotOf a) := (h.ownerOfSlot_slotOf a).symm
    _ = m.ownerOfSlot (m.slotOf b) := by rw [heq]
    _ = b := h.ownerOfSlot_slotOf b

theorem slotOf_lt (h : m.Sound) (hid : id < m.geometry.totalBanks) :
    m.slotOf id < m.geometry.totalBanks :=
  Geometry.bankId_lt (h.vaults.target_lt (Geometry.vaultOf_lt hid))
    (Nat.mod_lt _ (Geometry.banks_pos hid))

theorem ownerOfSlot_lt (h : m.Sound) (hid : id < m.geometry.totalBanks) :
    m.ownerOfSlot id < m.geometry.totalBanks :=
  Geometry.bankId_lt (h.vaults.source_lt (Geometry.vaultOf_lt hid))
    (Nat.mod_lt _ (Geometry.banks_pos hid))

/-! ## Physical banks -/

theorem logicalOf_physicalOf (h : m.Sound) (id : Nat) : m.logicalOf (m.physicalOf id) = id := by
  simp only [logicalOf, physicalOf, h.banks.source_target, h.ownerOfSlot_slotOf]

theorem physicalOf_logicalOf (h : m.Sound) (id : Nat) : m.physicalOf (m.logicalOf id) = id := by
  simp only [logicalOf, physicalOf, h.slotOf_ownerOfSlot, h.banks.target_source]

theorem physicalOf_injective (h : m.Sound) (heq : m.physicalOf a = m.physicalOf b) : a = b := by
  calc
    a = m.logicalOf (m.physicalOf a) := (h.logicalOf_physicalOf a).symm
    _ = m.logicalOf (m.physicalOf b) := by rw [heq]
    _ = b := h.logicalOf_physicalOf b

theorem physicalOf_lt (h : m.Sound) (hid : id < m.geometry.totalBanks) :
    m.physicalOf id < m.geometry.totalBanks :=
  h.banks.target_lt (h.slotOf_lt hid)

theorem logicalOf_lt (h : m.Sound) (hid : id < m.geometry.totalBanks) :
    m.logicalOf id < m.geometry.totalBanks :=
  h.ownerOfSlot_lt (h.banks.source_lt hid)

/-! ## Rows -/

theorem rowPermutation_inverse (h : m.Sound) (row : Nat) :
    (m.rowPermutation row).Inverse m.geometry.totalBanks := by
  unfold rowPermutation
  -- A row that has never moved stands for the identity.
  cases found : m.rows.find? row with
  | none => exact Permutation.identity_inverse _
  | some p => exact h.rows _ (Table.mem_of_find? found)

end Sound

/-- A row without a permutation of its own is redirected by the identity. -/
theorem redirect_eq (m : Mapping) (row physical : Nat) :
    m.redirect row physical = ((m.rowPermutation row).target? physical).getD physical := by
  unfold redirect rowPermutation
  cases m.rows.find? row with
  | some p => rfl
  | none =>
      -- The identity has no entry beyond the range, where `redirect` keeps the index anyway.
      by_cases hlt : physical < m.geometry.totalBanks
      · simp [Permutation.identity_target? hlt]
      · simp [Permutation.target?, Permutation.identity, hlt]

namespace Sound

theorem redirect_lt (h : m.Sound) (hid : id < m.geometry.totalBanks) :
    m.redirect row id < m.geometry.totalBanks := by
  rw [redirect_eq]
  exact (h.rowPermutation_inverse row).target_lt hid

theorem redirect_injective (h : m.Sound) (heq : m.redirect row a = m.redirect row b) : a = b := by
  simp only [redirect_eq] at heq
  have hinv := h.rowPermutation_inverse row
  rw [← hinv.source_target a, heq, hinv.source_target]

theorem physicalOfRow_lt (h : m.Sound) (hid : id < m.geometry.totalBanks) :
    m.physicalOfRow row id < m.geometry.totalBanks :=
  h.redirect_lt (h.physicalOf_lt hid)

theorem physicalOfRow_injective (h : m.Sound)
    (heq : m.physicalOfRow row a = m.physicalOfRow row b) : a = b :=
  h.physicalOf_injective (h.redirect_injective heq)

/-- The check of all permutations and of both directions succeeds. -/
theorem consistent (h : m.Sound) : m.consistent = true := by
  simp only [Mapping.consistent, h.vaults.consistent, h.banks.consistent, Bool.true_and,
    Bool.and_eq_true, List.all_eq_true, h.logicalOf_physicalOf, h.physicalOf_logicalOf,
    decide_true, implies_true, and_true]
  exact fun entry hmem => (h.rows entry hmem).consistent

end Sound

/-! ## Exchanging two slots -/

section Banks

variable {q : Permutation}

theorem Sound.withBanks (h : m.Sound) (hq : q.Inverse m.geometry.totalBanks) :
    Sound { m with banks := q } where
  vaults := h.vaults
  banks := hq
  rows := h.rows
  ascending := h.ascending

/-- An exchange of the slots of two banks exchanges their physical banks and moves no other bank. -/
theorem Sound.physicalOf_swapBanks (h : m.Sound) (ha : a < m.geometry.totalBanks)
    (hb : b < m.geometry.totalBanks) (hq : m.banks.swap? (m.slotOf a) (m.slotOf b) = some q)
    (id : Nat) :
    ({ m with banks := q } : Mapping).physicalOf id =
      if id = b then m.physicalOf a else if id = a then m.physicalOf b else m.physicalOf id := by
  rcases h.banks.exists_target? (h.slotOf_lt ha) with ⟨x, hx⟩
  rcases h.banks.exists_target? (h.slotOf_lt hb) with ⟨y, hy⟩
  -- The exchange speaks of slots; as slots are not shared, it can be read as one of banks.
  have hslot : ∀ c, m.slotOf id = m.slotOf c ↔ id = c :=
    fun c => ⟨h.slotOf_injective, fun heq => heq ▸ rfl⟩
  have hsame : ({ m with banks := q } : Mapping).slotOf id = m.slotOf id := rfl
  simp only [physicalOf, hsame, Permutation.target?_swap? hq, hslot, hx, hy]
  by_cases hib : id = b
  · simp [hib]
  · by_cases hia : id = a
    · subst hia
      simp [hib]
    · simp [hib, hia]

end Banks

/-! ## Exchanging two vaults -/

section Vaults

variable {q : Permutation} {v w : Nat}

theorem Sound.withVaults (h : m.Sound) (hq : q.Inverse m.geometry.vaults) :
    Sound { m with vaults := q } where
  vaults := hq
  banks := h.banks
  rows := h.rows
  ascending := h.ascending

/-- An exchange of two vaults moves no bank of another vault. -/
theorem physicalOf_swapVaults (hq : m.vaults.swap? v w = some q) (hv : m.geometry.vaultOf id ≠ v)
    (hw : m.geometry.vaultOf id ≠ w) :
    ({ m with vaults := q } : Mapping).physicalOf id = m.physicalOf id := by
  have hsame : ({ m with vaults := q } : Mapping).slotOf id = m.slotOf id := by
    have htarget : q.target? (m.geometry.vaultOf id) = m.vaults.target? (m.geometry.vaultOf id) := by
      simp [Permutation.target?_swap? hq, hv, hw]
    simp only [slotOf]
    rw [show (m.geometry.bankAt id).vault = m.geometry.vaultOf id from rfl, htarget]
  simp only [physicalOf, hsame]

/-- An exchange of two vaults moves every bank of both. -/
theorem Sound.physicalOf_swapVaults_ne (h : m.Sound) (hid : id < m.geometry.totalBanks)
    (hq : m.vaults.swap? v w = some q) (hne : v ≠ w)
    (hvw : m.geometry.vaultOf id = v ∨ m.geometry.vaultOf id = w) :
    ({ m with vaults := q } : Mapping).physicalOf id ≠ m.physicalOf id := by
  have hqi : q.Inverse m.geometry.vaults := h.vaults.swap? hq
  rcases Permutation.targets_of_swap? hq with ⟨x, y, hx, hy⟩
  have hxy : x ≠ y := fun heq => hne (h.vaults.target?_injective hx (heq ▸ hy))
  intro heq
  -- Both mappings share the bank permutation, so the slots agree, and with them the vaults.
  have hpos := Geometry.banks_pos hid
  have hslot : ({ m with vaults := q } : Mapping).slotOf id = m.slotOf id := by
    have hsrc := congrArg (fun z => (m.banks.source? z).getD z) heq
    simpa only [physicalOf, h.banks.source_target] using hsrc
  have hplace := congrArg (fun z => (m.geometry.bankAt z).vault) hslot
  have hleft := bankAt_slotOf (m := { m with vaults := q }) hpos id
  simp only [bankAt_slotOf hpos, hleft, Permutation.target?_swap? hq, hx, hy] at hplace
  rcases hvw with hv | hw
  · by_cases hvw : v = w
    · exact hne hvw
    · simp [hv, hvw, hx] at hplace
      exact hxy hplace.symm
  · simp [hw, hy] at hplace
    exact hxy hplace

end Vaults

/-! ## Exchanging a row of two banks -/

section Rows

variable {q : Permutation} {x y other : Nat}

theorem Sound.withRow (h : m.Sound) (hq : q.Inverse m.geometry.totalBanks) :
    Sound { m with rows := m.rows.insert row q } where
  vaults := h.vaults
  banks := h.banks
  rows := fun entry hmem => by
    rcases Table.mem_of_mem_insert hmem with rfl | hmem
    · exact hq
    · exact h.rows entry hmem
  ascending := h.ascending.insert row q

theorem rowPermutation_insert (m : Mapping) (row other : Nat) (q : Permutation) :
    ({ m with rows := m.rows.insert row q } : Mapping).rowPermutation other =
      if other = row then q else m.rowPermutation other := by
  simp only [rowPermutation, Table.find?_insert]
  by_cases heq : other = row
  · simp [heq]
  · simp [heq]

/-- An exchange of a row of two physical banks leaves every other row, and that row of every other
bank, where it is. -/
theorem redirect_swapRow (hq : (m.rowPermutation row).swap? x y = some q)
    (hid : other ≠ row ∨ id ≠ x ∧ id ≠ y) :
    ({ m with rows := m.rows.insert row q } : Mapping).redirect other id = m.redirect other id := by
  simp only [redirect_eq, rowPermutation_insert]
  by_cases heq : other = row
  · rcases hid.resolve_left (fun hne => hne heq) with ⟨hx, hy⟩
    simp [heq, Permutation.target?_swap? hq, hx, hy]
  · simp [heq]

/-- Dropping the permutations that move nothing leaves every row where it is. -/
theorem Sound.redirect_dropIdentities (h : m.Sound) (other id : Nat) :
    ({ m with rows := m.rows.filter fun entry => !entry.2.isIdentity } : Mapping).redirect other id =
      m.redirect other id := by
  unfold redirect
  simp only
  rw [Table.find?_filter h.ascending]
  -- The table is ascending, so the filter cannot uncover a second entry of the row.
  cases found : m.rows.find? other with
  | none => rfl
  | some p =>
      cases hp : p.isIdentity with
      | false => simp [Option.filter, hp]
      | true => simp [Option.filter, hp, Permutation.target_of_isIdentity hp]

theorem Sound.dropIdentities (h : m.Sound) :
    Sound { m with rows := m.rows.filter fun entry => !entry.2.isIdentity } where
  vaults := h.vaults
  banks := h.banks
  rows := fun entry hmem => h.rows entry (List.mem_filter.1 hmem).1
  ascending := h.ascending.filter _

end Rows

end Mapping

end StackedCache
