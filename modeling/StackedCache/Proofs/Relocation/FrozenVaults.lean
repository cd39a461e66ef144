import StackedCache.Proofs.Relocation.Outcome
import StackedCache.Proofs.Relocation.Sweep

/-!
# Banks of vaults that have just moved

A vault in its cooldown is left alone by the turns of vaults, and its banks are never those that a
turn relieves.  Two roles are left to such a bank: the partner of a relieved bank, if its vault is at
home again, and a side of the return of a bank to its slot.  `stage_moves_frozen` says that there are
no others, and `frozen_partner` that the first one is taken.
-/

namespace StackedCache

namespace Epoch

open Layer

variable {e : Epoch} {id other : Nat} {relief : Relief}

/-- A bank that needs relief is in a vault that may move. -/
theorem vaultFrozen_of_needy (needy : e.bankNeedsRelief id = true) :
    e.layer.vaultFrozen (e.layer.geometry.vaultOf id) = false := by
  simp only [bankNeedsRelief, Bool.and_eq_true, Bool.not_eq_true'] at needy
  exact needy.1.2

/-- The owner of a target at home is in a vault at home. -/
theorem fixes_of_target {hot target : Nat} (found : e.bankTarget? true hot = some target) :
    e.layer.mapping.vaults.fixes
      (e.layer.geometry.vaultOf (e.layer.mapping.logicalOf target)) = true := by
  have eligible := (List.mem_filter.1 (Celsius.coolest?_mem found)).2
  simp only [bankEligible, Mapping.displaced, Bool.true_and, Bool.not_or, Bool.not_not,
    Bool.and_eq_true] at eligible
  exact eligible.2.2

/-- Relief moves a bank that needs it and its partner, which is in a vault at home. -/
theorem relieveBank_moves (h : e.layer.Sound) (range : id < e.layer.geometry.totalBanks)
    (moved : (relieveBank relief e id).layer.mapping.physicalOf other ≠
      e.layer.mapping.physicalOf other) :
    relief = .swapping ∧ e.bankNeedsRelief id = true ∧
      (other = id ∨
        e.layer.mapping.vaults.fixes (e.layer.geometry.vaultOf other) = true) := by
  have outcome := relieveBank_outcome relief e id
  generalize relieveBank relief e id = e' at outcome moved
  cases outcome with
  | notNeeded calm => exact absurd rfl moved
  | borne noted needy mild => exact absurd (by rw [layer_of_noted noted]) moved
  | givenUp noted needy dangerous =>
      rcases disableBank_layer _ id (e.layer.mapping.displaced id) with ⟨c, disabled⟩
      rw [disabled, layer_of_noted noted] at moved
      exact absurd rfl moved
  | swapped target needy home found =>
      refine ⟨rfl, needy, ?_⟩
      rcases swapBanks_exchange h range found with ⟨partner_lt, _, q, c, swap, exchanged⟩
      have physical := h.mapping.physicalOf_swapBanks range partner_lt swap other
      rw [exchanged] at moved
      by_cases source : other = id
      · exact .inl source
      · by_cases partner : other = e.layer.mapping.logicalOf target
        · rw [partner]
          exact .inr (fixes_of_target found)
        · rw [if_neg partner, if_neg source] at physical
          exact absurd physical moved
  -- Rows that change place leave their banks where they are.
  | migrated target needy found =>
      have rows := rows_physicalOf (migrateRows_change h range found (e.rowsToMove id))
      exact absurd (congrFun rows other) moved

/-- A return moves two banks that are in each other's slots, neither of which is in its cooldown. -/
theorem recoverBank_moves (h : e.layer.Sound) (range : id < e.layer.geometry.totalBanks)
    (moved : (e.recoverBank id).layer.mapping.physicalOf other ≠
      e.layer.mapping.physicalOf other) :
    e.layer.mapping.banks.fixes (e.layer.mapping.slotOf other) = false ∧
      e.layer.bankFrozen other = false := by
  unfold recoverBank at moved
  split at moved
  · exact absurd rfl moved
  · split at moved
    · exact absurd rfl moved
    · split at moved
      · rename_i ready
        simp only [bankMayGoHome, Bool.and_eq_true, Bool.not_eq_true'] at ready
        rcases sendBankHome_exchange h id with
          stays | ⟨partner, q, c, partner_lt, ne, free, there, swap, exchanged⟩
        · exact absurd (by rw [stays]) moved
        · have physical := h.mapping.physicalOf_swapBanks range partner_lt swap other
          rw [exchanged] at moved
          by_cases back : other = id
          · rw [back]
            exact ready.1
          · by_cases gone : other = partner
            · subst gone
              refine ⟨?_, free⟩
              -- Were its slot at home, the bank would be there, and not in the slot of the other.
              cases home : e.layer.mapping.banks.fixes (e.layer.mapping.slotOf other) with
              | false => rfl
              | true =>
                  have here : e.layer.mapping.physicalOf other = e.layer.mapping.slotOf other := by
                    simp only [Mapping.physicalOf, Permutation.fixes_iff.1 home, Option.getD_some]
                  exact absurd (h.mapping.slotOf_injective (here.symm.trans there)) back
            · rw [if_neg gone, if_neg back] at physical
              exact absurd physical moved
      · exact absurd rfl moved

end Epoch

namespace Layer

variable {l : Layer} {n : Nat} {t : Turn}

/-- The turns of banks under the policy that swaps. -/
theorem turn_of_swap {s : RelocationSettings} {g : Geometry} (policy : s.policy = .swap)
    (member : t ∈ s.turns g) (ofBanks : t.OfBanks) :
    (∃ id, t = .recoverBank id) ∨ ∃ id, t = .relieveBank .swapping id := by
  rcases List.mem_flatMap.1 member with ⟨p, hp, ht⟩
  simp only [RelocationSettings.passes, policy] at hp
  cases p with
  | recoverBanks =>
      rcases List.mem_map.1 ht with ⟨id, _, rfl⟩
      exact .inl ⟨id, rfl⟩
  | relieveBanks relief =>
      rcases List.mem_map.1 ht with ⟨id, _, rfl⟩
      cases relief with
      | swapping => exact .inr ⟨id, rfl⟩
      | migrating => split at hp <;> simp at hp
  | recoverVaults =>
      rcases List.mem_map.1 ht with ⟨v, _, rfl⟩
      cases ofBanks
  | relieveVaults =>
      rcases List.mem_map.1 ht with ⟨v, _, rfl⟩
      cases ofBanks
  -- The other passes belong to other policies.
  | switchBanks => split at hp <;> simp at hp
  | switchVaults => split at hp <;> simp at hp
  | recoverRows => split at hp <;> simp at hp

/-- The turns of the next epoch are those of the settings. -/
theorem mem_turns {s : RelocationSettings} {g : Geometry} (h : l.Under s g) (member : t ∈ l.turns) :
    t ∈ s.turns g := by
  unfold turns at member
  split at member
  · rwa [h.settings, h.geometry] at member
  · cases member

/-- Under the policy that swaps, a turn of banks moves a bank whose vault is in its cooldown in two
ways only.  Either the turn relieves another bank, whose vault is free to move, and has found the
bank as its partner in a vault at home; or it returns a bank to its slot, and the bank is in another
one's slot and has not moved by itself too recently. -/
theorem stage_moves_frozen (s : RelocationSettings) (g : Geometry) (policy : s.policy = .swap)
    (ops : List Operation) (n id : Nat) :
    let l := (ofSettings s g).run ops
    ∀ t, l.turns[n]? = some t → t.OfBanks →
      (l.stage (n + 1)).mapping.physicalOf id ≠ (l.stage n).mapping.physicalOf id →
      (l.stage n).vaultFrozen (g.vaultOf id) = true →
      (∃ hot, t = .relieveBank .swapping hot ∧ id ≠ hot ∧
        (l.stage n).vaultFrozen (g.vaultOf hot) = false ∧
        (l.stage n).mapping.vaults.fixes (g.vaultOf id) = true) ∨
      (∃ home, t = .recoverBank home ∧ (l.stage n).bankFrozen id = false ∧
        (l.stage n).mapping.banks.fixes ((l.stage n).mapping.slotOf id) = false) := by
  intro l t next ofBanks moved frozen
  have under : l.Under s g := (ofSettings_under s g).run ops
  have sound := stage_sound under.sound n
  have geometry : (l.stage n).geometry = g :=
    (changes_frame (stage_changes under.sound n)).geometry.trans under.geometry
  have within := turns_within (List.mem_of_getElem? next)
  rcases stage_succ next with ⟨e, here, after⟩
  rw [← here] at sound geometry frozen moved ⊢
  rw [after] at moved
  rw [under.geometry, ← geometry] at within
  rw [← geometry] at frozen ⊢
  have member := mem_turns under (List.mem_of_getElem? next)
  rcases turn_of_swap policy member ofBanks with ⟨home, rfl⟩ | ⟨hot, rfl⟩
  · have alone := Epoch.recoverBank_moves sound within moved
    exact .inr ⟨home, rfl, alone.2, alone.1⟩
  · obtain ⟨_, needy, role⟩ := Epoch.relieveBank_moves sound within moved
    have free := Epoch.vaultFrozen_of_needy needy
    -- A bank in its vault's cooldown is not the one that needs relief.
    have partner : id ≠ hot := by
      rintro rfl
      rw [free] at frozen
      cases frozen
    exact .inl ⟨hot, rfl, partner, free, role.resolve_left partner⟩

/-- Two banks of a hot vault have changed place before the vault moves to a cool one.  There the
other vault's banks find their slots exchanged, and return to them in the next epoch. -/
theorem stage_moves_frozen_return :
    let s : RelocationSettings := { policy := .swap, interVault := true }
    let l := (ofSettings s ⟨2, 2, 4⟩).run
      [.setTemperature ⟨0, 0⟩ ⟨90.0⟩, .runEpoch, .setTemperature ⟨0, 1⟩ ⟨90.0⟩, .runEpoch,
        .setTemperature ⟨0, 0⟩ ⟨60.0⟩, .setTemperature ⟨0, 1⟩ ⟨60.0⟩]
    l.turns[2]? = some (.recoverBank 2) ∧
      (l.stage 3).mapping.physicalOf 2 ≠ (l.stage 2).mapping.physicalOf 2 ∧
      (l.stage 2).vaultFrozen 1 = true ∧ (l.stage 2).bankFrozen 2 = false := by
  intro s l
  have turn : l.turns[2]? = some (.recoverBank 2) := by decide +kernel
  have moved : (l.stage 3).mapping.physicalOf 2 ≠ (l.stage 2).mapping.physicalOf 2 := by
    decide +kernel
  have frozen : (l.stage 2).vaultFrozen 1 = true := by decide +kernel
  refine ⟨turn, moved, frozen, ?_⟩
  rcases stage_moves_frozen s ⟨2, 2, 4⟩ rfl _ 2 2 _ turn trivial moved frozen with
    ⟨hot, relieved, _⟩ | ⟨home, _, free, _⟩
  · cases relieved
  · exact free

/-- A vault is sent home, and in the same epoch its bank becomes the partner of a hot bank, while
its vault is in its cooldown. -/
theorem frozen_partner :
    let s : RelocationSettings := { policy := .swap, interVault := true }
    let l := (ofSettings s ⟨4, 2, 4⟩).run
      [.setTemperature ⟨0, 0⟩ ⟨90.0⟩, .setTemperature ⟨0, 1⟩ ⟨90.0⟩,
        .setTemperature ⟨1, 0⟩ ⟨50.0⟩, .setTemperature ⟨1, 1⟩ ⟨50.0⟩, .runEpoch, .runEpoch,
        .setTemperature ⟨0, 0⟩ ⟨40.0⟩, .setTemperature ⟨0, 1⟩ ⟨50.0⟩,
        .setTemperature ⟨2, 0⟩ ⟨90.0⟩]
    l.runEpoch.1.recoveredVaults = [0] ∧ l.runEpoch.1.bankSwaps = [(⟨2, 0⟩, ⟨0, 0⟩)] ∧
      l.turns[20]? = some (.relieveBank .swapping 4) ∧ (l.stage 20).vaultFrozen 0 = true ∧
      (l.stage 21).mapping.physicalOf 0 ≠ (l.stage 20).mapping.physicalOf 0 := by
  decide +kernel

end Layer

end StackedCache
