import StackedCache.Proofs.Relocation.Moves

/-!
# Displacement in pairs

An exchange may build cycles of any length, and the permutations of rows have them.  Banks and
vaults change place only with a partner while both are at home, so what is displaced is so in pairs,
and a return home ends a pair.
-/

namespace StackedCache

/-! ## Involutions -/

namespace Permutation

variable {p q : Permutation} {n i j k : Nat}

/-- Whatever is displaced has changed place with one other index. -/
def Involution (p : Permutation) : Prop := ∀ i j, p.target? i = some j → p.target? j = some i

/-- A pair that was displaced is at home again, and all others are where they were. -/
structure Reunites (p q : Permutation) (i j : Nat) : Prop where
  ne : i ≠ j
  there : p.target? i = some j ∧ p.target? j = some i
  home : q.fixes i = true ∧ q.fixes j = true
  others : ∀ k, k ≠ i → k ≠ j → q.target? k = p.target? k

theorem identity_involution (n : Nat) : (identity n).Involution := by
  intro i j there
  have inverse := identity_inverse n
  have i_lt := (inverse.lt_of_target? there).1
  rw [identity_target? i_lt] at there
  cases there
  exact identity_target? i_lt

/-- Two indices that share no pair with any other one. -/
def Together (p : Permutation) (i j : Nat) : Prop :=
  p.target? i = some i ∧ p.target? j = some j ∨ p.target? i = some j ∧ p.target? j = some i

/-- Changes within two indices that are together keep all other pairs. -/
theorem Involution.of_together (h : p.Involution) (before : p.Together i j) (after : q.Together i j)
    (others : ∀ k, k ≠ i → k ≠ j → q.target? k = p.target? k) : q.Involution := by
  intro k m there
  by_cases own : k = i ∨ k = j
  · unfold Together at after
    grind
  · -- The partner of another index is another index as well.
    rw [not_or] at own
    rw [others k own.1 own.2] at there
    have back := h k m there
    have apart : m ≠ i ∧ m ≠ j := by
      unfold Together at before
      grind
    rw [others m apart.1 apart.2]
    exact back

/-- Two indices at home become a pair. -/
theorem Involution.swap?_home (h : p.Involution) (hi : p.fixes i = true) (hj : p.fixes j = true)
    (swap : p.swap? i j = some q) : q.Involution := by
  have target := target?_swap? swap
  rw [fixes_iff] at hi hj
  refine h.of_together (.inl ⟨hi, hj⟩) (.inr ⟨?_, ?_⟩) fun k not_i not_j => ?_
  · rw [target, if_pos rfl, hj]
    split
    · rename_i same
      rw [hi, same]
    · rfl
  · rw [target, if_pos rfl, hi]
  · rw [target, if_neg not_j, if_neg not_i]

/-- An index that is sent home ends a pair with the one in its place. -/
theorem Involution.reunites (h : p.Involution) (ne : i ≠ j) (there : p.target? j = some i)
    (swap : p.swap? i j = some q) : p.Reunites q i j := by
  have target := target?_swap? swap
  have back := h j i there
  refine ⟨ne, ⟨back, there⟩, ⟨?_, ?_⟩, fun k not_i not_j => ?_⟩
  · rw [fixes_iff, target, if_neg ne, if_pos rfl, there]
  · rw [fixes_iff, target, if_pos rfl, back]
  · rw [target, if_neg not_j, if_neg not_i]

theorem Reunites.involution (h : p.Reunites q i j) (before : p.Involution) : q.Involution := by
  rcases h.home with ⟨hi, hj⟩
  exact before.of_together (.inr h.there) (.inl ⟨fixes_iff.1 hi, fixes_iff.1 hj⟩) h.others

end Permutation

/-! ## Numbers -/

namespace Celsius

variable {t bound : Celsius}

/-- Of two numbers, one is below the other or reaches it. -/
theorem below_of_not_reaches (ht : t.isNaN = false) (hb : bound.isNaN = false)
    (h : t.reaches bound = false) : t.below bound = true := by
  rcases exists_rank ht with ⟨a, ha⟩
  rcases exists_rank hb with ⟨b, hb⟩
  rw [reaches_of_rank ha hb, decide_eq_false_iff_not] at h
  rw [below_of_rank ha hb, decide_eq_true_iff]
  omega

theorem reaches_of_not_below (ht : t.isNaN = false) (hb : bound.isNaN = false)
    (h : t.below bound = false) : t.reaches bound = true := by
  by_contra cooler
  rw [below_of_not_reaches ht hb (by simpa using cooler)] at h
  cases h

end Celsius

/-! ## Pairs of banks and of vaults -/

/-- Banks and vaults are displaced in pairs, and banks only where there is a bound for cool ones. -/
structure Mapping.Paired (m : Mapping) (cool : Celsius) : Prop where
  vaults : m.vaults.Involution
  banks : m.banks.Involution
  number : ∀ i j, m.banks.target? i = some j → i ≠ j → cool.isNaN = false

theorem Mapping.identity_paired (g : Geometry) (cool : Celsius) : (identity g).Paired cool where
  vaults := Permutation.identity_involution g.vaults
  banks := Permutation.identity_involution g.totalBanks
  number := by
    intro i j there ne
    have i_lt := ((Permutation.identity_inverse g.totalBanks).lt_of_target? there).1
    have same : (identity g).banks.target? i = some i := Permutation.identity_target? i_lt
    cases same.symm.trans there
    exact absurd rfl ne

/-- A bank that goes home and the bank in its slot are a pair. -/
theorem Mapping.Paired.reunites {m : Mapping} {cool : Celsius} {q : Permutation} {id other : Nat}
    (paired : m.Paired cool) (h : m.Sound) (other_lt : other < m.geometry.totalBanks)
    (ne : id ≠ other) (there : m.physicalOf other = m.slotOf id)
    (swap : m.banks.swap? (m.slotOf id) (m.slotOf other) = some q) :
    m.banks.Reunites q (m.slotOf id) (m.slotOf other) := by
  have apart : m.slotOf id ≠ m.slotOf other := fun same => ne (h.slotOf_injective same)
  have found := h.target?_slotOf other_lt
  rw [there] at found
  exact paired.banks.reunites apart found swap

namespace Layer

/-- A pair of banks has gone home: both are in their own slots, on physical banks that are cool as
far as they have a reading, and no other bank has moved. -/
structure BanksReunited (l l' : Layer) (id other : Nat) : Prop where
  ne : id ≠ other
  slots : l.mapping.banks.Reunites l'.mapping.banks (l.mapping.slotOf id) (l.mapping.slotOf other)
  places : l'.mapping.physicalOf id = l.mapping.slotOf id ∧
    l'.mapping.physicalOf other = l.mapping.slotOf other
  others : ∀ k, k ≠ id → k ≠ other → l'.mapping.physicalOf k = l.mapping.physicalOf k
  cool : ∀ k, k = id ∨ k = other → (l'.temperatureOf k).isNaN = false →
    (l'.temperatureOf k).below l'.settings.cool = true

/-- A pair of vaults has gone home, and all banks are in the slots they had in their vaults. -/
structure VaultsReunited (l l' : Layer) (v w : Nat) : Prop where
  vaults : l.mapping.vaults.Reunites l'.mapping.vaults v w
  banks : l'.mapping.banks = l.mapping.banks

end Layer

namespace Epoch

open Layer

variable {e e' : Epoch} {t : Turn} {id v : Nat}

/-- Every turn keeps what is displaced in pairs. -/
theorem take_paired (h : e.layer.Sound) (within : t.Within e.layer.geometry)
    (paired : e.layer.mapping.Paired e.layer.settings.cool) :
    (e.take t).layer.mapping.Paired e.layer.settings.cool := by
  have moves := take_moves h within
  generalize e.take t = e' at moves
  cases moves with
  | still same => rwa [same.mapping]
  | returnBank id other q id_lt other_lt ne away there free mild swap mapping =>
      have reunites := paired.reunites h.mapping other_lt ne there swap
      rcases reunites.there with ⟨there, _⟩
      rw [mapping]
      exact ⟨paired.vaults, reunites.involution paired.banks,
        fun _ _ _ _ => paired.number _ _ there reunites.ne⟩
  | swapBanks id target q id_lt ne needy home found swap mapping =>
      simp only [Mapping.displaced, Bool.or_eq_false_iff, Bool.not_eq_false'] at home
      have cool := (Celsius.isNaN_of_below (bankTarget?_free found).1).2
      rw [mapping]
      exact ⟨paired.vaults, paired.banks.swap?_home home.1 (slot_of_target found) swap,
        fun _ _ _ _ => cool⟩
  | migrateRows id target rows id_lt ne needy found mapping =>
      rcases mapping with ⟨rows, mapping⟩
      rw [mapping]
      exact ⟨paired.vaults, paired.banks, paired.number⟩
  | returnVault v w q v_lt ne away there free swap mapping =>
      rw [mapping]
      have reunites := paired.vaults.reunites ne there swap
      exact ⟨reunites.involution paired.vaults, paired.banks, paired.number⟩
  | swapVaults v w q v_lt ne home free cool swap mapping =>
      rw [mapping]
      exact ⟨paired.vaults.swap?_home home.1 home.2 swap, paired.banks, paired.number⟩
  | returnRows rows =>
      rcases rows.mapping with ⟨rows, mapping⟩
      rw [mapping]
      exact ⟨paired.vaults, paired.banks, paired.number⟩

/-- The recovery of a bank sends nobody home, or the bank and its partner. -/
theorem recoverBank_reunites (h : e.layer.Sound) (id_lt : id < e.layer.geometry.totalBanks)
    (paired : e.layer.mapping.Paired e.layer.settings.cool) :
    (e.recoverBank id).layer.mapping = e.layer.mapping ∨
      ∃ other, BanksReunited e.layer (e.recoverBank id).layer id other := by
  have frame : SameFrame e.layer (e.recoverBank id).layer :=
    (take_change (t := .recoverBank id) h id_lt).frame
  have moves := recoverBank_inv h id_lt
  generalize e.recoverBank id = e' at moves frame
  cases moves with
  | still same => exact .inl same.mapping
  | returnBank _ other q _ other_lt ne away there free mild swap mapping =>
      have reunites := paired.reunites h.mapping other_lt ne there swap
      have number := paired.number _ _ reunites.there.1 reunites.ne
      have places := h.mapping.physicalOf_swapBanks id_lt other_lt swap
      rw [← mapping] at places
      have back : e.layer.mapping.physicalOf id = e.layer.mapping.slotOf other := by
        rw [Mapping.physicalOf, reunites.there.1]
        rfl
      refine .inr ⟨other, ne, by rwa [mapping], ⟨?_, ?_⟩, fun k not_id not_other => ?_, ?_⟩
      · rw [places, if_neg ne, if_pos rfl, there]
      · rw [places, if_pos rfl, back]
      · rw [places, if_neg not_other, if_neg not_id]
      · -- The two exchange their physical banks, neither of which has reached the bound.
        intro k role reading
        rw [temperatureOf, frame.ledger, places] at reading ⊢
        rw [frame.settings]
        refine Celsius.below_of_not_reaches reading number ?_
        rcases role with rfl | rfl
        · rw [if_neg ne, if_pos rfl]
          exact mild.2
        · rw [if_pos rfl]
          exact mild.1

/-- The recovery of a vault sends nobody home, or the vault and its partner. -/
theorem recoverVault_reunites (h : e.layer.Sound) (v_lt : v < e.layer.geometry.vaults)
    (paired : e.layer.mapping.Paired e.layer.settings.cool) :
    (e.recoverVault v).layer.mapping = e.layer.mapping ∨
      ∃ w, VaultsReunited e.layer (e.recoverVault v).layer v w := by
  have moves := recoverVault_inv h v_lt
  generalize e.recoverVault v = e' at moves
  cases moves with
  | still same => exact .inl same.mapping
  | returnVault _ w q _ ne away there free swap mapping =>
      refine .inr ⟨w, ?_, by rw [mapping]⟩
      rw [mapping]
      exact paired.vaults.reunites ne there swap

end Epoch

/-! ## Runs -/

namespace Layer

variable {s : RelocationSettings} {g : Geometry}

/-- Under every policy, banks and vaults are displaced in pairs at all times, also between the turns
of an epoch.  A bank or a vault that goes home does so together with its partner, and after the
return of two banks both are on cool physical banks, if the readings of these are numbers. -/
theorem run_paired (s : RelocationSettings) (g : Geometry) (ops : List Operation) :
    let l := (ofSettings s g).run ops
    (l.mapping.vaults.Involution ∧ l.mapping.banks.Involution) ∧
      ∀ n, ((l.stage n).mapping.vaults.Involution ∧ (l.stage n).mapping.banks.Involution) ∧
        (∀ id, l.turns[n]? = some (.recoverBank id) →
          (l.stage (n + 1)).mapping = (l.stage n).mapping ∨
            ∃ other, BanksReunited (l.stage n) (l.stage (n + 1)) id other) ∧
        ∀ v, l.turns[n]? = some (.recoverVault v) →
          (l.stage (n + 1)).mapping = (l.stage n).mapping ∨
            ∃ w, VaultsReunited (l.stage n) (l.stage (n + 1)) v w := by
  intro l
  have under : l.Under s g := (ofSettings_under s g).run ops
  have keep : ∀ (e : Epoch), ∀ t ∈ s.turns g, e.layer.Under s g → e.layer.mapping.Paired s.cool →
      (e.take t).layer.mapping.Paired s.cool := by
    intro e t member h paired
    have within : t.Within e.layer.geometry := h.geometry ▸ RelocationSettings.turns_within member
    have kept := Epoch.take_paired h.sound within
    rw [h.settings] at kept
    exact kept paired
  have now : l.mapping.Paired s.cool := run_mapping (P := (·.Paired s.cool)) keep
    (Mapping.identity_paired g s.cool) ops
  refine ⟨⟨now.vaults, now.banks⟩, fun n => ?_⟩
  have paired := stage_mapping (P := (·.Paired s.cool)) keep under now n
  have sound := stage_sound under.sound n
  refine ⟨⟨paired.vaults, paired.banks⟩, fun id next => ?_, fun v next => ?_⟩
  · have id_lt := stage_within under.sound next
    rw [← (under.stage n).settings] at paired
    rcases stage_succ next with ⟨e, here, after⟩
    rw [← here] at paired sound id_lt ⊢
    rw [after]
    exact Epoch.recoverBank_reunites sound id_lt paired
  · have v_lt := stage_within under.sound next
    rw [← (under.stage n).settings] at paired
    rcases stage_succ next with ⟨e, here, after⟩
    rw [← here] at paired sound v_lt ⊢
    rw [after]
    exact Epoch.recoverVault_reunites sound v_lt paired

/-- Two banks that have changed place are both cool, and go home together. -/
theorem run_paired_return :
    let l := (ofSettings { policy := .swap } ⟨1, 2, 4⟩).run
      [.setTemperature ⟨0, 0⟩ ⟨90.0⟩, .runEpoch, .setTemperature ⟨0, 0⟩ ⟨50.0⟩, .runEpoch]
    l.turns[0]? = some (.recoverBank 0) ∧ (l.stage 1).mapping ≠ (l.stage 0).mapping ∧
      ∃ other, BanksReunited (l.stage 0) (l.stage 1) 0 other := by
  intro l
  have turn : l.turns[0]? = some (.recoverBank 0) := by decide +kernel
  have moved : (l.stage 1).mapping ≠ (l.stage 0).mapping := by decide +kernel
  have returns := ((run_paired { policy := .swap } ⟨1, 2, 4⟩ _).2 0).2.1 0 turn
  exact ⟨turn, moved, returns.resolve_left moved⟩

end Layer

end StackedCache
