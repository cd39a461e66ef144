import Mathlib.Data.List.Nodup
import StackedCache.Proofs.Relocation.Calm
import StackedCache.Proofs.Relocation.Cooldown
import StackedCache.Proofs.Relocation.Means

/-!
# The choice of a partner

Which partners a hot bank or a hot vault may have is said here apart from the search for one:
`Layer.Candidate` and `Layer.VaultCandidate`.  Temperatures are compared as the floats that they are,
and a vault has the mean of its banks.  The search goes through a filtered range and keeps the first
of the coolest; it finds the best candidate, and nothing only if there is none.

Each turn looks at the layer as the turns before it have left it.  So what is said of a swap is said
of the layer right before its turn, and of the one right after it.
-/

namespace StackedCache

/-! ## The coolest of several -/

namespace Celsius

variable {f : Nat → Celsius} {x y z : Nat} {xs : List Nat}

/-- `t` is less than `u` as floats are, or they are the negative and the positive zero. -/
def Cooler (t u : Celsius) : Prop := t.value < u.value ∨ t = ⟨-0.0⟩ ∧ u = ⟨0.0⟩

/-- `x` is cooler than `y`, or as cool and of no higher number. -/
def Preferred (f : Nat → Celsius) (x y : Nat) : Prop := Cooler (f x) (f y) ∨ f x = f y ∧ x ≤ y

theorem Preferred.congr {f' : Nat → Celsius} (hx : f x = f' x) (hy : f y = f' y)
    (h : Preferred f x y) : Preferred f' x y := by
  rwa [Preferred, hx, hy] at h

/-- `x` comes before `y` in the total order, or at the same place and under no higher number. -/
def Ahead (f : Nat → Celsius) (x y : Nat) : Prop :=
  (f x).order < (f y).order ∨ (f x).order = (f y).order ∧ x ≤ y

theorem Ahead.refl (f : Nat → Celsius) (x : Nat) : Ahead f x x := .inr ⟨rfl, Nat.le_refl x⟩

theorem Ahead.trans (h : Ahead f x y) (h' : Ahead f y z) : Ahead f x z := by
  unfold Ahead at *
  omega

/-- Between numbers, the total order decides who is preferred. -/
theorem Ahead.preferred (hx : (f x).isNaN = false) (hy : (f y).isNaN = false) (h : Ahead f x y) :
    Preferred f x y := by
  rcases h with before | ⟨same, le⟩
  · exact .inl ((order_lt_iff hx hy).1 before)
  · exact .inr ⟨order_inj.1 same, le⟩

theorem coolest?_eq_none_iff : coolest? f xs = Option.none ↔ xs = [] := by
  cases xs with
  | nil => simp [coolest?]
  | cons x xs => simp [coolest?]

/-- In ascending order, the first of the coolest numbers is ahead of all others. -/
theorem coolest?_ahead (ascending : xs.Pairwise (· < ·)) (h : coolest? f xs = some x) :
    ∀ y ∈ xs, Ahead f x y := by
  have kept : ∀ (rest : List Nat) (best : Nat), (best :: rest).Pairwise (· < ·) →
      ∀ y ∈ best :: rest, Ahead f
        (rest.foldl (fun best y => if (f y).order < (f best).order then y else best) best) y := by
    intro rest
    induction rest with
    | nil =>
        intro best _ y member
        cases List.mem_singleton.1 member
        exact .refl f _
    | cons z rest ih =>
        intro best ascending y member
        rw [List.pairwise_cons] at ascending
        have before := ascending.1 z List.mem_cons_self
        rw [List.foldl_cons]
        split
        · rename_i cooler
          have chosen := ih z ascending.2
          rcases List.mem_cons.1 member with rfl | later
          · exact (chosen z List.mem_cons_self).trans (.inl cooler)
          · exact chosen y later
        · rename_i warm
          have rest_ascending := List.pairwise_cons.1 ascending.2
          have chosen := ih best (List.pairwise_cons.2
            ⟨fun k hk => ascending.1 k (List.mem_cons_of_mem _ hk), rest_ascending.2⟩)
          rcases List.mem_cons.1 member with rfl | later
          · exact chosen y List.mem_cons_self
          · rcases List.mem_cons.1 later with rfl | later
            · -- The earlier of two equally cool ones stays.
              refine (chosen best List.mem_cons_self).trans ?_
              unfold Ahead
              omega
            · exact chosen y (List.mem_cons_of_mem _ later)
  cases xs with
  | nil => cases h
  | cons first rest =>
      cases h
      exact kept rest first ascending

/-- If all are numbers, the coolest one is preferred to all others. -/
theorem coolest?_preferred (ascending : xs.Pairwise (· < ·))
    (numbers : ∀ y ∈ xs, (f y).isNaN = false) (h : coolest? f xs = some x) :
    ∀ y ∈ xs, Preferred f x y := fun y member =>
  (coolest?_ahead ascending h y member).preferred (numbers x (coolest?_mem h)) (numbers y member)

end Celsius

/-! ## Candidates -/

namespace Layer

variable {l l' : Layer} {id c v w : Nat}

/-- A bank that has to change place: it is hot, in use and at home, and neither the bank nor its vault
is in its cooldown. -/
structure HotBank (l : Layer) (id : Nat) : Prop where
  hot : l.settings.high.value ≤ (l.temperatureOf id).value
  used : l.idDisabled id = false
  home : l.mapping.displaced id = false
  free : l.bankFrozen id = false
  vaultFree : l.vaultFrozen (l.geometry.vaultOf id) = false

/-- A physical bank that a hot bank may come to: it is another cool one in the same physical vault,
or in any vault if that is allowed, and its logical bank is in use, at home and out of its cooldown. -/
structure Candidate (l : Layer) (id c : Nat) : Prop where
  range : c < l.geometry.totalBanks
  ne : c ≠ l.mapping.physicalOf id
  scope : l.settings.interVault = true ∨
    l.geometry.vaultOf c = l.geometry.vaultOf (l.mapping.physicalOf id)
  cool : (l.ledger.temperature c).value < l.settings.cool.value
  used : l.idDisabled (l.mapping.logicalOf c) = false
  home : l.mapping.displaced (l.mapping.logicalOf c) = false
  free : l.bankFrozen (l.mapping.logicalOf c) = false

/-- A vault that has to change place. -/
structure HotVault (l : Layer) (v : Nat) : Prop where
  hot : l.settings.high.value ≤ (l.vaultMean v).value
  used : l.vaultDisabled v = false
  home : l.mapping.vaults.fixes v = true
  free : l.vaultFrozen v = false

/-- A vault that a hot vault may change place with. -/
structure VaultCandidate (l : Layer) (v w : Nat) : Prop where
  range : w < l.geometry.vaults
  ne : w ≠ v
  cool : (l.vaultMean w).value < l.settings.cool.value
  used : l.vaultDisabled w = false
  home : l.mapping.vaults.fixes w = true
  free : l.vaultFrozen w = false

/-- A hot bank has changed place with the owner of its best candidate, and no other bank has moved. -/
structure BankSwap (l l' : Layer) (id other : Nat) : Prop where
  hot : l.HotBank id
  candidate : l.Candidate id (l.mapping.physicalOf other)
  owner : l.mapping.logicalOf (l.mapping.physicalOf other) = other
  best : ∀ c, l.Candidate id c →
    Celsius.Preferred l.ledger.temperature (l.mapping.physicalOf other) c
  places : l'.mapping.physicalOf id = l.mapping.physicalOf other ∧
    l'.mapping.physicalOf other = l.mapping.physicalOf id
  others : ∀ k, k ≠ id → k ≠ other → l'.mapping.physicalOf k = l.mapping.physicalOf k

/-- A hot vault has changed place with its best candidate, bank by bank, and no bank of another vault
has moved. -/
structure VaultSwap (l l' : Layer) (v w : Nat) : Prop where
  hot : l.HotVault v
  candidate : l.VaultCandidate v w
  best : ∀ c, l.VaultCandidate v c → Celsius.Preferred l.vaultMean w c
  places : ∀ b < l.geometry.banks,
    l'.mapping.physicalOf (l.geometry.bankId ⟨v, b⟩) =
        l.mapping.physicalOf (l.geometry.bankId ⟨w, b⟩) ∧
      l'.mapping.physicalOf (l.geometry.bankId ⟨w, b⟩) =
        l.mapping.physicalOf (l.geometry.bankId ⟨v, b⟩)
  others : ∀ k, l.geometry.vaultOf k ≠ v → l.geometry.vaultOf k ≠ w →
    l'.mapping.physicalOf k = l.mapping.physicalOf k

end Layer

/-! ## The search -/

namespace Epoch

open Layer

variable {e : Epoch} {id c v w target : Nat}

theorem scope_ascending (e : Epoch) (hot : Nat) : (e.scope hot).Pairwise (· < ·) := by
  unfold Epoch.scope
  split
  · exact List.pairwise_lt_range
  · refine List.pairwise_lt_range.map _ fun a b lt => ?_
    simp only [Geometry.bankId]
    omega

theorem mem_scope (hot_lt : v < e.layer.geometry.totalBanks) :
    c ∈ e.scope v ↔ c < e.layer.geometry.totalBanks ∧
      (e.layer.settings.interVault = true ∨
        e.layer.geometry.vaultOf c = e.layer.geometry.vaultOf v) := by
  constructor
  · intro member
    have c_lt := scope_lt hot_lt member
    refine ⟨c_lt, ?_⟩
    unfold Epoch.scope at member
    split at member
    · exact .inl ‹_›
    · exact .inr ((Geometry.mem_bankIdsOf c_lt).1 member)
  · rintro ⟨c_lt, scope⟩
    unfold Epoch.scope
    split
    · exact Geometry.mem_bankIds.2 c_lt
    · rename_i inter
      exact (Geometry.mem_bankIdsOf c_lt).2 (scope.resolve_left inter)

/-- The banks that the search goes through are the candidates. -/
theorem mem_targets (h : e.layer.Sound) (id_lt : id < e.layer.geometry.totalBanks) :
    c ∈ (e.scope (e.layer.mapping.physicalOf id)).filter
        (e.bankEligible true (e.layer.mapping.physicalOf id)) ↔ e.layer.Candidate id c := by
  rw [List.mem_filter, mem_scope (h.mapping.physicalOf_lt id_lt)]
  simp only [bankEligible, Bool.true_and, Bool.and_eq_true, decide_eq_true_iff, Bool.not_eq_true']
  constructor
  · rintro ⟨⟨range, scope⟩, ⟨⟨⟨ne, cool⟩, used⟩, free⟩, home⟩
    exact ⟨range, ne, scope, Celsius.below_iff.1 cool, used, home, free⟩
  · rintro ⟨range, ne, scope, cool, used, home, free⟩
    exact ⟨⟨range, scope⟩, ⟨⟨⟨ne, Celsius.below_iff.2 cool⟩, used⟩, free⟩, home⟩

/-- The search finds the best candidate. -/
theorem bankTarget?_best (h : e.layer.Sound) (id_lt : id < e.layer.geometry.totalBanks)
    (found : e.bankTarget? true (e.layer.mapping.physicalOf id) = some target) :
    e.layer.Candidate id target ∧
      ∀ c, e.layer.Candidate id c → Celsius.Preferred e.layer.ledger.temperature target c := by
  have ascending := (e.scope_ascending (e.layer.mapping.physicalOf id)).filter
    (e.bankEligible true (e.layer.mapping.physicalOf id))
  refine ⟨(mem_targets h id_lt).1 (Celsius.coolest?_mem found), fun c candidate => ?_⟩
  refine Celsius.coolest?_preferred ascending (fun c member => ?_) found c
    ((mem_targets h id_lt).2 candidate)
  exact (Celsius.isNaN_of_below (Celsius.below_iff.2 ((mem_targets h id_lt).1 member).cool)).1

/-- The search finds nothing only if there is no candidate. -/
theorem bankTarget?_none (h : e.layer.Sound) (id_lt : id < e.layer.geometry.totalBanks) :
    e.bankTarget? true (e.layer.mapping.physicalOf id) = none ↔ ∀ c, ¬e.layer.Candidate id c := by
  rw [bankTarget?, Celsius.coolest?_eq_none_iff, List.eq_nil_iff_forall_not_mem]
  simp only [mem_targets h id_lt]

/-- The vaults that the search goes through are the candidates. -/
theorem mem_vaultTargets (h : e.layer.Sound) (measured : e.layer.Measured) :
    w ∈ (List.range e.layer.geometry.vaults).filter (e.vaultEligible v) ↔
      e.layer.VaultCandidate v w := by
  rw [List.mem_filter, List.mem_range]
  simp only [vaultEligible, Bool.and_eq_true, decide_eq_true_iff, Option.any_eq_true,
    Bool.not_eq_true']
  constructor
  · rintro ⟨range, ⟨ne, cool⟩, owner, source, ⟨home, used⟩, free⟩
    -- The logical vault on the target is at home, so it is the target.
    have there := (h.mapping.vaults.agree owner w).2 source
    cases (Permutation.fixes_iff.1 home).symm.trans there
    rw [measured.vaultTemperature range, Celsius.below_iff] at cool
    exact ⟨range, ne, cool, used, home, free⟩
  · rintro ⟨range, ne, cool, used, home, free⟩
    have source := (h.mapping.vaults.agree w w).1 (Permutation.fixes_iff.1 home)
    rw [← Celsius.below_iff, ← measured.vaultTemperature range] at cool
    exact ⟨range, ⟨ne, cool⟩, w, source, ⟨home, used⟩, free⟩

theorem vaultTarget?_best (h : e.layer.Sound) (measured : e.layer.Measured)
    (found : e.vaultTarget? v = some target) :
    e.layer.VaultCandidate v target ∧
      ∀ c, e.layer.VaultCandidate v c → Celsius.Preferred e.layer.vaultMean target c := by
  have ascending : ((List.range e.layer.geometry.vaults).filter (e.vaultEligible v)).Pairwise
      (· < ·) := List.pairwise_lt_range.filter _
  have best := (mem_vaultTargets h measured).1 (Celsius.coolest?_mem found)
  refine ⟨best, fun c candidate => ?_⟩
  have numbers : ∀ c ∈ (List.range e.layer.geometry.vaults).filter (e.vaultEligible v),
      (e.layer.ledger.vaultTemperature c).isNaN = false := by
    intro c member
    have candidate := (mem_vaultTargets h measured).1 member
    rw [measured.vaultTemperature candidate.range]
    exact (Celsius.isNaN_of_below (Celsius.below_iff.2 candidate.cool)).1
  exact (Celsius.coolest?_preferred ascending numbers found c
    ((mem_vaultTargets h measured).2 candidate)).congr
      (measured.vaultTemperature best.range) (measured.vaultTemperature candidate.range)

theorem vaultTarget?_none (h : e.layer.Sound) (measured : e.layer.Measured) :
    e.vaultTarget? v = none ↔ ∀ c, ¬e.layer.VaultCandidate v c := by
  rw [vaultTarget?, Celsius.coolest?_eq_none_iff, List.eq_nil_iff_forall_not_mem]
  simp only [mem_vaultTargets h measured]

end Epoch

/-! ## The turn of a hot bank or vault -/

/-- All banks have readings, and no reading, no mean and no upper threshold is NaN. -/
structure Layer.Numeric (l : Layer) : Prop where
  measured : l.Measured
  readings : ∀ id < l.geometry.totalBanks, (l.ledger.temperature id).isNaN = false
  means : ∀ v < l.geometry.vaults, (l.vaultMean v).isNaN = false
  high : l.settings.high.isNaN = false

theorem Layer.Numeric.frame {l l' : Layer} (h : l.Numeric) (frame : SameFrame l l') :
    l'.Numeric := by
  rcases h with ⟨measured, readings, means, high⟩
  rw [← frame.geometry, ← frame.ledger] at readings
  rw [← frame.geometry, ← vaultMean_frame frame] at means
  rw [← frame.settings] at high
  exact ⟨measured.frame frame, readings, means, high⟩

/-- An exchange of two vaults exchanges the places of their banks. -/
theorem Mapping.physicalOf_swapVaults_place {m : Mapping} {q : Permutation} {v w b : Nat}
    (swap : m.vaults.swap? v w = some q) (hb : b < m.geometry.banks) :
    ({ m with vaults := q } : Mapping).physicalOf (m.geometry.bankId ⟨v, b⟩) =
        m.physicalOf (m.geometry.bankId ⟨w, b⟩) ∧
      ({ m with vaults := q } : Mapping).physicalOf (m.geometry.bankId ⟨w, b⟩) =
        m.physicalOf (m.geometry.bankId ⟨v, b⟩) := by
  rcases Permutation.targets_of_swap? swap with ⟨x, y, hx, hy⟩
  have slot : ∀ (p : Permutation) {u z : Nat}, p.target? u = some z →
      ({ m with vaults := p } : Mapping).slotOf (m.geometry.bankId ⟨u, b⟩) =
        m.geometry.bankId ⟨z, b⟩ := by
    intro p u z found
    have place : m.geometry.bankAt (m.geometry.bankId ⟨u, b⟩) = ⟨u, b⟩ :=
      m.geometry.bankAt_bankId hb
    simp only [slotOf, place, found, Option.getD_some]
  have first : q.target? v = some y := by
    rw [Permutation.target?_swap? swap]
    split
    · rename_i same
      rw [← hy, same]
    · rw [if_pos rfl, hy]
  have second : q.target? w = some x := by
    rw [Permutation.target?_swap? swap, if_pos rfl, hx]
  simp only [physicalOf, slot q first, slot q second, slot m.vaults hx, slot m.vaults hy, and_self]

namespace Epoch

open Layer

variable {e e' : Epoch} {id c v w target : Nat} {t : Turn}

/-- Among numbers, the banks at home that need relief are the hot ones. -/
theorem hotBank_iff (numeric : e.layer.Numeric) (h : e.layer.Sound)
    (id_lt : id < e.layer.geometry.totalBanks) :
    e.layer.HotBank id ↔ e.bankNeedsRelief id = true ∧ e.layer.mapping.displaced id = false := by
  simp only [bankNeedsRelief, Bool.and_eq_true, Bool.not_eq_true']
  constructor
  · rintro ⟨hot, used, home, free, vaultFree⟩
    exact ⟨⟨⟨⟨used, free⟩, vaultFree⟩,
      Celsius.below_of_reaches (Celsius.reaches_iff.2 hot)⟩, home⟩
  · rintro ⟨⟨⟨⟨used, free⟩, vaultFree⟩, warm⟩, home⟩
    have number := numeric.readings _ (h.mapping.physicalOf_lt id_lt)
    have hot := Celsius.reaches_of_not_below number numeric.high warm
    exact ⟨Celsius.reaches_iff.1 hot, used, home, free, vaultFree⟩

theorem hotVault_iff (numeric : e.layer.Numeric) (v_lt : v < e.layer.geometry.vaults) :
    e.layer.HotVault v ↔ e.vaultNeedsRelief v = true := by
  simp only [vaultNeedsRelief, Bool.and_eq_true, Bool.not_eq_true',
    numeric.measured.vaultTemperature v_lt]
  constructor
  · rintro ⟨hot, used, home, free⟩
    exact ⟨⟨⟨used, free⟩, home⟩, Celsius.below_of_reaches (Celsius.reaches_iff.2 hot)⟩
  · rintro ⟨⟨⟨used, free⟩, home⟩, warm⟩
    have hot := Celsius.reaches_of_not_below (numeric.means v v_lt) numeric.high warm
    exact ⟨Celsius.reaches_iff.1 hot, used, home, free⟩

theorem bankSwap_of_exchange {q : Permutation} (h : e.layer.Sound)
    (id_lt : id < e.layer.geometry.totalBanks) (hot : e.layer.HotBank id)
    (found : e.bankTarget? true (e.layer.mapping.physicalOf id) = some target)
    (swap : e.layer.mapping.banks.swap? (e.layer.mapping.slotOf id)
      (e.layer.mapping.slotOf (e.layer.mapping.logicalOf target)) = some q)
    (mapping : e'.layer.mapping = { e.layer.mapping with banks := q }) :
    e.layer.BankSwap e'.layer id (e.layer.mapping.logicalOf target) := by
  rcases bankTarget?_best h id_lt found with ⟨candidate, best⟩
  have other_lt : e.layer.mapping.logicalOf target < e.layer.geometry.totalBanks :=
    h.mapping.logicalOf_lt candidate.range
  have physical := h.mapping.physicalOf_swapBanks id_lt other_lt swap
  have ne : id ≠ e.layer.mapping.logicalOf target := (swapBanks_exchange h id_lt found).2.1
  have there := h.mapping.physicalOf_logicalOf target
  rw [← mapping] at physical
  refine ⟨hot, there.symm ▸ candidate, h.mapping.logicalOf_physicalOf _, there.symm ▸ best,
    ⟨?_, ?_⟩, fun k not_id not_other => ?_⟩
  · rw [physical, if_neg ne, if_pos rfl]
  · rw [physical, if_pos rfl]
  · rw [physical, if_neg not_other, if_neg not_id]

/-- What a report says of a hot bank without a candidate. -/
def bankFault (e : Epoch) (id : Nat) : RelocationFault :=
  .noTarget (e.place id).vault (e.place id).bank (e.layer.temperatureOf id)

/-- In its turn a hot bank changes place, or there is no candidate and that is reported. -/
theorem relieveBank_hot (h : e.layer.Sound) (id_lt : id < e.layer.geometry.totalBanks)
    (numeric : e.layer.Numeric) (hot : e.layer.HotBank id) :
    (∃ other, e.layer.BankSwap (relieveBank .swapping e id).layer id other ∧
      (relieveBank .swapping e id).report.bankSwaps =
        e.report.bankSwaps ++ [(e.place id, e.place other)]) ∨
      (∀ c, ¬e.layer.Candidate id c) ∧
        (relieveBank .swapping e id).report.failures = e.report.failures ++ [e.bankFault id] := by
  rcases (hotBank_iff numeric h id_lt).1 hot with ⟨needy, home⟩
  cases found : e.bankTarget? true (e.layer.mapping.physicalOf id) with
  | none =>
      refine .inr ⟨(bankTarget?_none h id_lt).1 found, ?_⟩
      simp only [relieveBank, needy, if_true, attemptRelief, home, found, Bool.false_eq_true,
        if_false, Bool.not_false, Bool.true_and]
      split <;> rfl
  | some target =>
      rcases swapBanks_exchange h id_lt found with ⟨_, _, q, c, swap, moved⟩
      have turn : relieveBank .swapping e id = e.swapBanks id (e.layer.mapping.logicalOf target) := by
        simp only [relieveBank, needy, if_true, attemptRelief, home, found, Bool.false_eq_true,
          if_false, Bool.not_true, Bool.false_and]
      rw [turn]
      refine .inl ⟨_, bankSwap_of_exchange h id_lt hot found swap ?_,
        congrArg Prod.fst (swapBanks_moves swap)⟩
      rw [moved]
      rfl

/-- A turn reports no swap of banks, or that of a hot bank with the owner of its best candidate. -/
theorem take_bankSwaps (h : e.layer.Sound) (within : t.Within e.layer.geometry)
    (numeric : e.layer.Numeric) :
    (e.take t).report.bankSwaps = e.report.bankSwaps ∨
      ∃ id other, t = .relieveBank .swapping id ∧ e.layer.BankSwap (e.take t).layer id other ∧
        (e.take t).report.bankSwaps = e.report.bankSwaps ++ [(e.place id, e.place other)] := by
  have moves := take_moves h within
  generalize e.take t = e' at moves
  cases moves with
  | still same => exact .inl (congrArg Prod.fst same.moves)
  | swapBanks id target q id_lt ne needy home found swap mapping marked moves =>
      have hot := (hotBank_iff numeric h id_lt).2 ⟨needy, home⟩
      exact .inr ⟨id, _, rfl, bankSwap_of_exchange h id_lt hot found swap mapping,
        congrArg Prod.fst moves⟩
  | returnRows only => exact .inl (congrArg Prod.fst only.moves)
  | returnBank id other q id_lt other_lt ne away there free mild swap mapping marked moves =>
      exact .inl (congrArg Prod.fst moves)
  | migrateRows id target rows id_lt ne needy found mapping marked moves =>
      exact .inl (congrArg Prod.fst moves)
  | returnVault v w q v_lt ne away there free swap mapping marked moves =>
      exact .inl (congrArg Prod.fst moves)
  | swapVaults v w q v_lt ne home free cool swap mapping marked moves =>
      exact .inl (congrArg Prod.fst moves)

theorem vaultSwap_of_exchange {q : Permutation} (h : e.layer.Sound) (measured : e.layer.Measured)
    (hot : e.layer.HotVault v) (found : e.vaultTarget? v = some w)
    (swap : e.layer.mapping.vaults.swap? v w = some q)
    (mapping : e'.layer.mapping = { e.layer.mapping with vaults := q }) :
    e.layer.VaultSwap e'.layer v w := by
  rcases vaultTarget?_best h measured found with ⟨candidate, best⟩
  refine ⟨hot, candidate, best, fun b hb => ?_, fun k not_v not_w => ?_⟩
  · rw [mapping]
    exact Mapping.physicalOf_swapVaults_place swap hb
  · rw [mapping]
    exact Mapping.physicalOf_swapVaults swap not_v not_w

/-- The turn of a vault that is not hot does nothing. -/
theorem relieveVault_mild (numeric : e.layer.Numeric) (v_lt : v < e.layer.geometry.vaults)
    (mild : ¬e.layer.HotVault v) : e.relieveVault v = e := by
  have needless : e.vaultNeedsRelief v = false := by
    rwa [hotVault_iff numeric v_lt, Bool.not_eq_true] at mild
  rw [relieveVault, needless]
  rfl

theorem vaultsMoved_mapping (e : Epoch) (v w : Nat) :
    (e.vaultsMoved v w).layer.mapping = e.layer.mapping := by
  have first : (e.vaultMoved v).layer.mapping = e.layer.mapping := vaultMoved_mapping e.layer v
  exact (vaultMoved_mapping (e.vaultMoved v).layer w).trans first

theorem swapVaults_mapping {q : Permutation}
    (swap : e.layer.mapping.vaults.swap? v w = some q) :
    (e.swapVaults v w).layer.mapping = { e.layer.mapping with vaults := q } := by
  have moved := vaultsMoved_mapping (e.withMapping { e.layer.mapping with vaults := q }) v w
  simp only [swapVaults, swap]
  generalize (e.withMapping _).vaultsMoved v w = e' at moved ⊢
  exact moved

theorem swapVaults_vaultSwaps {q : Permutation}
    (swap : e.layer.mapping.vaults.swap? v w = some q) :
    (e.swapVaults v w).report.vaultSwaps = e.report.vaultSwaps ++ [(v, w)] := by
  simp only [swapVaults, swap]
  rfl

/-- In its turn a hot vault changes place, or there is no candidate and that is reported. -/
theorem relieveVault_hot (h : e.layer.Sound) (v_lt : v < e.layer.geometry.vaults)
    (numeric : e.layer.Numeric) (hot : e.layer.HotVault v) :
    (∃ w, e.layer.VaultSwap (e.relieveVault v).layer v w ∧
      (e.relieveVault v).report.vaultSwaps = e.report.vaultSwaps ++ [(v, w)]) ∨
      (∀ c, ¬e.layer.VaultCandidate v c) ∧
        e.relieveVault v = e.fail (.noVaultTarget v (e.layer.vaultMean v)) := by
  have needy := (hotVault_iff numeric v_lt).1 hot
  cases found : e.vaultTarget? v with
  | none =>
      refine .inr ⟨(vaultTarget?_none h numeric.measured).1 found, ?_⟩
      simp only [relieveVault, needy, if_true, found, numeric.measured.vaultTemperature v_lt]
  | some w =>
      have w_lt := (vaultTarget?_best h numeric.measured found).1.range
      have source := (vaultTarget?_free h found).1
      rcases Permutation.exists_swap? h.mapping.vaults v_lt w_lt with ⟨q, swap⟩
      have turn : e.relieveVault v = e.swapVaults v w := by
        simp only [relieveVault, needy, if_true, found, source, Option.getD_some]
      rw [turn]
      exact .inl ⟨w, vaultSwap_of_exchange h numeric.measured hot found swap (swapVaults_mapping swap),
        swapVaults_vaultSwaps swap⟩

/-- Only turns that relieve vaults report swaps of vaults. -/
theorem Moves.vaultSwaps_eq (moves : Moves e t e') (other : ∀ v, t ≠ .relieveVault v) :
    e'.report.vaultSwaps = e.report.vaultSwaps := by
  cases moves with
  | still same => exact congrArg (·.2.2) same.moves
  | returnRows only => exact congrArg (·.2.2) only.moves
  | returnBank id partner q id_lt partner_lt ne away there free mild swap mapping marked moves =>
      exact congrArg (·.2.2) moves
  | swapBanks id target q id_lt ne needy home found swap mapping marked moves =>
      exact congrArg (·.2.2) moves
  | migrateRows id target rows id_lt ne needy found mapping marked moves =>
      exact congrArg (·.2.2) moves
  | returnVault v w q v_lt ne away there free swap mapping marked moves =>
      exact congrArg (·.2.2) moves
  | swapVaults v => exact absurd rfl (other v)

/-- A turn reports no swap of vaults, or that of a hot vault with its best candidate. -/
theorem take_vaultSwaps (h : e.layer.Sound) (within : t.Within e.layer.geometry)
    (numeric : e.layer.Numeric) :
    (e.take t).report.vaultSwaps = e.report.vaultSwaps ∨
      ∃ v w, t = .relieveVault v ∧ e.layer.VaultSwap (e.take t).layer v w ∧
        (e.take t).report.vaultSwaps = e.report.vaultSwaps ++ [(v, w)] := by
  by_cases relief : ∃ v, t = .relieveVault v
  · rcases relief with ⟨v, rfl⟩
    rw [take]
    by_cases hot : e.layer.HotVault v
    · rcases relieveVault_hot h within numeric hot with ⟨w, swap, reported⟩ | ⟨_, failed⟩
      · exact .inr ⟨v, w, rfl, swap, reported⟩
      · exact .inl (by rw [failed]; rfl)
    · exact .inl (by rw [relieveVault_mild numeric within hot])
  · exact .inl ((take_moves h within).vaultSwaps_eq fun v same => relief ⟨v, same⟩)

end Epoch

/-! ## Failures -/

/-- The bank or the vault that a failure is about. -/
def RelocationFault.subject? (g : Geometry) : RelocationFault → Option Entity
  | .noTarget vault bank _ => some (.bank (g.bankId ⟨vault, bank⟩))
  | .noVaultTarget vault _ => some (.vault vault)
  | .outOfRange _ _ => none

/-- The failures of a report that are about a bank or a vault. -/
def Report.failuresOf (r : Report) (g : Geometry) (x : Entity) : List RelocationFault :=
  r.failures.filter fun fault => fault.subject? g = some x

/-- The bank or the vault that a turn relieves. -/
def Turn.relieves? : Turn → Option Entity
  | .relieveBank _ id => some (.bank id)
  | .relieveVault v => some (.vault v)
  | .switchBank _ | .switchVault _ | .recoverBank _ | .recoverVault _ | .recoverRows => none

namespace Epoch

variable {s : RelocationSettings} {g : Geometry} {e e' : Epoch} {id v : Nat} {t : Turn} {x : Entity}

theorem recoverRows_failures (e : Epoch) :
    e.recoverRows.report.failures = e.report.failures := by
  have same := returnRowsToAll_report e.layer.mapping.rows.keys { epoch := e }
  have kept := congrArg Report.failures same
  exact kept

/-- A failure in the turn of a bank is about that bank. -/
theorem relieveBank_failures (e : Epoch) (relief : Relief) (id : Nat) :
    ∃ faults, (relieveBank relief e id).report.failures = e.report.failures ++ faults ∧
      ∀ fault ∈ faults, fault.subject? e.layer.geometry = some (.bank id) := by
  have noted : ∀ {e'}, e' = e ∨ e' = e.failBank id →
      ∃ faults, e'.report.failures = e.report.failures ++ faults ∧
        ∀ fault ∈ faults, fault.subject? e.layer.geometry = some (.bank id) := by
    rintro e' (rfl | rfl)
    · exact ⟨[], (List.append_nil _).symm, by simp⟩
    · refine ⟨[e.bankFault id], rfl, fun fault member => ?_⟩
      cases List.mem_singleton.1 member
      exact congrArg (fun i => some (Entity.bank i)) (e.layer.geometry.bankId_bankAt id)
  have outcome := relieveBank_outcome relief e id
  generalize relieveBank relief e id = e' at outcome
  cases outcome with
  | notNeeded calm => exact noted (.inl rfl)
  | borne failed needy mild => exact noted failed
  | givenUp failed needy dangerous =>
      rw [disableBank_report]
      exact noted failed
  | swapped target needy home found =>
      refine ⟨[], ?_, by simp⟩
      rw [List.append_nil]
      unfold swapBanks
      dsimp only
      split <;> rfl
  | migrated target needy found =>
      refine ⟨[], ?_, by simp⟩
      rw [List.append_nil]
      have same := through_exchangeRow_report id (e.layer.mapping.logicalOf target)
        (e.layer.mapping.physicalOf id) target (e.rowsToMove id) e
      have kept := congrArg Report.failures same
      exact kept

theorem relieveVault_failures (e : Epoch) (v : Nat) :
    ∃ faults, (e.relieveVault v).report.failures = e.report.failures ++ faults ∧
      ∀ fault ∈ faults, fault.subject? e.layer.geometry = some (.vault v) := by
  have silent : ∀ {e' : Epoch}, e'.report.failures = e.report.failures →
      ∃ faults, e'.report.failures = e.report.failures ++ faults ∧
        ∀ fault ∈ faults, fault.subject? e.layer.geometry = some (.vault v) :=
    fun same => ⟨[], same.trans (List.append_nil _).symm, by simp⟩
  unfold relieveVault
  split
  · cases e.vaultTarget? v with
    | none =>
        refine ⟨[.noVaultTarget v (e.layer.ledger.vaultTemperature v)], rfl, fun fault member => ?_⟩
        cases List.mem_singleton.1 member
        rfl
    | some target =>
        refine silent ?_
        unfold swapVaults
        dsimp only
        split <;> rfl
  · exact silent rfl

/-- A turn reports failures only about the bank or the vault that it relieves. -/
theorem take_failuresOf (other : t.relieves? ≠ some x) :
    (e.take t).report.failuresOf e.layer.geometry x = e.report.failuresOf e.layer.geometry x := by
  have appended : ∀ {e' : Epoch}, (∃ faults, e'.report.failures = e.report.failures ++ faults ∧
      ∀ fault ∈ faults, fault.subject? e.layer.geometry = t.relieves?) →
      e'.report.failuresOf e.layer.geometry x = e.report.failuresOf e.layer.geometry x := by
    rintro e' ⟨faults, failures, about⟩
    have none : faults.filter (fun fault => fault.subject? e.layer.geometry = some x) = [] := by
      refine List.filter_eq_nil_iff.2 fun fault member => ?_
      rw [about fault member]
      simpa using other
    rw [Report.failuresOf, failures, List.filter_append, none, List.append_nil, Report.failuresOf]
  have silent : ∀ {e' : Epoch}, e'.report.failures = e.report.failures →
      e'.report.failuresOf e.layer.geometry x = e.report.failuresOf e.layer.geometry x :=
    fun same => congrArg (List.filter _) same
  cases t with
  | relieveBank relief id => exact appended (relieveBank_failures e relief id)
  | relieveVault v => exact appended (relieveVault_failures e v)
  | recoverBank id =>
      rcases recoverBank_report e id with ⟨banks, same⟩
      exact silent (by rw [take, same])
  | recoverVault v =>
      rcases recoverVault_report e v with ⟨vaults, same⟩
      exact silent (by rw [take, same])
  | recoverRows => exact silent (recoverRows_failures e)
  | switchBank id =>
      refine silent ?_
      simp only [take, switchBank]
      split
      · split <;> rfl
      · split
        · rw [disableBank_report]
        · rfl
  | switchVault v =>
      refine silent ?_
      simp only [take, switchVault]
      split
      · split <;> rfl
      · split <;> rfl

theorem takeAll_failuresOf {turns : List Turn} (h : e.layer.Under s g)
    (within : ∀ t ∈ turns, t.Within g) (others : ∀ t ∈ turns, t.relieves? ≠ some x) :
    (e.takeAll turns).report.failuresOf g x = e.report.failuresOf g x := by
  induction turns generalizing e with
  | nil => rfl
  | cons t turns ih =>
      have within_t := within t List.mem_cons_self
      have under : (e.take t).layer.Under s g :=
        h.changes (.single (take_change h.sound (h.geometry ▸ within_t)))
      have first := take_failuresOf (e := e) (others t List.mem_cons_self)
      rw [h.geometry] at first
      have rest := ih under (fun u hu => within u (List.mem_cons_of_mem _ hu))
        fun u hu => others u (List.mem_cons_of_mem _ hu)
      exact rest.trans first

end Epoch

/-! ## Runs -/

/-- The banks or vaults that a pass relieves. -/
def Pass.relieved (g : Geometry) : Pass → List Entity
  | relieveVaults => (List.range g.vaults).map .vault
  | relieveBanks _ => g.bankIds.map .bank
  | switchBanks | switchVaults | recoverBanks | recoverVaults | recoverRows => []

theorem Pass.filterMap_relieves (p : Pass) (g : Geometry) :
    (p.turns g).filterMap Turn.relieves? = p.relieved g := by
  cases p <;> simp [Pass.turns, Pass.relieved, Turn.relieves?, List.filterMap_map, Function.comp_def]

theorem RelocationSettings.filterMap_relieves (s : RelocationSettings) (g : Geometry) :
    (s.turns g).filterMap Turn.relieves? = s.passes.flatMap (Pass.relieved g) := by
  simp only [RelocationSettings.turns, List.filterMap_flatMap, Pass.filterMap_relieves]

/-- Under the policy that swaps, no bank and no vault is relieved twice in an epoch. -/
theorem RelocationSettings.relieves_nodup {s : RelocationSettings} (policy : s.policy = .swap)
    (g : Geometry) : ((s.turns g).filterMap Turn.relieves?).Nodup := by
  have banks : (g.bankIds.map Entity.bank).Nodup :=
    List.nodup_range.map fun _ _ same => Entity.bank.inj same
  have vaults : ((List.range g.vaults).map Entity.vault).Nodup :=
    List.nodup_range.map fun _ _ same => Entity.vault.inj same
  rw [filterMap_relieves]
  cases scope : s.interVault with
  | false => simpa [passes, policy, scope, Pass.relieved] using banks
  | true =>
      have apart : ∀ x ∈ (List.range g.vaults).map Entity.vault,
          ∀ y ∈ g.bankIds.map Entity.bank, x ≠ y := by
        intro x vault y bank same
        rcases List.mem_map.1 vault with ⟨v, _, rfl⟩
        rcases List.mem_map.1 bank with ⟨id, _, rfl⟩
        cases same
      simpa [passes, policy, scope, Pass.relieved] using
        List.nodup_append.2 ⟨vaults, banks, apart⟩

namespace Layer

open Epoch

variable {s : RelocationSettings} {g : Geometry} {l : Layer} {n m : Nat} {t : Turn} {x : Entity}

theorem Numeric.stage (numeric : l.Numeric) (h : l.Sound) (n : Nat) : (l.stage n).Numeric :=
  have next : l.nextEpoch.layer.Numeric :=
    ⟨numeric.measured.nextEpoch, numeric.readings, numeric.means, numeric.high⟩
  next.frame (changes_frame (stage_changes h n))

/-- The turns before and after the one that relieves a bank or a vault do not relieve it. -/
theorem relieves_once (h : l.Under s g) (policy : s.policy = .swap) (next : l.turns[n]? = some t)
    (relieves : t.relieves? = some x) :
    (∀ u ∈ l.turns.take n, u.relieves? ≠ some x) ∧
      ∀ u ∈ l.turns.drop (n + 1), u.relieves? ≠ some x := by
  have nodup : (l.turns.filterMap Turn.relieves?).Nodup := by
    unfold turns
    split
    · exact RelocationSettings.relieves_nodup (h.settings ▸ policy) _
    · exact List.nodup_nil
  rcases List.getElem?_eq_some_iff.1 next with ⟨n_lt, rfl⟩
  have parts : l.turns = l.turns.take n ++ l.turns[n] :: l.turns.drop (n + 1) := by
    rw [← List.drop_eq_getElem_cons n_lt, List.take_append_drop]
  rw [parts, List.filterMap_append, List.filterMap_cons_some relieves, List.nodup_middle,
    List.nodup_cons, List.mem_append, not_or] at nodup
  have apart : ∀ {turns : List Turn}, x ∉ turns.filterMap Turn.relieves? →
      ∀ u ∈ turns, u.relieves? ≠ some x := fun absent u member same =>
    absent (List.mem_filterMap.2 ⟨u, member, same⟩)
  exact ⟨apart nodup.1.1, apart nodup.1.2⟩

/-- A failure in the turn of a bank or a vault is the only one that an epoch reports about it. -/
theorem runEpoch_failuresOf (h : l.Under s g) (policy : s.policy = .swap)
    (next : l.turns[n]? = some t) (relieves : t.relieves? = some x) {fault : RelocationFault}
    (about : fault.subject? g = some x)
    (failed : ((l.epochAt n).take t).report.failures = (l.epochAt n).report.failures ++ [fault]) :
    l.runEpoch.1.failuresOf g x = [fault] := by
  rcases relieves_once h policy next relieves with ⟨before, after⟩
  have within : ∀ u ∈ l.turns, u.Within g := fun u member => h.geometry ▸ turns_within member
  have early : (l.epochAt n).report.failuresOf g x = [] :=
    takeAll_failuresOf h.nextEpoch (fun u member => within u (List.mem_of_mem_take member)) before
  have now : (l.epochAt (n + 1)).report.failuresOf g x = [fault] := by
    rw [epochAt_succ next, Report.failuresOf, failed, List.filter_append]
    simp [show List.filter _ _ = [] from early, about]
  have rest : l.epochAt l.turns.length = (l.epochAt (n + 1)).takeAll (l.turns.drop (n + 1)) := by
    rw [epochAt, epochAt, ← takeAll_append, List.take_length, List.take_append_drop]
  rw [runEpoch_report h.sound, rest, ← now]
  exact takeAll_failuresOf (h.stage (n + 1))
    (fun u member => within u (List.mem_of_mem_drop member)) after

/-- What all turns leave in a part of the report is there in the end. -/
theorem report_grows {α : Type} (part : Report → List α)
    (step : ∀ n t, l.turns[n]? = some t →
      part (l.epochAt n).report ⊆ part (l.epochAt (n + 1)).report) (le : n ≤ m) :
    part (l.epochAt n).report ⊆ part (l.epochAt m).report := by
  induction le with
  | refl => exact List.Subset.refl _
  | @step m le ih =>
      cases next : l.turns[m]? with
      | none => rwa [epochAt_end next]
      | some t => exact fun a member => step m t next (ih member)

/-- The swaps of the next epoch, and what becomes of the banks and vaults that are hot in their
turns. -/
structure Chooses (l : Layer) : Prop where
  /-- A swap of banks is that of a hot bank in its turn. -/
  bankSwaps : ∀ swap ∈ l.runEpoch.1.bankSwaps, ∃ n id other,
    swap = (l.geometry.bankAt id, l.geometry.bankAt other) ∧
      l.turns[n]? = some (.relieveBank .swapping id) ∧
      (l.stage n).BankSwap (l.stage (n + 1)) id other
  /-- A swap of vaults is that of a hot vault in its turn. -/
  vaultSwaps : ∀ swap ∈ l.runEpoch.1.vaultSwaps, ∃ n,
    l.turns[n]? = some (.relieveVault swap.1) ∧
      (l.stage n).VaultSwap (l.stage (n + 1)) swap.1 swap.2
  bankTurns : ∀ id < l.geometry.totalBanks, .relieveBank .swapping id ∈ l.turns
  vaultTurns : l.settings.interVault = true → ∀ v < l.geometry.vaults, .relieveVault v ∈ l.turns
  /-- A bank that is hot in its turn changes place; without a candidate there is one failure that
  says so. -/
  banks : ∀ n id, l.turns[n]? = some (.relieveBank .swapping id) → (l.stage n).HotBank id →
    (∃ other, (l.stage n).BankSwap (l.stage (n + 1)) id other ∧
        (l.geometry.bankAt id, l.geometry.bankAt other) ∈ l.runEpoch.1.bankSwaps) ∨
      (∀ c, ¬(l.stage n).Candidate id c) ∧
        l.runEpoch.1.failuresOf l.geometry (.bank id) =
          [.noTarget (l.geometry.bankAt id).vault (l.geometry.bankAt id).bank
            ((l.stage n).temperatureOf id)]
  vaults : ∀ n v, l.turns[n]? = some (.relieveVault v) → (l.stage n).HotVault v →
    (∃ w, (l.stage n).VaultSwap (l.stage (n + 1)) v w ∧ (v, w) ∈ l.runEpoch.1.vaultSwaps) ∨
      (∀ c, ¬(l.stage n).VaultCandidate v c) ∧
        l.runEpoch.1.failuresOf l.geometry (.vault v) =
          [.noVaultTarget v ((l.stage n).vaultMean v)]

theorem stage_geometry (h : l.Sound) (n : Nat) : (l.stage n).geometry = l.geometry :=
  (changes_frame (stage_changes h n)).geometry

section Epochs

variable (h : l.Under s g) (numeric : l.Numeric)

include h numeric

theorem epochAt_bankSwaps (next : l.turns[n]? = some t) :
    (l.epochAt (n + 1)).report.bankSwaps = (l.epochAt n).report.bankSwaps ∨
      ∃ id other, t = .relieveBank .swapping id ∧
        (l.stage n).BankSwap (l.stage (n + 1)) id other ∧
        (l.epochAt (n + 1)).report.bankSwaps = (l.epochAt n).report.bankSwaps ++
          [(l.geometry.bankAt id, l.geometry.bankAt other)] := by
  have turn := take_bankSwaps (stage_sound h.sound n) (stage_within h.sound next)
    (numeric.stage h.sound n)
  have after : l.stage (n + 1) = ((l.epochAt n).take t).layer :=
    congrArg Epoch.layer (epochAt_succ next)
  rw [epochAt_succ next, after, ← stage_geometry h.sound n]
  exact turn

theorem epochAt_vaultSwaps (next : l.turns[n]? = some t) :
    (l.epochAt (n + 1)).report.vaultSwaps = (l.epochAt n).report.vaultSwaps ∨
      ∃ v w, t = .relieveVault v ∧ (l.stage n).VaultSwap (l.stage (n + 1)) v w ∧
        (l.epochAt (n + 1)).report.vaultSwaps = (l.epochAt n).report.vaultSwaps ++ [(v, w)] := by
  have turn := take_vaultSwaps (stage_sound h.sound n) (stage_within h.sound next)
    (numeric.stage h.sound n)
  have after : l.stage (n + 1) = ((l.epochAt n).take t).layer :=
    congrArg Epoch.layer (epochAt_succ next)
  rw [epochAt_succ next, after]
  exact turn

theorem bankSwaps_subset (next : l.turns[n]? = some t) :
    (l.epochAt (n + 1)).report.bankSwaps ⊆ l.runEpoch.1.bankSwaps := by
  rw [runEpoch_report h.sound]
  refine report_grows (·.bankSwaps) (fun n t next => ?_) (List.getElem?_eq_some_iff.1 next).1
  rcases epochAt_bankSwaps h numeric next with same | ⟨_, _, _, _, reported⟩
  · rw [same]
    exact List.Subset.refl _
  · rw [reported]
    exact List.subset_append_left _ _

theorem vaultSwaps_subset (next : l.turns[n]? = some t) :
    (l.epochAt (n + 1)).report.vaultSwaps ⊆ l.runEpoch.1.vaultSwaps := by
  rw [runEpoch_report h.sound]
  refine report_grows (·.vaultSwaps) (fun n t next => ?_) (List.getElem?_eq_some_iff.1 next).1
  rcases epochAt_vaultSwaps h numeric next with same | ⟨_, _, _, _, reported⟩
  · rw [same]
    exact List.Subset.refl _
  · rw [reported]
    exact List.subset_append_left _ _

theorem hotBank_turn (policy : s.policy = .swap) {id : Nat}
    (next : l.turns[n]? = some (.relieveBank .swapping id)) (hot : (l.stage n).HotBank id) :
    (∃ other, (l.stage n).BankSwap (l.stage (n + 1)) id other ∧
        (l.geometry.bankAt id, l.geometry.bankAt other) ∈ l.runEpoch.1.bankSwaps) ∨
      (∀ c, ¬(l.stage n).Candidate id c) ∧
        l.runEpoch.1.failuresOf l.geometry (.bank id) =
          [.noTarget (l.geometry.bankAt id).vault (l.geometry.bankAt id).bank
            ((l.stage n).temperatureOf id)] := by
  have geometry : (l.epochAt n).layer.geometry = l.geometry := stage_geometry h.sound n
  have after : l.epochAt (n + 1) = relieveBank .swapping (l.epochAt n) id := epochAt_succ next
  have stage : l.stage (n + 1) = (relieveBank .swapping (l.epochAt n) id).layer :=
    congrArg Epoch.layer after
  rcases relieveBank_hot (e := l.epochAt n) (stage_sound h.sound n) (stage_within h.sound next)
    (numeric.stage h.sound n) hot with ⟨other, swapped, reported⟩ | ⟨unmatched, failed⟩
  · rw [← after, place, place, geometry] at reported
    refine .inl ⟨other, stage ▸ swapped, bankSwaps_subset h numeric next ?_⟩
    exact reported ▸ List.mem_append_right _ (List.mem_singleton_self _)
  · refine .inr ⟨unmatched, ?_⟩
    have fault : (l.epochAt n).bankFault id =
        .noTarget (l.geometry.bankAt id).vault (l.geometry.bankAt id).bank
          ((l.stage n).temperatureOf id) := by
      rw [bankFault, place, geometry]
      rfl
    rw [fault] at failed
    rw [h.geometry] at failed ⊢
    refine runEpoch_failuresOf h policy next rfl ?_ failed
    exact congrArg (fun i => some (Entity.bank i)) (g.bankId_bankAt id)

theorem hotVault_turn (policy : s.policy = .swap) {v : Nat}
    (next : l.turns[n]? = some (.relieveVault v)) (hot : (l.stage n).HotVault v) :
    (∃ w, (l.stage n).VaultSwap (l.stage (n + 1)) v w ∧ (v, w) ∈ l.runEpoch.1.vaultSwaps) ∨
      (∀ c, ¬(l.stage n).VaultCandidate v c) ∧
        l.runEpoch.1.failuresOf l.geometry (.vault v) =
          [.noVaultTarget v ((l.stage n).vaultMean v)] := by
  have after : l.epochAt (n + 1) = (l.epochAt n).relieveVault v := epochAt_succ next
  have stage : l.stage (n + 1) = ((l.epochAt n).relieveVault v).layer := congrArg Epoch.layer after
  rcases relieveVault_hot (e := l.epochAt n) (stage_sound h.sound n) (stage_within h.sound next)
    (numeric.stage h.sound n) hot with ⟨w, swapped, reported⟩ | ⟨unmatched, failed⟩
  · rw [← after] at reported
    refine .inl ⟨w, stage ▸ swapped, vaultSwaps_subset h numeric next ?_⟩
    exact reported ▸ List.mem_append_right _ (List.mem_singleton_self _)
  · refine .inr ⟨unmatched, ?_⟩
    have failures := congrArg (·.report.failures) failed
    rw [h.geometry]
    exact runEpoch_failuresOf h policy next rfl rfl failures

theorem chooses (policy : s.policy = .swap) (enabled : s.enabled = true) : l.Chooses := by
  have turns : l.turns = s.turns l.geometry := by
    rw [Layer.turns, h.settings, if_pos enabled]
  constructor
  · rw [runEpoch_report h.sound]
    refine report_keeps (·.bankSwaps) rfl (fun n t next swap member => ?_) _
    rcases epochAt_bankSwaps h numeric next with same | ⟨id, other, rfl, swapped, reported⟩
    · exact .inl (same ▸ member)
    · rw [reported, List.mem_append, List.mem_singleton] at member
      exact member.imp_right fun last => ⟨n, id, other, last, next, swapped⟩
  · rw [runEpoch_report h.sound]
    refine report_keeps (·.vaultSwaps) rfl (fun n t next swap member => ?_) _
    rcases epochAt_vaultSwaps h numeric next with same | ⟨v, w, rfl, swapped, reported⟩
    · exact .inl (same ▸ member)
    · rw [reported, List.mem_append, List.mem_singleton] at member
      refine member.imp_right ?_
      rintro rfl
      exact ⟨n, next, swapped⟩
  · intro id id_lt
    rw [turns, RelocationSettings.turns, List.mem_flatMap]
    refine ⟨.relieveBanks .swapping, ?_, List.mem_map_of_mem (Geometry.mem_bankIds.2 id_lt)⟩
    simp [RelocationSettings.passes, policy]
  · intro scope v v_lt
    rw [h.settings] at scope
    rw [turns, RelocationSettings.turns, List.mem_flatMap]
    refine ⟨.relieveVaults, ?_, List.mem_map_of_mem (List.mem_range.2 v_lt)⟩
    simp [RelocationSettings.passes, policy, scope]
  · exact fun n id next hot => hotBank_turn h numeric policy next hot
  · exact fun n v next hot => hotVault_turn h numeric policy next hot

end Epochs

/-- With valid settings, the policy that swaps chooses best: in every run, if all readings and means
are numbers, the next epoch swaps hot banks and vaults only, each with its best candidate, and says
of every other hot one that there is none. -/
theorem run_chooses {s : Settings} (valid : s.check = .ok ())
    (enabled : s.relocation.enabled = true) (policy : s.relocation.policy = .swap)
    (ops : List Operation) :
    let l := (ofSettings s.relocation (.ofSettings s.stack)).run ops
    (∀ p t, l.temperature? p = some t → t.isNaN = false) →
      (∀ v < l.geometry.vaults, (l.vaultMean v).isNaN = false) → l.Chooses := by
  intro l readings means
  have settings := (Settings.check_eq_ok_iff.1 valid).relocation
  have under : l.Under s.relocation (.ofSettings s.stack) := (ofSettings_under _ _).run ops
  have high := Celsius.isNaN_of_isFinite (settings.finite _ List.mem_cons_self)
  have measured : l.Measured := run_measured _ _ ops
  refine chooses under ⟨measured, fun id id_lt => ?_, means, under.settings ▸ high⟩ policy enabled
  have held := Geometry.holds_bankAt id_lt
  have number := readings (l.geometry.bankAt id) _ (if_pos held)
  rwa [Geometry.bankId_bankAt] at number

/-- Readings are those of the stack's banks. -/
theorem temperature?_number {l : Layer}
    (numbers : ∀ id < l.geometry.totalBanks, (l.ledger.temperature id).isNaN = false) :
    ∀ p t, l.temperature? p = some t → t.isNaN = false := by
  intro p t found
  unfold temperature? at found
  split at found
  · rename_i held
    cases found
    exact numbers _ (bankId_lt held)
  · cases found

/-- Of two cool vaults and of two equally cool banks, the hot vault and the hot bank take the cooler
and the first one.  The last hot bank finds no cool one left. -/
theorem run_chooses_best :
    let s : Settings :=
      { Settings.twoBanks .swap with
        stack := { vaults := 4, vaultSize := 131072, bankSize := 32768 }
        relocation := { interVault := true } }
    let readings : List (Nat × Nat × Float) :=
      [(0, 0, 90.0), (0, 1, 92.0), (0, 2, 90.0), (0, 3, 92.0), (1, 0, 88.0), (1, 3, 82.0),
        (3, 0, 86.0), (3, 1, 87.0), (3, 2, 82.0), (3, 3, 82.0)]
    let l := (ofSettings s.relocation (.ofSettings s.stack)).run
      (readings.map fun (v, b, t) => .setTemperature ⟨v, b⟩ ⟨t⟩)
    s.check = .ok () ∧ (∀ p t, l.temperature? p = some t → t.isNaN = false) ∧
      (∀ v < l.geometry.vaults, (l.vaultMean v).isNaN = false) ∧
      l.vaultMean 0 = ⟨91.0⟩ ∧ l.vaultMean 1 = ⟨72.5⟩ ∧ l.vaultMean 2 = ⟨60.0⟩ ∧
      ((l.stage 20).VaultCandidate 0 1 ∧ (l.stage 20).VaultSwap (l.stage 21) 0 2) ∧
      ((l.stage 28).Candidate 4 6 ∧ (l.stage 28).BankSwap (l.stage 29) 4 5) ∧
      l.runEpoch.1.failuresOf l.geometry (.bank 13) = [.noTarget 3 1 ⟨87.0⟩] := by
  intro s readings l
  have valid : s.check = .ok () := by decide +kernel
  have numbers : ∀ id < l.geometry.totalBanks, (l.ledger.temperature id).isNaN = false := by
    decide +kernel
  have held := temperature?_number numbers
  have means : ∀ v < l.geometry.vaults, (l.vaultMean v).isNaN = false := by decide +kernel
  have chooses : l.Chooses := run_chooses valid rfl rfl _ held means
  have mean₀ : l.vaultMean 0 = ⟨91.0⟩ := Celsius.order_inj.1 (by decide +kernel)
  have mean₁ : l.vaultMean 1 = ⟨72.5⟩ := Celsius.order_inj.1 (by decide +kernel)
  have mean₂ : l.vaultMean 2 = ⟨60.0⟩ := Celsius.order_inj.1 (by decide +kernel)
  have last : (l.stage 37).temperatureOf 13 = ⟨87.0⟩ := Celsius.order_inj.1 (by decide +kernel)
  have vaultSwaps : l.runEpoch.1.vaultSwaps = [(0, 2)] := by decide +kernel
  have bankSwaps : l.runEpoch.1.bankSwaps =
      [(l.geometry.bankAt 4, l.geometry.bankAt 5), (l.geometry.bankAt 12, l.geometry.bankAt 6)] := by
    decide +kernel
  have place : l.geometry.bankAt 13 = ⟨3, 1⟩ := by decide +kernel
  have turns : l.turns[20]? = some (.relieveVault 0) ∧
      l.turns[28]? = some (.relieveBank .swapping 4) ∧
      l.turns[37]? = some (.relieveBank .swapping 13) := by decide +kernel
  have hotVault : (l.stage 20).HotVault 0 := by constructor <;> decide +kernel
  have otherVault : (l.stage 20).VaultCandidate 0 1 := by constructor <;> decide +kernel
  have hotBank : (l.stage 28).HotBank 4 := by constructor <;> decide +kernel
  have otherBank : (l.stage 28).Candidate 4 6 := by constructor <;> decide +kernel
  have lastBank : (l.stage 37).HotBank 13 := by constructor <;> decide +kernel
  clear_value l
  have inj {a b : Nat} : l.geometry.bankAt a = l.geometry.bankAt b ↔ a = b :=
    ⟨Geometry.bankAt_injective, congrArg _⟩
  refine ⟨valid, held, means, mean₀, mean₁, mean₂, ⟨otherVault, ?_⟩, ⟨otherBank, ?_⟩, ?_⟩
  · rcases chooses.vaults 20 0 turns.1 hotVault with ⟨w, swapped, reported⟩ | ⟨none, _⟩
    · rw [vaultSwaps, List.mem_singleton] at reported
      cases reported
      exact swapped
    · exact absurd otherVault (none 1)
  · rcases chooses.banks 28 4 turns.2.1 hotBank with ⟨other, swapped, reported⟩ | ⟨none, _⟩
    · have same : other = 5 := by simpa [bankSwaps, inj] using reported
      exact same ▸ swapped
    · exact absurd otherBank (none 6)
  · rcases chooses.banks 37 13 turns.2.2 lastBank with ⟨other, _, reported⟩ | ⟨_, failures⟩
    · simp [bankSwaps, inj] at reported
    · rwa [place, last] at failures

end Layer

end StackedCache
