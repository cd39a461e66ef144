import StackedCache.Relocation.Permutation

/-!
# Inverse permutations

`Permutation.Inverse` says that the two arrays of a permutation have the same length and undo each
other.  It holds of the identity, an exchange keeps it, and so does sending an index home.  Under it
no exchange of two indices in range writes beyond an array.
-/

namespace StackedCache

namespace Permutation

variable {p q : Permutation} {n a b i j : Nat}

/-- Targets and sources of the indices below `n` are inverse to each other. -/
structure Inverse (p : Permutation) (n : Nat) : Prop where
  targets_size : p.targets.size = n
  sources_size : p.sources.size = n
  agree : ∀ i j, p.target? i = some j ↔ p.source? j = some i

/-! ## Both directions -/

theorem identity_target? (h : i < n) : (identity n).target? i = some i := by
  simp [identity, target?, h]

theorem identity_inverse (n : Nat) : (identity n).Inverse n := by
  refine ⟨by simp [identity], by simp [identity], ?_⟩
  intro i j
  simp only [identity, target?, source?, Array.getElem?_eq_some_iff, Array.getElem_range,
    Array.size_range, exists_prop]
  constructor <;> rintro ⟨h, rfl⟩ <;> exact ⟨h, rfl⟩

namespace Inverse

theorem lt_of_target? (h : p.Inverse n) (ht : p.target? i = some j) : i < n ∧ j < n := by
  have hs : p.source? j = some i := (h.agree i j).1 ht
  have hi := (Array.getElem?_eq_some_iff.1 ht).1
  have hj := (Array.getElem?_eq_some_iff.1 hs).1
  exact ⟨h.targets_size ▸ hi, h.sources_size ▸ hj⟩

theorem lt_of_source? (h : p.Inverse n) (hs : p.source? j = some i) : i < n ∧ j < n :=
  h.lt_of_target? ((h.agree i j).2 hs)

theorem exists_target? (h : p.Inverse n) (hi : i < n) : ∃ j, p.target? i = some j :=
  ⟨_, Array.getElem?_eq_getElem (h.targets_size ▸ hi)⟩

theorem exists_source? (h : p.Inverse n) (hj : j < n) : ∃ i, p.source? j = some i :=
  ⟨_, Array.getElem?_eq_getElem (h.sources_size ▸ hj)⟩

theorem target?_eq_none (h : p.Inverse n) (hi : n ≤ i) : p.target? i = none :=
  Array.getElem?_eq_none (h.targets_size ▸ hi)

theorem source?_eq_none (h : p.Inverse n) (hj : n ≤ j) : p.source? j = none :=
  Array.getElem?_eq_none (h.sources_size ▸ hj)

/-- No target is shared. -/
theorem target?_injective (h : p.Inverse n) (hi : p.target? i = some a)
    (hj : p.target? j = some a) :
    i = j := by
  have hs : p.source? a = some i := (h.agree i a).1 hi
  have ht : p.source? a = some j := (h.agree j a).1 hj
  exact Option.some.inj (hs.symm.trans ht)

/-- Extended by the identity beyond the range, the sources undo the targets. -/
theorem source_target (h : p.Inverse n) (i : Nat) :
    (p.source? ((p.target? i).getD i)).getD ((p.target? i).getD i) = i := by
  cases ht : p.target? i with
  -- Only an index beyond the range has no target, and then it has no source either.
  | none =>
      have hi : n ≤ i := by
        by_cases hlt : i < n
        · rcases h.exists_target? hlt with ⟨j, hj⟩
          simp [hj] at ht
        · exact Nat.le_of_not_lt hlt
      simp [h.source?_eq_none hi]
  | some j =>
      have hs : p.source? j = some i := (h.agree i j).1 ht
      simp [hs]

/-- Extended by the identity beyond the range, the targets undo the sources. -/
theorem target_source (h : p.Inverse n) (j : Nat) :
    (p.target? ((p.source? j).getD j)).getD ((p.source? j).getD j) = j := by
  cases hs : p.source? j with
  | none =>
      have hj : n ≤ j := by
        by_cases hlt : j < n
        · rcases h.exists_source? hlt with ⟨i, hi⟩
          simp [hi] at hs
        · exact Nat.le_of_not_lt hlt
      simp [h.target?_eq_none hj]
  | some i =>
      have ht : p.target? i = some j := (h.agree i j).2 hs
      simp [ht]

theorem target_lt (h : p.Inverse n) (hi : i < n) : (p.target? i).getD i < n := by
  rcases h.exists_target? hi with ⟨j, hj⟩
  simpa [hj] using (h.lt_of_target? hj).2

theorem source_lt (h : p.Inverse n) (hj : j < n) : (p.source? j).getD j < n := by
  rcases h.exists_source? hj with ⟨i, hi⟩
  simpa [hi] using (h.lt_of_source? hi).1

/-- The check of both arrays succeeds. -/
theorem consistent (h : p.Inverse n) : p.consistent = true := by
  have hsize : p.targets.size = p.sources.size := h.targets_size.trans h.sources_size.symm
  simp only [Permutation.consistent, hsize, decide_true, Bool.true_and, List.all_eq_true,
    List.mem_range, size]
  intro i hi
  rcases h.exists_target? (h.sources_size ▸ hi) with ⟨j, hj⟩
  simp [hj, (h.agree i j).1 hj]

end Inverse

theorem fixes_iff : p.fixes i = true ↔ p.target? i = some i := by
  simp [fixes]

/-- A permutation without moved indices sends every index to itself. -/
theorem target_of_isIdentity (h : p.isIdentity = true) (i : Nat) : (p.target? i).getD i = i := by
  simp only [isIdentity, moved, List.isEmpty_iff, List.filter_eq_nil_iff, List.mem_range,
    Bool.not_eq_true', Bool.not_eq_false] at h
  by_cases hi : i < p.size
  · simp [fixes_iff.1 (h i hi)]
  · have hnone : p.target? i = none := Array.getElem?_eq_none (Nat.le_of_not_lt hi)
    simp [hnone]

/-! ## Exchanges -/

theorem exists_swap? (h : p.Inverse n) (ha : a < n) (hb : b < n) : ∃ q, p.swap? a b = some q := by
  rcases h.exists_target? ha with ⟨x, hx⟩
  rcases h.exists_target? hb with ⟨y, hy⟩
  simp [swap?, hx, hy]

/-- An exchange needs two indices in range. -/
theorem targets_of_swap? (h : p.swap? a b = some q) :
    ∃ x y, p.target? a = some x ∧ p.target? b = some y := by
  unfold swap? at h
  split at h
  · rename_i x y hx hy
    exact ⟨x, y, hx, hy⟩
  · cases h

/-- The sources after an exchange of the indices `a` and `b` with the targets `x` and `y`. -/
theorem source?_swap? (h : p.Inverse n) (hs : p.swap? a b = some q) {x y : Nat}
    (hx : p.target? a = some x) (hy : p.target? b = some y) (j : Nat) :
    q.source? j = if j = x then some b else if j = y then some a else p.source? j := by
  have hxn : x < p.sources.size := h.sources_size ▸ (h.lt_of_target? hx).2
  have hyn : y < p.sources.size := h.sources_size ▸ (h.lt_of_target? hy).2
  simp only [swap?, hx, hy, Option.some.injEq] at hs
  subst hs
  simp only [source?, Array.getElem?_setIfInBounds, Array.size_setIfInBounds, hxn, hyn, if_true,
    eq_comm (a := j)]

/-- After an exchange both written sources name the index that was put there. -/
theorem sources_of_swap? (h : p.Inverse n) (hs : p.swap? a b = some q) {x y : Nat}
    (hx : p.target? a = some x) (hy : p.target? b = some y) :
    q.source? x = some b ∧ q.source? y = some a := by
  refine ⟨by simp [source?_swap? h hs hx hy], ?_⟩
  rw [source?_swap? h hs hx hy]
  -- With equal targets both writes hit one source, but then `a` and `b` are equal as well.
  by_cases hxy : y = x
  · subst hxy
    simp [h.target?_injective hx hy]
  · simp [hxy]

theorem Inverse.swap? (h : p.Inverse n) (hs : p.swap? a b = some q) : q.Inverse n := by
  rcases targets_of_swap? hs with ⟨x, y, hx, hy⟩
  refine ⟨(size_swap? hs).trans h.targets_size, ?_, fun i j => ?_⟩
  · simp only [Permutation.swap?, hx, hy, Option.some.injEq] at hs
    subst hs
    simpa using h.sources_size
  · have hxa : p.source? x = some a := (h.agree a x).1 hx
    have hyb : p.source? y = some b := (h.agree b y).1 hy
    have hij := h.agree i j
    rw [target?_swap? hs, source?_swap? h hs hx hy, hx, hy]
    -- An index that stays has neither `x` nor `y` as its target, as those have sources already.
    by_cases hib : i = b
    · grind
    · by_cases hia : i = a
      · grind
      · grind

/-! ## Sending an index home -/

/-- Sending an index home is an exchange with the index that has taken its place. -/
theorem sendHome?_eq_some_iff {o : Nat} :
    p.sendHome? i = some (o, q) ↔
      p.fixes i = false ∧ p.source? i = some o ∧ p.swap? i o = some q := by
  unfold sendHome?
  cases hf : p.fixes i with
  | true => simp
  | false =>
      cases hs : p.source? i with
      | none => simp
      | some occupant =>
          simp only [Bool.false_eq_true, if_false, Option.map_eq_some_iff, Prod.mk.injEq,
            Option.some.injEq, true_and]
          constructor
          · rintro ⟨_, hq, rfl, rfl⟩
            exact ⟨rfl, hq⟩
          · rintro ⟨rfl, hq⟩
            exact ⟨q, hq, rfl, rfl⟩

/-- The index that has taken the place of an index away from home is a different one. -/
theorem Inverse.occupant_ne {o : Nat} (h : p.Inverse n) (hf : p.fixes i = false)
    (ho : p.source? i = some o) : o ≠ i := by
  rintro rfl
  have ht : p.target? o = some o := (h.agree o o).2 ho
  simp [fixes_iff.2 ht] at hf

end Permutation

end StackedCache
