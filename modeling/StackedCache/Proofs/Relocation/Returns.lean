import Mathlib.Data.Fintype.EquivFin
import Mathlib.Data.List.Perm.Subperm
import StackedCache.Proofs.Relocation.Permutation

/-!
# Exchanges, returns and the check

What the operations on a permutation do, in every state they lead to.  An exchange swaps two targets
in both directions and undoes itself.  Sending an index home leaves fewer indices away, and a single
one is never away, so a permutation with `d` indices away is the identity after at most `d - 1`
returns, in whatever order they are made: `Permutation.run_exchanges`.

The check goes through the targets only.  That the sources are undone as well follows by counting:
`Permutation.consistent_exact_iff`.
-/

namespace StackedCache

namespace Permutation

variable {p q r : Permutation} {n a b i j o : Nat} {is : List Nat}

/-! ## Equal permutations -/

/-- The targets determine a permutation. -/
theorem Inverse.ext (hp : p.Inverse n) (hq : q.Inverse n)
    (same : ∀ i, p.target? i = q.target? i) : p = q := by
  have targets : p.targets = q.targets := Array.ext_getElem? same
  have sources : p.sources = q.sources := by
    refine Array.ext_getElem? fun j => Option.ext fun i => ?_
    calc
      p.source? j = some i ↔ p.target? i = some j := (hp.agree i j).symm
      _ ↔ q.target? i = some j := by rw [same]
      _ ↔ q.source? j = some i := hq.agree i j
  cases p
  cases q
  exact congrArg₂ Permutation.mk targets sources

/-! ## Indices away from home -/

theorem mem_moved : i ∈ p.moved ↔ i < p.size ∧ p.fixes i = false := by
  simp [moved]

theorem Inverse.mem_moved_iff (h : p.Inverse n) :
    i ∈ p.moved ↔ ∃ j, p.target? i = some j ∧ j ≠ i := by
  rw [mem_moved, ← Bool.not_eq_true, fixes_iff]
  constructor
  · rintro ⟨i_lt, away⟩
    rcases h.exists_target? (lt_of_lt_of_eq i_lt h.targets_size) with ⟨j, target⟩
    exact ⟨j, target, fun same => away (same ▸ target)⟩
  · rintro ⟨j, target, ne⟩
    refine ⟨lt_of_lt_of_eq (h.lt_of_target? target).1 h.targets_size.symm, fun still => ?_⟩
    exact ne (Option.some.inj (target.symm.trans still))

/-- Without an index away, the permutation is the identity. -/
theorem Inverse.eq_identity (h : p.Inverse n) (none_away : p.moved = []) : p = identity n := by
  refine h.ext (identity_inverse n) fun i => ?_
  by_cases i_lt : i < n
  · rcases h.exists_target? i_lt with ⟨j, target⟩
    have home : j = i := by
      by_contra ne
      have away : i ∈ p.moved := h.mem_moved_iff.2 ⟨j, target, ne⟩
      simp [none_away] at away
    rw [target, home, identity_target? i_lt]
  · have beyond : n ≤ i := Nat.le_of_not_lt i_lt
    rw [h.target?_eq_none beyond, (identity_inverse n).target?_eq_none beyond]

/-- An index away is not alone: the index whose place it takes is away as well. -/
theorem Inverse.two_le_moved (h : p.Inverse n) (away : i ∈ p.moved) : 2 ≤ p.moved.length := by
  rcases h.mem_moved_iff.1 away with ⟨j, target, ne⟩
  rcases h.exists_target? (h.lt_of_target? target).2 with ⟨k, next⟩
  have j_away : j ∈ p.moved := by
    refine h.mem_moved_iff.2 ⟨k, next, ?_⟩
    rintro rfl
    exact ne (h.target?_injective next target)
  have pair : [i, j].Nodup := by simpa using ne.symm
  have within : [i, j] ⊆ p.moved := by simp [away, j_away]
  exact (List.subperm_of_subset pair within).length_le

/-- An index that is sent home is away no more, and no other index is sent away. -/
theorem Inverse.length_moved_lt (h : p.Inverse n) (sent : p.sendHome? i = some (o, q)) :
    q.moved.length < p.moved.length := by
  rcases sendHome?_eq_some_iff.1 sent with ⟨away, occupied, swap⟩
  have there : p.target? o = some i := (h.agree o i).2 occupied
  have ne : o ≠ i := h.occupant_ne away occupied
  have targets := target?_swap? swap
  have home : q.fixes i = true := by
    rw [fixes_iff, targets, if_neg ne.symm, if_pos rfl, there]
  have i_lt : i < p.size := lt_of_lt_of_eq (h.lt_of_source? occupied).2 h.targets_size.symm
  -- The index itself comes on top of those that are still away.
  have absent : i ∉ q.moved := fun mem => by simp [mem_moved, home] at mem
  have nodup : (i :: q.moved).Nodup := List.nodup_cons.2 ⟨absent, List.nodup_range.filter _⟩
  have within : i :: q.moved ⊆ p.moved := by
    intro j mem
    rcases List.mem_cons.1 mem with rfl | mem
    · exact mem_moved.2 ⟨i_lt, away⟩
    · have not_i : j ≠ i := fun same => absent (same ▸ mem)
      rcases mem_moved.1 mem with ⟨j_lt, moved⟩
      refine mem_moved.2 ⟨size_swap? swap ▸ j_lt, ?_⟩
      by_contra still
      have here : p.target? j = some j := fixes_iff.1 (by simpa using still)
      have not_o : j ≠ o := by
        rintro rfl
        exact ne (Option.some.inj (here.symm.trans there))
      rw [← Bool.not_eq_true, fixes_iff, targets, if_neg not_o, if_neg not_i] at moved
      exact moved here
  exact (List.subperm_of_subset nodup within).length_le

/-! ## Exchanges -/

/-- Two indices have exchanged their targets, and both targets name their new sources. -/
structure Exchanged (p q : Permutation) (a b : Nat) : Prop where
  first : q.target? a = p.target? b
  second : q.target? b = p.target? a
  others : ∀ i, i ≠ a → i ≠ b → q.target? i = p.target? i
  sources : ∀ x y, p.target? a = some x → p.target? b = some y →
    q.source? x = some b ∧ q.source? y = some a
  otherSources : ∀ j, p.target? a ≠ some j → p.target? b ≠ some j → q.source? j = p.source? j

theorem Inverse.exchanged (h : p.Inverse n) (swap : p.swap? a b = some q) : Exchanged p q a b := by
  rcases targets_of_swap? swap with ⟨x, y, hx, hy⟩
  have targets := target?_swap? swap
  refine ⟨?_, by simp [targets], ?_, ?_, ?_⟩
  · rw [targets]
    by_cases same : a = b
    · simp [same]
    · simp [same]
  · intro i not_a not_b
    rw [targets, if_neg not_b, if_neg not_a]
  · intro x y hx hy
    exact sources_of_swap? h swap hx hy
  · intro j not_x not_y
    have ne_x : j ≠ x := fun same => not_x (same ▸ hx)
    have ne_y : j ≠ y := fun same => not_y (same ▸ hy)
    rw [source?_swap? h swap hx hy, if_neg ne_x, if_neg ne_y]

/-- An exchange undoes itself. -/
theorem Inverse.swap?_swap? (h : p.Inverse n) (swap : p.swap? a b = some q) :
    q.swap? a b = some p := by
  have hq : q.Inverse n := h.swap? swap
  rcases targets_of_swap? swap with ⟨x, y, hx, hy⟩
  have a_lt : a < n := (h.lt_of_target? hx).1
  have b_lt : b < n := (h.lt_of_target? hy).1
  rcases exists_swap? hq a_lt b_lt with ⟨r, back⟩
  have same : r = p := by
    refine (hq.swap? back).ext h fun i => ?_
    have there := h.exchanged swap
    have again := hq.exchanged back
    by_cases is_a : i = a
    · rw [is_a, again.first, there.second]
    · by_cases is_b : i = b
      · rw [is_b, again.second, there.first]
      · rw [again.others i is_a is_b, there.others i is_a is_b]
  rw [back, same]

/-- Indices beyond the range are not exchanged. -/
theorem Inverse.swap?_eq_none (h : p.Inverse n) (out : ¬(a < n ∧ b < n)) : p.swap? a b = none := by
  cases swap : p.swap? a b with
  | none => rfl
  | some q =>
      rcases targets_of_swap? swap with ⟨x, y, hx, hy⟩
      exact absurd ⟨(h.lt_of_target? hx).1, (h.lt_of_target? hy).1⟩ out

/-! ## Returns -/

/-- An index has come home from the place it had, which goes to the one that was in its own. -/
structure Returned (p q : Permutation) (i o : Nat) : Prop where
  occupied : p.source? i = some o
  home : q.target? i = some i
  heir : q.target? o = p.target? i
  others : ∀ k, k ≠ i → k ≠ o → q.target? k = p.target? k
  homeSource : q.source? i = some i
  heirSource : ∀ x, p.target? i = some x → q.source? x = some o
  otherSources : ∀ k, k ≠ i → p.target? i ≠ some k → q.source? k = p.source? k
  fewer : q.moved.length < p.moved.length

theorem Inverse.returned (h : p.Inverse n) (sent : p.sendHome? i = some (o, q)) :
    Returned p q i o := by
  rcases sendHome?_eq_some_iff.1 sent with ⟨_, occupied, swap⟩
  have there : p.target? o = some i := (h.agree o i).2 occupied
  have exchanged := h.exchanged swap
  rcases targets_of_swap? swap with ⟨x, _, hx, _⟩
  have sources := exchanged.sources x i hx there
  exact {
    occupied
    home := exchanged.first.trans there
    heir := exchanged.second
    others := exchanged.others
    homeSource := sources.2
    heirSource := fun y hy => (exchanged.sources y i hy there).1
    otherSources := fun k not_i not_x => exchanged.otherSources k not_x fun same =>
      not_i (Option.some.inj (same.symm.trans there))
    fewer := h.length_moved_lt sent }

/-- Exactly the indices away are sent home. -/
theorem Inverse.sendHome?_isSome_iff (h : p.Inverse n) :
    (∃ o q, p.sendHome? i = some (o, q)) ↔ i ∈ p.moved := by
  constructor
  · rintro ⟨o, q, sent⟩
    rcases sendHome?_eq_some_iff.1 sent with ⟨away, occupied, _⟩
    exact mem_moved.2 ⟨lt_of_lt_of_eq (h.lt_of_source? occupied).2 h.targets_size.symm, away⟩
  · intro mem
    rcases mem_moved.1 mem with ⟨i_lt, away⟩
    have i_lt : i < n := lt_of_lt_of_eq i_lt h.targets_size
    rcases h.exists_source? i_lt with ⟨o, occupied⟩
    rcases exists_swap? h i_lt (h.lt_of_source? occupied).1 with ⟨q, swap⟩
    exact ⟨o, q, sendHome?_eq_some_iff.2 ⟨away, occupied, swap⟩⟩

theorem Inverse.sendHome? (h : p.Inverse n) (sent : p.sendHome? i = some (o, q)) :
    q.Inverse n :=
  h.swap? (sendHome?_eq_some_iff.1 sent).2.2

/-- Returns one after another, each of an index that is away at its turn. -/
inductive Returns : Permutation → List Nat → Permutation → Prop where
  | none (p : Permutation) : Returns p [] p
  | next {p q r : Permutation} {i o : Nat} {is : List Nat} (sent : p.sendHome? i = some (o, q))
      (rest : Returns q is r) : Returns p (i :: is) r

namespace Returns

theorem inverse (returns : Returns p is r) (h : p.Inverse n) : r.Inverse n := by
  induction returns with
  | none p => exact h
  | next sent _ ih => exact ih (h.sendHome? sent)

theorem concat (returns : Returns p is r) (sent : r.sendHome? i = some (o, q)) :
    Returns p (is ++ [i]) q := by
  induction returns with
  | none p => exact .next sent (.none q)
  | next first _ ih => exact .next first (ih sent)

/-- Each return leaves one index less away. -/
theorem length_add_le (returns : Returns p is r) (h : p.Inverse n) :
    is.length + r.moved.length ≤ p.moved.length := by
  induction returns with
  | none p => simp
  | next sent _ ih =>
      have fewer := h.length_moved_lt sent
      have rest := ih (h.sendHome? sent)
      simp only [List.length_cons]
      omega

/-- The last return brings two indices home at once, as a single one is never away. -/
theorem length_lt (returns : Returns p is r) (h : p.Inverse n) (some_away : is ≠ []) :
    is.length < p.moved.length := by
  induction returns with
  | none p => exact absurd rfl some_away
  | @next p q r i o is sent _ ih =>
      have two : 2 ≤ p.moved.length := h.two_le_moved (h.sendHome?_isSome_iff.1 ⟨o, q, sent⟩)
      have fewer := h.length_moved_lt sent
      cases is with
      | nil => exact two
      | cons j is =>
          have rest := ih (h.sendHome? sent) (List.cons_ne_nil j is)
          simp only [List.length_cons] at rest ⊢
          omega

end Returns

/-! ## Every state -/

/-- What may happen to a permutation. -/
inductive Operation where
  | swap (a b : Nat)
  | sendHome (i : Nat)
  deriving DecidableEq, Repr

/-- An operation that is refused leaves the permutation as it is. -/
def perform (p : Permutation) : Operation → Permutation
  | .swap a b => (p.swap? a b).getD p
  | .sendHome i => ((p.sendHome? i).map Prod.snd).getD p

/-- Performs operations in order. -/
def run (p : Permutation) (ops : List Operation) : Permutation := ops.foldl perform p

theorem Inverse.perform (h : p.Inverse n) (op : Operation) : (p.perform op).Inverse n := by
  cases op with
  | swap a b =>
      cases swap : p.swap? a b with
      | none => simpa [Permutation.perform, swap] using h
      | some q => simpa [Permutation.perform, swap] using h.swap? swap
  | sendHome i =>
      cases sent : p.sendHome? i with
      | none => simpa [Permutation.perform, sent] using h
      | some found => simpa [Permutation.perform, sent] using h.sendHome? sent

theorem Inverse.run (h : p.Inverse n) (ops : List Operation) : (p.run ops).Inverse n := by
  induction ops generalizing p with
  | nil => exact h
  | cons op ops ih => exact ih (h.perform op)

/-- After any operations, exchanges and returns do what they should, and any returns that are made
as long as an index is away end in the identity, after at most one return less than indices away. -/
theorem run_exchanges (n : Nat) (ops : List Operation) :
    let p := (identity n).run ops
    (∀ a b, a < n → b < n →
      ∃ q, p.swap? a b = some q ∧ Exchanged p q a b ∧ q.swap? a b = some p) ∧
    (∀ a b, ¬(a < n ∧ b < n) → p.swap? a b = none ∧ p.perform (.swap a b) = p) ∧
    (∀ i ∈ p.moved, ∃ o q, p.sendHome? i = some (o, q) ∧ Returned p q i o) ∧
    ∀ is r, Returns p is r →
      is.length ≤ p.moved.length - 1 ∧ (r.moved = [] → r = identity n) ∧
      (r ≠ identity n → is.length < p.moved.length - 1 ∧ r.moved ≠ [] ∧
        ∀ i ∈ r.moved, ∃ q, Returns p (is ++ [i]) q) := by
  intro p
  have h : p.Inverse n := (identity_inverse n).run ops
  refine ⟨?_, ?_, ?_, ?_⟩
  · intro a b a_lt b_lt
    rcases exists_swap? h a_lt b_lt with ⟨q, swap⟩
    exact ⟨q, swap, h.exchanged swap, h.swap?_swap? swap⟩
  · intro a b out
    have refused : p.swap? a b = none := h.swap?_eq_none out
    exact ⟨refused, by simp [Permutation.perform, refused]⟩
  · intro i away
    rcases h.sendHome?_isSome_iff.2 away with ⟨o, q, sent⟩
    exact ⟨o, q, sent, h.returned sent⟩
  · intro is r returns
    have hr : r.Inverse n := returns.inverse h
    have total : is.length + r.moved.length ≤ p.moved.length := returns.length_add_le h
    refine ⟨?_, hr.eq_identity, ?_⟩
    · by_cases empty : is = []
      · simp [empty]
      · exact Nat.le_sub_one_of_lt (returns.length_lt h empty)
    · intro unfinished
      have some_away : r.moved ≠ [] := fun home => unfinished (hr.eq_identity home)
      rcases List.exists_mem_of_ne_nil _ some_away with ⟨i, away⟩
      have two : 2 ≤ r.moved.length := hr.two_le_moved away
      refine ⟨by omega, some_away, fun i away => ?_⟩
      rcases hr.sendHome?_isSome_iff.2 away with ⟨o, q, sent⟩
      exact ⟨q, returns.concat sent⟩

/-- Three indices in a cycle: two returns bring all of them home, in any order. -/
theorem run_exchanges_cycle :
    let p := (identity 3).run [.swap 0 1, .swap 1 2]
    p.moved = [0, 1, 2] ∧ (∃ q, p.swap? 0 2 = some q ∧ q.swap? 0 2 = some p) ∧
      p.perform (.swap 0 3) = p ∧
      ∃ q, p.sendHome? 0 = some (2, q) ∧ Returned p q 0 2 ∧ q.moved = [1, 2] ∧
        Returns p [0, 2] (identity 3) ∧ [0, 2].length ≤ p.moved.length - 1 := by
  intro p
  have all := run_exchanges 3 [.swap 0 1, .swap 1 2]
  rcases all with ⟨exchange, refuse, send, returns⟩
  rcases exchange 0 2 (by decide) (by decide) with ⟨q, swap, _, back⟩
  rcases send 0 (by decide) with ⟨o, r, sent, returned⟩
  have here : p.sendHome? 0 = some (2, ⟨#[0, 2, 1], #[0, 2, 1]⟩) := by decide
  have last : Returns p [0, 2] (identity 3) := .next here (.next (o := 1) (by decide) (.none _))
  cases here.symm.trans sent
  exact ⟨by decide, ⟨q, swap, back⟩, (refuse 0 3 (by decide)).2, _, here, returned, by decide, last,
    (returns _ _ last).1⟩

/-! ## The check of one direction -/

theorem source_of_consistent (checked : p.consistent = true) (i_lt : i < p.size) :
    ∃ j, p.target? i = some j ∧ p.source? j = some i := by
  simp only [consistent, Bool.and_eq_true, List.all_eq_true, List.mem_range] at checked
  have here := checked.2 i i_lt
  cases target : p.target? i with
  | none => simp [target] at here
  | some j =>
      simp only [target, beq_iff_eq] at here
      exact ⟨j, rfl, here⟩

/-- Every target has a source of its own, so there are as many targets as indices, and the sources
of all of them have been compared. -/
theorem inverse_of_consistent (checked : p.consistent = true) : p.Inverse p.size := by
  have sizes : p.targets.size = p.sources.size := by
    simp only [consistent, Bool.and_eq_true, decide_eq_true_eq] at checked
    exact checked.1
  have each : ∀ i : Fin p.size, ∃ j : Fin p.size,
      p.target? i = some j.val ∧ p.source? j = some i.val := by
    intro i
    rcases source_of_consistent checked i.isLt with ⟨j, target, source⟩
    have j_lt : j < p.sources.size := (Array.getElem?_eq_some_iff.1 source).1
    exact ⟨⟨j, lt_of_lt_of_eq j_lt sizes.symm⟩, target, source⟩
  choose f target source using each
  have injective : Function.Injective f := by
    intro x y same
    have first : p.source? (f x) = some y.val := same ▸ source y
    exact Fin.ext (Option.some.inj ((source x).symm.trans first))
  have surjective : Function.Surjective f := Finite.injective_iff_surjective.1 injective
  refine ⟨rfl, sizes.symm, fun i j => ?_⟩
  constructor
  · intro here
    have i_lt : i < p.size := (Array.getElem?_eq_some_iff.1 here).1
    have same : (f ⟨i, i_lt⟩).val = j := Option.some.inj ((target ⟨i, i_lt⟩).symm.trans here)
    exact same ▸ source ⟨i, i_lt⟩
  · intro here
    have j_lt : j < p.size := lt_of_lt_of_eq (Array.getElem?_eq_some_iff.1 here).1 sizes.symm
    rcases surjective ⟨j, j_lt⟩ with ⟨x, hit⟩
    have back : p.source? j = some x.val := by simpa [hit] using source x
    have same : x.val = i := Option.some.inj (back.symm.trans here)
    have forth : p.target? x = some j := by simpa [hit] using target x
    exact same ▸ forth

/-- The check of two arrays, whatever they hold, succeeds if and only if they have one size, hold
only indices below it, and undo each other in both directions. -/
theorem consistent_exact_iff (p : Permutation) :
    p.consistent = true ↔
      p.targets.size = p.sources.size ∧
      (∀ j ∈ p.targets, j < p.size) ∧ (∀ i ∈ p.sources, i < p.size) ∧
      (∀ i < p.size, (p.target? i).bind p.source? = some i) ∧
      ∀ j < p.size, (p.source? j).bind p.target? = some j := by
  constructor
  · intro checked
    have h : p.Inverse p.size := inverse_of_consistent checked
    refine ⟨h.sources_size.symm, ?_, ?_, ?_, ?_⟩
    · intro j mem
      rcases Array.mem_iff_getElem?.1 mem with ⟨i, target⟩
      exact (h.lt_of_target? target).2
    · intro i mem
      rcases Array.mem_iff_getElem?.1 mem with ⟨j, source⟩
      exact (h.lt_of_source? source).1
    · intro i i_lt
      rcases h.exists_target? i_lt with ⟨j, target⟩
      rw [target, Option.bind_some, (h.agree i j).1 target]
    · intro j j_lt
      rcases h.exists_source? j_lt with ⟨i, source⟩
      rw [source, Option.bind_some, (h.agree i j).2 source]
  · rintro ⟨sizes, _, _, undone, _⟩
    simp only [consistent, sizes, decide_true, Bool.true_and, List.all_eq_true, List.mem_range]
    intro i i_lt
    rcases Option.bind_eq_some_iff.1 (undone i i_lt) with ⟨j, target, source⟩
    simp [target, source]

end Permutation

end StackedCache
