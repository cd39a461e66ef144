import StackedCache.Proofs.Relocation.Idle
import StackedCache.Proofs.Service.Calm
import StackedCache.Proofs.Service.Reference

/-!
# Sets in banks out of use

A set stays in its row, and while the bank of the row is out of use, nothing remains of the set for
the next request: its content has been dropped, or is about to be.  `Idle` says so of a controller,
and every operation keeps it.  Where whole banks move, no row is ever redirected: `Whole`.

A request leaves the physical banks of banks out of use alone, unless its row is redirected to one.
-/

namespace StackedCache

namespace Controller

variable {c c' : Controller} {s : Settings} {addr i : Nat} {set : CacheSet} {access : Access}

/-! ## Rows of sets -/

/-- The rows of the sets. -/
def rows (c : Controller) : Array Location := c.sets.map CacheSet.placement

/-- The bank of a set is out of use. -/
def outOfUse (c : Controller) (i : Nat) : Bool :=
  (c.rows[i]?).any fun row => c.layer.disabled row.place

theorem outOfUse_eq (c : Controller) (i : Nat) :
    c.outOfUse i = (c.sets[i]?).any fun set => c.layer.disabled set.placement.place := by
  simp only [outOfUse, rows, Array.getElem?_map, Option.any_map]

theorem passesBy_iff : c.passesBy addr = true ↔ c.outOfUse (c.splitOf addr).set = true := by
  rw [passesBy, outOfUse_eq]

theorem settled_rows (c : Controller) : c.settled.rows = c.rows := by
  have stays : ∀ set, (c.settleSet set).placement = set.placement := by
    intro set
    unfold settleSet
    split <;> rfl
  rw [rows, settled_sets]
  split
  · rw [Array.map_map]
    exact congrArg (c.sets.map ·) (funext stays)
  · rfl

theorem Sound.request_rows (valid : s.Valid) (h : c.Sound s) (built : c.Built s)
    (design : s.cache.design ≠ .constant) (small : addr < 2 ^ addressBits) (time : Time)
    (size : Nat) (access : Access) : (c.request time size addr access).2.rows = c.rows := by
  rw [← settled_rows c, rows, rows]
  rcases h.request_replaces valid built design small time size access with
    same | ⟨set, set', held, build, sets⟩
  · rw [same]
  · rw [sets, Array.map_setIfInBounds, build.placement]
    -- The row that is put in place is the one that was there.
    have row : (c.settled.sets.map CacheSet.placement)[(c.splitOf addr).set]? =
        some set.placement := by
      rw [Array.getElem?_map, held]
      rfl
    refine Array.ext_getElem? fun j => ?_
    rw [Array.getElem?_setIfInBounds]
    split
    · rename_i here
      subst here
      rw [if_pos (Array.getElem?_eq_some_iff.1 row).1, row]
    · rfl

/-! ## Operations other than requests -/

theorem perform_rows (c : Controller) {op : Operation}
    (other : ∀ time size addr access, op ≠ .request time size addr access) :
    (c.perform op).rows = c.rows := by
  rcases c.perform_sets other with same | reset
  · rw [rows, same, rows]
  · rw [rows, reset, rows, Array.map_map]
    rfl

/-- Requests apart, operations do to the layer what one of its own operations does, or nothing. -/
theorem perform_layer (c : Controller) {op : Operation}
    (other : ∀ time size addr access, op ≠ .request time size addr access) :
    (c.perform op).layer = c.layer ∨
      ∃ act : Layer.Operation, act ≠ .settle ∧ (c.perform op).layer = c.layer.perform act := by
  cases op with
  | request time size addr access => exact absurd rfl (other time size addr access)
  | setTemperature p t => exact .inr ⟨.setTemperature p t, by simp, rfl⟩
  | setHot p hot =>
      rcases c.perform_setHot p hot with ⟨stack, marked⟩
      rw [marked]
      exact .inl rfl
  | runEpoch => exact .inr ⟨.runEpoch, by simp, rfl⟩
  | resetCounts => exact .inr ⟨.resetCounts, by simp, rfl⟩

/-! ## Whole banks -/

/-- Under a policy that moves whole banks, no row is redirected. -/
structure Whole (s : Settings) (c : Controller) : Prop where
  settings : c.layer.settings = s.relocation
  rows : s.relocation.policy ≠ .hybrid → c.layer.mapping.rows = []

theorem Sound.perform_whole (h : c.Sound s) (whole : c.Whole s) (op : Operation) :
    (c.perform op).Whole s := by
  refine ⟨(h.perform_settings op).trans whole.settings, fun policy => ?_⟩
  have rows := whole.rows policy
  by_cases request : ∃ time size addr access, op = .request time size addr access
  · rcases request with ⟨time, size, addr, access, rfl⟩
    let Straight (l : Layer) : Prop := l.mapping.rows = []
    refine h.request_keeps (P := Straight) (fun _ same => same) ?_ rows time size addr.toNat access
    intro l row n l' same recorded
    rw [← Layer.perform_of_recorded recorded]
    exact (congrArg Mapping.rows (l.steady_recordAccess row n).mapping).trans same
  · have under : c.layer.Under s.relocation (.ofSettings s.stack) :=
      ⟨h.layer, whole.settings, h.geometry⟩
    rcases c.perform_layer fun time size addr access same => request ⟨time, size, addr, access, same⟩
      with same | ⟨act, _, performed⟩
    · rw [same, rows]
    · rw [performed, Layer.perform_rows under policy act, rows]

theorem Sound.run_whole (valid : s.Valid) (h : c.Sound s) (whole : c.Whole s)
    (ops : List Operation) : (c.run ops).Whole s := by
  induction ops generalizing c with
  | nil => exact whole
  | cons op ops ih => exact ih (h.perform valid op) (h.perform_whole whole op)

/-! ## Idle sets -/

/-- Nothing remains of a set while its bank is out of use, and no row is redirected where whole banks
move. -/
structure Idle (s : Settings) (c : Controller) : Prop where
  settings : c.layer.settings = s.relocation
  whole : s.relocation.policy ≠ .hybrid → c.layer.mapping.rows = []
  vacated : ∀ i, c.outOfUse i = true → c.remaining i = ∅

theorem remaining_of_shelf (bare : c.shelf i = ∅) : c.remaining i = ∅ := by
  rw [remaining, bare, ite_self]

/-- A request finds no more of a set than its shelf, and a set that is not dropped has kept it. -/
theorem remaining_eq (held : c.sets[i]? = some set)
    (valid : c.layer.contentValid set.placement.place = true) : c.remaining i = c.shelf i := by
  have kept : c.gone i = false := by rw [gone, held, Option.any_some, valid, Bool.not_true]
  rw [remaining, kept, if_neg Bool.false_ne_true]

theorem ofSettings_idle (s : Settings) : (ofSettings s).Idle s where
  settings := rfl
  whole := fun _ => rfl
  vacated := fun i _ => remaining_of_shelf (ofSettings_shelf s i)

/-- A request leaves everything in the layer where it was, as it was in or out of use. -/
theorem Sound.request_steady (valid : s.Valid) (h : c.Sound s) (design : s.cache.design ≠ .constant)
    (small : addr < 2 ^ addressBits) (time : Time) (size : Nat) (access : Access) :
    c.settled.layer.Steady (c.request time size addr access).2.layer := by
  rcases h.exists_settled valid design addr with ⟨set, held⟩
  cases used : c.layer.disabled set.placement.place with
  | true =>
      rw [(h.request_passes design small held used time size access).2.layer]
      exact refl _
  | false => exact (h.request_visits design small held used time size access).layer

theorem Sound.request_vacated (valid : s.Valid) (h : c.Sound s) (built : c.Built s)
    (idle : c.Idle s) (design : s.cache.design ≠ .constant) (small : addr < 2 ^ addressBits)
    (time : Time) (size : Nat) (access : Access) (i : Nat)
    (off : (c.request time size addr access).2.outOfUse i = true) :
    (c.request time size addr access).2.remaining i = ∅ := by
  have steady := h.request_steady valid design small time size access
  have follows := h.request_follows valid built design small time size access
  have rows := h.request_rows valid built design small time size access
  have before : c.outOfUse i = true := by
    rw [outOfUse, rows, steady.disabled] at off
    simpa only [outOfUse, settled_disabled] using off
  have bare := idle.vacated i before
  refine remaining_of_shelf ?_
  by_cases here : i = (c.splitOf addr).set
  · rw [here] at before
    rw [(follows.past (passesBy_iff.2 before)).2.2, bare]
  · rw [follows.others i here, bare]

/-- A bank that has come out of use has its data dropped, and one that was out of use before has had
it dropped long ago. -/
theorem Idle.vacated_of_journals (idle : c.Idle s) (rows : c'.rows = c.rows)
    (shelves : ∀ i, c'.shelf i = c.shelf i) (journals : Layer.Journals c.layer c'.layer) (i : Nat)
    (off : c'.outOfUse i = true) : c'.remaining i = ∅ := by
  rw [outOfUse_eq, Option.any_eq_true] at off
  rcases off with ⟨set, held, off⟩
  cases valid : c'.layer.contentValid set.placement.place with
  | false =>
      have gone : c'.gone i = true := by rw [gone, held, Option.any_some, valid, Bool.not_false]
      rw [remaining, gone, if_pos rfl]
  | true =>
      rcases journals.used off valid with ⟨off', valid'⟩
      have row : c.rows[i]? = some set.placement := by
        rw [← rows, Controller.rows, Array.getElem?_map, held]
        rfl
      have before : c.outOfUse i = true := by rw [outOfUse, row, Option.any_some, off']
      rw [Controller.rows, Array.getElem?_map, Option.map_eq_some_iff] at row
      rcases row with ⟨old, found, placement⟩
      refine remaining_of_shelf ?_
      rw [shelves, ← remaining_eq found (placement.symm ▸ valid'), idle.vacated i before]

theorem Sound.perform_idle (valid : s.Valid) (h : c.Sound s) (built : c.Built s) (idle : c.Idle s)
    (design : s.cache.design ≠ .constant) (op : Operation) : (c.perform op).Idle s := by
  have whole := h.perform_whole ⟨idle.settings, idle.whole⟩ op
  refine ⟨whole.settings, whole.rows, ?_⟩
  by_cases request : ∃ time size addr access, op = .request time size addr access
  · rcases request with ⟨time, size, addr, access, rfl⟩
    exact h.request_vacated valid built idle design addr.toNat_lt time size access
  · have other : ∀ time size addr access, op ≠ .request time size addr access :=
      fun time size addr access same => request ⟨time, size, addr, access, same⟩
    refine idle.vacated_of_journals (c.perform_rows other) (c.perform_shelf other) ?_
    rcases c.perform_layer other with same | ⟨act, kept, performed⟩
    · rw [same]
      exact .refl c.layer
    · rw [performed]
      exact Layer.perform_journals h.layer kept

theorem Sound.run_idle (valid : s.Valid) (h : c.Sound s) (built : c.Built s) (idle : c.Idle s)
    (design : s.cache.design ≠ .constant) (ops : List Operation) : (c.run ops).Idle s := by
  induction ops generalizing c with
  | nil => exact idle
  | cons op ops ih =>
      exact ih (h.perform valid op) (h.perform_built valid built design op)
        (h.perform_idle valid built idle design op)

/-- A set in a bank out of use is empty, unless its content is marked as dropped. -/
theorem Idle.vacant (idle : c.Idle s) (held : c.sets[i]? = some set)
    (off : c.layer.disabled set.placement.place = true) :
    (∀ l ∈ set.lines, l.isValid = false) ∨
      c.layer.contentValid set.placement.place = false := by
  cases valid : c.layer.contentValid set.placement.place with
  | false => exact .inr rfl
  | true =>
      left
      have before : c.outOfUse i = true := by rw [outOfUse_eq, held, Option.any_some, off]
      have bare := idle.vacated i before
      rw [remaining_eq held valid, shelf_of_set held] at bare
      exact CacheSet.shelf_eq_empty.1 bare

/-! ## Idle silicon -/

/-- A request changes the physical bank of a bank out of use only through the row of its set, which is
redirected there. -/
theorem Sound.request_redirects {p q : BankPlace} (valid : s.Valid) (h : c.Sound s)
    (design : s.cache.design ≠ .constant) (small : addr < 2 ^ addressBits)
    (owner : c.layer.logicalPlace p = .ok q) (off : c.layer.disabled q = true) (time : Time)
    (size : Nat) (access : Access) :
    (c.request time size addr access).2.stack.bank? p = c.stack.bank? p ∨
      ∃ row, c.rows[(c.splitOf addr).set]? = some row ∧ c.layer.disabled row.place = false ∧
        c.layer.Redirects row p := by
  rcases h.exists_settled valid design addr with ⟨set, held⟩
  cases used : c.layer.disabled set.placement.place with
  | true =>
      left
      rw [(h.request_passes design small held used time size access).2.stack]
  | false =>
      have visits := h.request_visits design small held used time size access
      by_cases reached : ∃ physical, c.layer.physicalLocation set.placement = .ok physical ∧
          physical.place = p
      · right
        have row : c.rows[(c.splitOf addr).set]? = some set.placement := by
          rw [← settled_rows, rows, Array.getElem?_map, held]
          rfl
        have ne : q ≠ set.placement.place := by
          rintro rfl
          rw [used] at off
          cases off
        rcases reached with ⟨physical, located, here⟩
        exact ⟨_, row, used, Layer.redirects_of_logicalPlace h.layer located here owner ne⟩
      · left
        exact visits.stack p fun physical located here => reached ⟨physical, located, here⟩

end Controller

end StackedCache
