import StackedCache.Decimal.Binary

/-!
# Temperatures

A `Celsius` holds a float as a sensor delivered it, NaN and infinities included.  Two orders are
defined on the bit pattern, in integers.

* `rank?` is the numeric order.  A NaN has no rank, so it is neither below nor at or above any
  threshold, and both zeros rank alike.
* `order` refines it to a total order, in which the negative zero stands before the positive one.
  It chooses between candidates.
-/

namespace StackedCache

/-- A temperature in degrees Celsius. -/
structure Celsius where
  value : Float

namespace Celsius

/-- The reading of a place that has none. -/
def none : Celsius := ⟨0.0 / 0.0⟩

instance : Inhabited Celsius := ⟨none⟩

/-- The bits below the sign. -/
def magnitude (t : Celsius) : Nat := t.value.toBits.toNat % 2 ^ 63

def negative (t : Celsius) : Bool := t.value.toBits.toNat ≥ 2 ^ 63

/-- The magnitude of an infinity; the magnitudes above it are NaNs. -/
def infinity : Nat := 2047 * 2 ^ 52

def isNaN (t : Celsius) : Bool := infinity < t.magnitude

def isFinite (t : Celsius) : Bool := t.magnitude < infinity

/-- The place of a temperature among all numbers.  Consecutive floats have consecutive ranks. -/
def rank? (t : Celsius) : Option Int :=
  if t.isNaN then Option.none
  else if t.negative then some (-(t.magnitude : Int))
  else some t.magnitude

/-- `t` is a number below the number `bound`. -/
def below (t bound : Celsius) : Bool :=
  match t.rank?, bound.rank? with
  | some a, some b => a < b
  | _, _ => false

/-- `t` is a number at or above the number `bound`. -/
def reaches (t bound : Celsius) : Bool :=
  match t.rank?, bound.rank? with
  | some a, some b => b ≤ a
  | _, _ => false

/-- The place of a temperature in the total order of all floats. -/
def order (t : Celsius) : Int :=
  if t.negative then -(t.magnitude : Int) - 1 else t.magnitude

/-- The first of the coolest items, by the total order. -/
def coolest? {α : Type} (temperature : α → Celsius) : List α → Option α
  | [] => Option.none
  | x :: xs =>
      some <| xs.foldl
        (fun best y => if (temperature y).order < (temperature best).order then y else best) x

/-- The mean of the readings, added in list order; without readings there is none. -/
def mean : List Celsius → Celsius
  | [] => none
  | t :: ts =>
      ⟨ts.foldl (fun sum u => sum + u.value) t.value / Float.ofNat (ts.length + 1)⟩

theorem isNaN_of_isFinite {t : Celsius} (h : t.isFinite = true) : t.isNaN = false := by
  simp only [isFinite, isNaN, decide_eq_true_iff, decide_eq_false_iff_not] at h ⊢
  omega

theorem rank?_eq_none_iff {t : Celsius} : t.rank? = Option.none ↔ t.isNaN = true := by
  unfold rank?
  cases t.isNaN <;> cases t.negative <;> simp

theorem isNaN_of_rank {t : Celsius} {a : Int} (h : t.rank? = some a) : t.isNaN = false := by
  cases nan : t.isNaN with
  | false => rfl
  | true => rw [rank?_eq_none_iff.2 nan] at h; cases h

theorem exists_rank {t : Celsius} (number : t.isNaN = false) : ∃ a, t.rank? = some a := by
  unfold rank?
  cases t.negative <;> simp [number]

theorem below_of_rank {t bound : Celsius} {a b : Int} (ht : t.rank? = some a)
    (hb : bound.rank? = some b) : t.below bound = decide (a < b) := by
  simp [below, ht, hb]

theorem reaches_of_rank {t bound : Celsius} {a b : Int} (ht : t.rank? = some a)
    (hb : bound.rank? = some b) : t.reaches bound = decide (b ≤ a) := by
  simp [reaches, ht, hb]

/-- Only numbers are below others. -/
theorem isNaN_of_below {t bound : Celsius} (h : t.below bound = true) :
    t.isNaN = false ∧ bound.isNaN = false := by
  cases ht : t.rank? with
  | none => simp [below, ht] at h
  | some a =>
      cases hb : bound.rank? with
      | none => simp [below, ht, hb] at h
      | some b => exact ⟨isNaN_of_rank ht, isNaN_of_rank hb⟩

/-- The coolest item is one of the items. -/
theorem coolest?_mem {α : Type} {temperature : α → Celsius} {items : List α} {x : α}
    (h : coolest? temperature items = some x) : x ∈ items := by
  cases items with
  | nil => cases h
  | cons first rest =>
      have kept : ∀ (rest : List α) (best : α),
          rest.foldl (fun best y =>
            if (temperature y).order < (temperature best).order then y else best) best
            ∈ best :: rest := by
        intro rest
        induction rest with
        | nil => simp
        | cons y rest ih =>
            intro best
            simp only [List.foldl_cons]
            split
            · exact List.mem_cons_of_mem _ (ih y)
            · rcases List.mem_cons.1 (ih best) with eq | later
              · rw [eq]
                exact List.mem_cons_self
              · exact List.mem_cons_of_mem _ (List.mem_cons_of_mem _ later)
      cases h
      exact kept rest first

/-- What is below a bound does not reach it. -/
theorem reaches_of_below {t bound : Celsius} (h : t.below bound = true) :
    t.reaches bound = false := by
  cases ht : t.rank? with
  | none => simp [below, ht] at h
  | some a =>
      cases hb : bound.rank? with
      | none => simp [below, ht, hb] at h
      | some b =>
          rw [below_of_rank ht hb, decide_eq_true_iff] at h
          rw [reaches_of_rank ht hb, decide_eq_false_iff_not]
          omega

theorem below_of_reaches {t bound : Celsius} (h : t.reaches bound = true) :
    t.below bound = false := by
  cases hb : t.below bound with
  | false => rfl
  | true => rw [reaches_of_below hb] at h; cases h

/-- A temperature that reaches a bound reaches every number that is no higher. -/
theorem reaches_of_reaches {t bound lower : Celsius} (h : t.reaches bound = true)
    (number : lower.isFinite = true) (ordered : bound.below lower = false) : t.reaches lower = true := by
  obtain ⟨c, hl⟩ := exists_rank (isNaN_of_isFinite number)
  cases ht : t.rank? with
  | none => simp [reaches, ht] at h
  | some a =>
      cases hb : bound.rank? with
      | none => simp [reaches, ht, hb] at h
      | some b =>
          rw [reaches_of_rank ht hb, decide_eq_true_iff] at h
          rw [below_of_rank hb hl, decide_eq_false_iff_not] at ordered
          rw [reaches_of_rank ht hl, decide_eq_true_iff]
          omega

end Celsius

end StackedCache
