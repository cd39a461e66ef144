import StackedCache.Arithmetic

/-!
# Simulated time

Instants and spans of simulated time are one type, `Time`, a count of picoseconds.  A completion
time is then an arrival plus a latency.

Time has an end, `Time.limit`: every sum and product stops there instead of growing past it, and
a difference stops at zero.
-/

namespace StackedCache

/-- A point in, or a span of, simulated time. -/
structure Time where
  /-- Whole picoseconds. -/
  ps : Nat
  deriving DecidableEq, Repr, Inhabited

namespace Time

/-- The last representable picosecond, the end of a 64-bit count. -/
def limit : Nat := 2 ^ 64 - 1

/-- Picoseconds in a nanosecond. -/
def psPerNs : Nat := 1000

def zero : Time := ⟨0⟩

/-- The time `n` picoseconds from the start, or the end of time. -/
def ofPs (n : Nat) : Time := ⟨min n limit⟩

/-- The time `n` nanoseconds from the start, or the end of time. -/
def ofNs (n : Nat) : Time := ofPs (n * psPerNs)

/-- Whole nanoseconds, the rest dropped. -/
def ns (t : Time) : Nat := t.ps / psPerNs

instance : Zero Time := ⟨zero⟩

instance : Add Time := ⟨fun a b => ofPs (a.ps + b.ps)⟩

/-- The span from `b` to `a`, zero if `b` is the later one. -/
instance : Sub Time := ⟨fun a b => ⟨a.ps - b.ps⟩⟩

/-- `k` spans of length `t` in a row. -/
def repeated (t : Time) (k : Nat) : Time := ofPs (t.ps * k)

/-- Half a span, to the picosecond below. -/
def half (t : Time) : Time := ⟨t.ps / 2⟩

instance : LT Time := ⟨fun a b => a.ps < b.ps⟩

instance : LE Time := ⟨fun a b => a.ps ≤ b.ps⟩

instance (a b : Time) : Decidable (a < b) := inferInstanceAs (Decidable (a.ps < b.ps))

instance (a b : Time) : Decidable (a ≤ b) := inferInstanceAs (Decidable (a.ps ≤ b.ps))

def later (a b : Time) : Time := if a < b then b else a

/-- The spans of a list laid end to end. -/
def total (spans : List Time) : Time := spans.foldl (· + ·) zero

/-- The longest span of a list, zero for an empty one. -/
def longest (spans : List Time) : Time := spans.foldl later zero

/-- Nanoseconds with exactly three decimals. -/
def text (t : Time) : String :=
  let rest := toString (t.ps % psPerNs)
  let padding := String.ofList (List.replicate (3 - rest.length) '0')
  toString t.ns ++ "." ++ padding ++ rest ++ " ns"

theorem add_ps (a b : Time) : (a + b).ps = min (a.ps + b.ps) limit := rfl

theorem sub_ps (a b : Time) : (a - b).ps = a.ps - b.ps := rfl

/-- Two spans end to end are one span, up to the end of time. -/
theorem ofPs_add (m n : Nat) : ofPs m + ofPs n = ofPs (m + n) := by
  have capped : min (min m limit + min n limit) limit = min (m + n) limit := by omega
  exact congrArg mk capped

theorem le_iff {a b : Time} : a ≤ b ↔ a.ps ≤ b.ps := Iff.rfl

theorem lt_iff {a b : Time} : a < b ↔ a.ps < b.ps := Iff.rfl

/-- Where a sum stops does not depend on its order. -/
theorem add_assoc (a b c : Time) : a + b + c = a + (b + c) := by
  have capped : min (min (a.ps + b.ps) limit + c.ps) limit =
      min (a.ps + min (b.ps + c.ps) limit) limit := by omega
  exact congrArg mk capped

/-- A span of zero adds nothing to a sum. -/
theorem add_zero_add (a b : Time) : a + (zero + b) = a + b := by
  have capped : min (a.ps + min (0 + b.ps) limit) limit = min (a.ps + b.ps) limit := by omega
  exact congrArg mk capped

theorem add_le_add {a a' b b' : Time} (h : a ≤ a') (h' : b ≤ b') : a + b ≤ a' + b' := by
  rw [le_iff] at *
  rw [add_ps, add_ps]
  omega

theorem half_le (t : Time) : t.half ≤ t := Nat.div_le_self t.ps 2

/-! ## The later of two times -/

theorem later_eq_right {a b : Time} (h : a ≤ b) : a.later b = b := by
  unfold later
  split
  · rfl
  · rename_i reached
    have same : a.ps = b.ps := Nat.le_antisymm h (Nat.not_lt.1 reached)
    cases a
    cases b
    exact congrArg mk same

theorem le_later (a b : Time) : a ≤ a.later b := by
  unfold later
  split
  · rename_i earlier
    exact Nat.le_of_lt earlier
  · exact Nat.le_refl _

theorem later_later (a b : Time) : a.later (a.later b) = a.later b := later_eq_right (le_later a b)

end Time

end StackedCache
