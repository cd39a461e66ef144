import StackedCache.Table

/-!
# Frequently used rows

A `HotRows` counts the accesses to rows with a bounded number of counters, by the method of Misra and
Gries: an access to a row without a counter takes a free counter, or else takes one from every
counter, and counters at zero become free.  With `k` counters, a row with more than one in `k + 1` of
all accesses has a counter.
-/

namespace StackedCache

/-- Counters for the most used rows. -/
structure HotRows where
  /-- The number of counters. -/
  capacity : Nat
  counts : Table Nat := []
  deriving DecidableEq, Repr, Inhabited

namespace HotRows

/-- The counter of a row, zero if it has none. -/
def count (h : HotRows) (row : Nat) : Nat := (h.counts.find? row).getD 0

/-- Takes one from every counter and frees those at zero. -/
def decay (counts : Table Nat) : Table Nat :=
  (counts.map fun (row, n) => (row, n - 1)).filter fun (_, n) => 0 < n

/-- Counts an access to a row. -/
def record (h : HotRows) (row : Nat) : HotRows :=
  match h.counts.find? row with
  | some n => { h with counts := h.counts.insert row (n + 1) }
  | none =>
      if h.counts.length < h.capacity then { h with counts := h.counts.insert row 1 }
      else { h with counts := decay h.counts }

/-- Rows and counters by descending counter; equal ones by ascending row. -/
def ranked (h : HotRows) : List (Nat × Nat) := h.counts.mergeSort fun a b => b.2 ≤ a.2

/-- The `k` rows with the highest counters. -/
def hottest (h : HotRows) (k : Nat) : List Nat := (h.ranked.take k).map Prod.fst

/-- Frees all counters. -/
def clear (h : HotRows) : HotRows := { h with counts := [] }

end HotRows

end StackedCache
