import StackedCache.Arithmetic

/-!
# Taking addresses apart

A cache of `2^b` sets with lines of `2^a` bytes reads an address as three bit fields: the offset in
the line, the set, and the tag.  `Splitter.split` takes an address apart and `Splitter.join` gives
the first address of a line back.
-/

namespace StackedCache

def addressBits : Nat := 64

/-- The number of zeros at the low end of `n`, for `0 < n`. -/
def lowZeros (n : Nat) : Nat :=
  if h : n = 0 ∨ n % 2 = 1 then 0 else 1 + lowZeros (n / 2)
termination_by n
decreasing_by omega

/-- The width of the field that counts up to `size`: the exponent of a power of two, and the whole
width of an address for zero. -/
def fieldBits (size : Nat) : Nat := if size = 0 then addressBits else lowZeros size

/-- The mask of the low `bits` bits, at most a whole address. -/
def lowMask (bits : Nat) : Nat := 2 ^ min bits addressBits - 1

/-- The fields of an address. -/
structure SplitAddress where
  set : Nat
  tag : Nat
  offset : Nat
  deriving DecidableEq, Repr

/-- The widths of the offset and set fields. -/
structure Splitter where
  lineBits : Nat
  setBits : Nat
  deriving DecidableEq, Repr

namespace Splitter

def ofSizes (lineSize sets : Nat) : Splitter := ⟨fieldBits lineSize, fieldBits sets⟩

def lineSize (s : Splitter) : Nat := 2 ^ s.lineBits

def sets (s : Splitter) : Nat := 2 ^ s.setBits

def split (s : Splitter) (addr : Nat) : SplitAddress where
  set := addr / s.lineSize % s.sets
  tag := addr / s.lineSize / s.sets
  offset := addr % s.lineSize

/-- The first address of a line.  Bits that do not fit into an address are lost. -/
def join (s : Splitter) (set tag : Nat) : Nat :=
  ((tag * s.sets % 2 ^ addressBits) ||| set) * s.lineSize % 2 ^ addressBits

end Splitter

/-- A power of two has as many low zeros as its exponent. -/
theorem lowZeros_two_pow (k : Nat) : lowZeros (2 ^ k) = k := by
  induction k with
  | zero => simp [lowZeros]
  | succ k ih =>
      have positive : 0 < 2 ^ k := Nat.two_pow_pos k
      rw [lowZeros, dif_neg (by omega), Nat.pow_succ, Nat.mul_div_cancel _ (by decide), ih]
      omega

theorem fieldBits_two_pow (k : Nat) : fieldBits (2 ^ k) = k := by
  rw [fieldBits, if_neg (Nat.ne_of_gt (Nat.two_pow_pos k)), lowZeros_two_pow]

end StackedCache
