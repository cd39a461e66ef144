import StackedCache.Arithmetic

/-!
# Binary floating point, taken apart

A 64-bit float is a NaN, an infinity, or a signed multiple `m · 2^q` of a power of two.
`Binary.ofFloat` reads the three fields of the bit pattern, so that whatever is said about a
float's digits, its rounding or its order is said in exact integer arithmetic.
-/

namespace StackedCache.Decimal

/-- What the bits of a float stand for. -/
inductive Binary where
  /-- No number. -/
  | nan
  /-- An infinity and its sign. -/
  | infinite (negative : Bool)
  /-- The value `± mantissa · 2 ^ exponent`; zero keeps its sign. -/
  | finite (negative : Bool) (mantissa : Nat) (exponent : Int)
  deriving DecidableEq, Repr

namespace Binary

def fractionBits : Nat := 52

/-- The exponent of the last fraction bit of a number with an all-zero exponent field. -/
def leastExponent : Int := -1074

/-- The exponent field of infinities and NaNs. -/
def topField : Nat := 2047

/-- The sign bit, the eleven bits of the exponent and the fraction, in that order. -/
def fields (x : Float) : Bool × Nat × Nat :=
  let bits := x.toBits.toNat
  (bits ≥ 2 ^ 63, bits / 2 ^ fractionBits % 2048, bits % 2 ^ fractionBits)

/-- The value of a float.  A nonzero exponent field implies a leading one bit. -/
def ofFloat (x : Float) : Binary :=
  let (negative, field, fraction) := fields x
  if field = topField then
    if fraction = 0 then .infinite negative else .nan
  else if field = 0 then
    .finite negative fraction leastExponent
  else
    .finite negative (2 ^ fractionBits + fraction) (leastExponent + (field - 1 : Nat))

/-- The least natural number at or above the value, `none` for infinities and NaNs; a negative
value rounds up to zero. -/
def ceil? : Binary → Option Nat
  | .finite true _ _ => some 0
  | .finite false m q =>
      if 0 ≤ q then some (m * 2 ^ q.toNat)
      else some ((m + (2 ^ (-q).toNat - 1)) / 2 ^ (-q).toNat)
  | _ => none

end Binary

end StackedCache.Decimal
