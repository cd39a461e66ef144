import StackedCache.Decimal.Reading
import StackedCache.Json.Basic

/-!
# Number literals

A literal has a minus sign or none, a whole part without superfluous zeros, and possibly decimals
and an exponent.

Its value is computed the short way: digits are collected in a 64-bit significand as long as they
fit, the digits that do not fit count only by their place, and one multiplication or division by a
power of ten finishes the float.  The result can differ from the nearest float in the last bit.
-/

namespace StackedCache

open StackedCache.Decimal StackedCache.Text

/-- A number literal, digit by digit. -/
structure Literal where
  negative : Bool
  whole : List Char
  decimals : List Char
  /-- The exponent's sign and digits. -/
  exponent : Option (Bool × List Char)

namespace Literal

def significandLimit : Nat := 2 ^ 64 - 1

/-- Exponents above this are not computed. -/
def exponentLimit : Nat := 2 ^ 31 - 1

/-- The greatest power of ten that is applied in one step. -/
def greatestPower : Nat := 308

/-- A significand with the power of ten that is still to be applied. -/
structure Collected where
  significand : Nat
  exponent : Int

/-- The significand with one more digit, if that fits. -/
def append? (significand : Nat) (c : Char) : Option Nat :=
  let longer := significand * 10 + digitsValue [c]
  if longer ≤ significandLimit then some longer else none

/-- Collects the digits of the whole part.  After the first digit that does not fit, the others
only count. -/
def collectWhole : List Char → Nat → Collected
  | [], significand => ⟨significand, 0⟩
  | c :: s, significand =>
      match append? significand c with
      | some longer => collectWhole s longer
      | none => ⟨significand, s.length + 1⟩

/-- Collects decimals up to the first that does not fit. -/
def collectDecimals : List Char → Collected → Collected
  | [], read => read
  | c :: s, read =>
      match append? read.significand c with
      | some longer => collectDecimals s ⟨longer, read.exponent - 1⟩
      | none => read

/-- Applies a power of ten; `none` above the range of floats. -/
def scale? (x : Float) (exponent : Int) : Option Float :=
  if exponent.natAbs ≤ greatestPower then
    if 0 ≤ exponent then
      let product := x * powerOfTen exponent.natAbs
      if product.isInf then none else some product
    else
      some (x / powerOfTen exponent.natAbs)
  else if x == 0.0 then some x
  else if _h : 0 ≤ exponent then none
  else scale? (x / powerOfTen greatestPower) (exponent + greatestPower)
termination_by exponent.natAbs
decreasing_by
  simp only [greatestPower] at *
  omega

/-- The float of the collected digits times `10 ^ exponent`. -/
def floatOf (negative : Bool) (read : Collected) : Number :=
  match scale? (Float.ofNat read.significand) read.exponent with
  | some x => .float (signed negative x)
  | none => .beyond

/-- The integer with the given significand.  A negative zero and negative integers beyond 64 bits
are floats. -/
def integerOf (negative : Bool) (significand : Nat) : Number :=
  if !negative then .natural significand
  else if significand = 0 || 2 ^ 63 < significand then .float (-Float.ofNat significand)
  else .negative significand

def value (l : Literal) : Number :=
  let whole := collectWhole l.whole 0
  match l.decimals, l.exponent with
  | [], none =>
      if whole.exponent = 0 then integerOf l.negative whole.significand
      else floatOf l.negative whole
  | decimals, exponent =>
      let read := collectDecimals decimals whole
      match exponent with
      | none => floatOf l.negative read
      | some (down, digits) =>
          let e := digitsValue digits
          if e ≤ exponentLimit then
            floatOf l.negative ⟨read.significand, if down then read.exponent - e else read.exponent + e⟩
          else if read.significand ≠ 0 && !down then .beyond
          else .float (signed l.negative 0.0)

/-- Reads the whole part: a zero alone, or digits that do not start with one. -/
def readWhole? (s : List Char) : Option (List Char × List Char) :=
  match spanDigits s with
  | ([], _) => none
  | ('0' :: _ :: _, _) => none
  | found => some found

/-- Reads the decimals, if a point follows. -/
def readDecimals? : List Char → Option (List Char × List Char)
  | '.' :: s =>
      match spanDigits s with
      | ([], _) => none
      | found => some found
  | s => some ([], s)

/-- Reads the digits of an exponent of the given sign. -/
def readPower? (down : Bool) (s : List Char) : Option (Option (Bool × List Char) × List Char) :=
  match spanDigits s with
  | ([], _) => none
  | (digits, rest) => some (some (down, digits), rest)

/-- Reads the sign and the digits after the exponent mark. -/
def readSigned? : List Char → Option (Option (Bool × List Char) × List Char)
  | '+' :: s => readPower? false s
  | '-' :: s => readPower? true s
  | s => readPower? false s

/-- Reads the exponent, if its mark follows. -/
def readExponent? : List Char → Option (Option (Bool × List Char) × List Char)
  | 'e' :: s => readSigned? s
  | 'E' :: s => readSigned? s
  | s => some (none, s)

/-- Reads a literal without its sign. -/
def readUnsigned? (negative : Bool) (s : List Char) : Option (Literal × List Char) := do
  let (whole, s) ← readWhole? s
  let (decimals, s) ← readDecimals? s
  let (exponent, s) ← readExponent? s
  pure (⟨negative, whole, decimals, exponent⟩, s)

/-- Reads the literal at the start of a text and returns what follows it. -/
def read? : List Char → Option (Literal × List Char)
  | '-' :: s => readUnsigned? true s
  | s => readUnsigned? false s

end Literal

end StackedCache
