import StackedCache.Text.Numeral

/-!
# Reading decimals

A decimal is a sign, digits with at most one point among them, and an exponent; the sign, the
digits on one side of the point and the exponent may be missing.  The words `inf`, `infinity` and
`nan` are read too, in any case.  The result is the float nearest to the written value.
-/

namespace StackedCache.Decimal

open StackedCache.Text

def powerOfTen (n : Nat) : Float := Float.ofScientific 1 false n

def infinity : Float := 1.0 / 0.0

/-- The float with the given sign and magnitude. -/
def signed (negative : Bool) (x : Float) : Float := if negative then -x else x

/-- The float nearest to `significand · 10 ^ exponent`.  Values beyond the range of floats are
settled by their number of digits, without computing the power. -/
def nearest (significand : Nat) (exponent : Int) : Float :=
  let size := exponent + (toString significand).length
  if significand = 0 || size < -400 then 0.0
  else if 400 < size then infinity
  else Float.ofScientific significand (exponent < 0) exponent.natAbs

/-- A run of decimal digits and what follows it. -/
def spanDigits (s : List Char) : List Char × List Char :=
  (s.takeWhile Char.isDigit, s.dropWhile Char.isDigit)

/-- The value of a run of decimal digits, zero for an empty run. -/
def digitsValue (s : List Char) : Nat := (digits? 10 s).getD 0

def signedInt? : List Char → Option Int
  | '-' :: s => (digits? 10 s).map fun n => -(n : Int)
  | '+' :: s => (digits? 10 s).map fun n => (n : Int)
  | s => (digits? 10 s).map fun n => (n : Int)

/-- The exponent that ends a decimal, zero if there is none. -/
def exponentPart? : List Char → Option Int
  | [] => some 0
  | 'e' :: s => signedInt? s
  | 'E' :: s => signedInt? s
  | _ => none

/-- A decimal without its sign. -/
def readUnsigned? (s : List Char) : Option Float :=
  let lower := String.ofList (s.map Char.toLower)
  if lower = "inf" || lower = "infinity" then some infinity
  else if lower = "nan" then some (0.0 / 0.0)
  else
    let (whole, rest) := spanDigits s
    let (decimals, rest) :=
      match rest with
      | '.' :: rest => spanDigits rest
      | rest => ([], rest)
    if whole.isEmpty && decimals.isEmpty then none
    else
      (exponentPart? rest).map fun exponent =>
        nearest (digitsValue (whole ++ decimals)) (exponent - decimals.length)

def read? : List Char → Option Float
  | '-' :: s => (readUnsigned? s).map (signed true)
  | '+' :: s => readUnsigned? s
  | s => readUnsigned? s

end StackedCache.Decimal
