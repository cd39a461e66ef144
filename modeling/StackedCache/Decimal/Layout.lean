import StackedCache.Decimal.Fixed
import StackedCache.Decimal.Shortest

/-!
# Laying out digits

A `Layout` decides how a number is written: with the point in place or with an exponent, and with or
without a decimal on whole numbers.  It also decides which digits are chosen when two decimals are
equally short and equally near.
-/

namespace StackedCache.Decimal

/-- How the digits of a number are written. -/
structure Layout where
  /-- Whether a number whose leading digit has this exponent is written without an exponent. -/
  positional : Int → Bool
  /-- What follows a whole number. -/
  wholeEnd : String
  tie : Tie

namespace Layout

/-- Never an exponent, and no decimals on whole numbers.  A tie goes away from zero. -/
def plain : Layout := ⟨fun _ => true, "", .upward⟩

/-- An exponent below `0.00001` and from `10^16` on; whole numbers keep one decimal.  A tie goes to
the even digit. -/
def document : Layout := ⟨fun e => -5 ≤ e && e ≤ 15, ".0", .toEven⟩

/-- The digits with the point where it belongs. -/
def inPlace (layout : Layout) (d : Digits) : String :=
  let digits := d.text
  if 0 ≤ d.exponent then
    digits ++ zeros d.exponent.toNat ++ layout.wholeEnd
  else
    let decimals := (-d.exponent).toNat
    let digits := zeros (decimals + 1 - digits.length) ++ digits
    let whole := digits.length - decimals
    String.ofList (digits.toList.take whole) ++ "." ++ String.ofList (digits.toList.drop whole)

/-- An exponent, which always has a sign. -/
def exponentText (e : Int) : String := "e" ++ (if 0 ≤ e then "+" else "-") ++ toString e.natAbs

/-- The leading digit, the others as decimals if there are any, and the leading exponent. -/
def withExponent (d : Digits) : String :=
  let point : List Char :=
    match d.text.toList with
    | [] => []
    | [c] => [c]
    | c :: cs => c :: '.' :: cs
  String.ofList point ++ exponentText d.leading

def digits (layout : Layout) (d : Digits) : String :=
  if layout.positional d.leading then layout.inPlace d else withExponent d

def text (layout : Layout) (x : Float) : String :=
  match Binary.ofFloat x with
  | .nan => "NaN"
  | .infinite negative => signText negative ++ "inf"
  | .finite negative m q =>
      signText negative ++
        if m = 0 then "0" ++ layout.wholeEnd else layout.digits (shortest layout.tie m q)

end Layout

end StackedCache.Decimal
