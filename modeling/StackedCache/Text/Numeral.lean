import StackedCache.Arithmetic

/-!
# Numerals of bounded size

An unsigned numeral is an optional plus sign and at least one digit of the base.  It is refused
when its value does not fit below the bound.
-/

namespace StackedCache.Text

/-- The value of a digit, upper and lower case alike. -/
def digit? (base : Nat) (c : Char) : Option Nat :=
  let value? : Option Nat :=
    if '0' ≤ c && c ≤ '9' then some (c.toNat - '0'.toNat)
    else if 'a' ≤ c && c ≤ 'f' then some (c.toNat - 'a'.toNat + 10)
    else if 'A' ≤ c && c ≤ 'F' then some (c.toNat - 'A'.toNat + 10)
    else none
  value?.filter (· < base)

def appendDigit (base value digit : Nat) : Nat := value * base + digit

/-- The value of a nonempty run of digits. -/
def digits? (base : Nat) (s : List Char) : Option Nat :=
  if s.isEmpty then none
  else (s.mapM (digit? base)).map (·.foldl (appendDigit base) 0)

/-- The text without the plus sign that may stand in front. -/
def withoutPlus : List Char → List Char
  | '+' :: s => s
  | s => s

/-- The value of an unsigned numeral in a base up to sixteen, if it is below `bound`. -/
def numeral? (base bound : Nat) (s : List Char) : Option Nat :=
  (digits? base (withoutPlus s)).filter (· < bound)

/-- Numerals that fit in 64 bits. -/
def bound64 : Nat := 2 ^ 64

/-- Numerals that fit in 32 bits. -/
def bound32 : Nat := 2 ^ 32

/-- A 64-bit numeral: hexadecimal after `0x` or `0X`, else decimal. -/
def wordNumeral? : List Char → Option Nat
  | '0' :: 'x' :: s => numeral? 16 bound64 s
  | '0' :: 'X' :: s => numeral? 16 bound64 s
  | s => numeral? 10 bound64 s

/-- `n` in lower-case hexadecimal after `0x`. -/
def hexText (n : Nat) : String := "0x" ++ String.ofList (Nat.toDigits 16 n)

end StackedCache.Text
