import StackedCache.Decimal.Binary

/-!
# A fixed number of decimals

`Decimal.fixed` writes a float with a given number of decimals.  The exact binary value is rounded,
once, to the nearest multiple of the last place, and a half goes to the even neighbour.
-/

namespace StackedCache.Decimal

/-- The integer nearest to `num / den`; of two equally near ones, the even one. -/
def roundDiv (num den : Nat) : Nat :=
  let below := num / den
  let rest := num % den
  if 2 * rest < den then below
  else if den < 2 * rest then below + 1
  else below + below % 2

/-- The value `m · 2^q` in units of `10 ^ -places`, rounded. -/
def inPlaces (places m : Nat) (q : Int) : Nat :=
  if 0 ≤ q then m * 2 ^ q.toNat * 10 ^ places
  else roundDiv (m * 10 ^ places) (2 ^ (-q).toNat)

/-- The sign as it stands in front of a number; a negative zero has one. -/
def signText (negative : Bool) : String := if negative then "-" else ""

def zeros (n : Nat) : String := String.ofList (List.replicate n '0')

/-- `n` in decimal, with zeros in front up to `width` characters. -/
def padded (width n : Nat) : String :=
  let digits := toString n
  zeros (width - digits.length) ++ digits

/-- The decimal text of a float with `places` decimals, at least one. -/
def fixed (places : Nat) (x : Float) : String :=
  match Binary.ofFloat x with
  | .nan => "NaN"
  | .infinite negative => signText negative ++ "inf"
  | .finite negative m q =>
      let units := inPlaces places m q
      let scale := 10 ^ places
      signText negative ++ toString (units / scale) ++ "." ++ padded places (units % scale)

/-- A rounded quotient is at most half a unit off. -/
theorem roundDiv_near (num den : Nat) (h : 0 < den) :
    2 * num ≤ 2 * (roundDiv num den * den) + den ∧
      2 * (roundDiv num den * den) ≤ 2 * num + den := by
  have split := Nat.div_add_mod num den
  have small := Nat.mod_lt num h
  have comm : den * (num / den) = num / den * den := Nat.mul_comm _ _
  have parity : num / den % 2 = 0 ∨ num / den % 2 = 1 := by omega
  unfold roundDiv
  simp only
  split
  · omega
  · split
    · rw [Nat.add_mul, Nat.one_mul]
      omega
    · rcases parity with even | odd
      · rw [even, Nat.add_zero]
        omega
      · rw [odd, Nat.add_mul, Nat.one_mul]
        omega

/-- A quotient half way between two integers is rounded to the even one. -/
theorem roundDiv_even {num den : Nat} (h : 2 * (num % den) = den) :
    roundDiv num den % 2 = 0 := by
  unfold roundDiv
  simp only
  rw [if_neg (by omega), if_neg (by omega)]
  omega

end StackedCache.Decimal
