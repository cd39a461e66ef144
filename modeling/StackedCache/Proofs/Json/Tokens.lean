import Mathlib.Data.List.TakeWhile
import StackedCache.Json.Printer
import StackedCache.Json.Reader
import StackedCache.Proofs.Text.Numerals

/-!
# Printed strings and numbers

A printed string is read back character by character, whatever it holds: `readString?_quoted`.

A number literal is read the same way whatever follows it, as long as the literal does not go on
there: `Literal.read?_extends`.  The literal of an integer stands for the integer it was printed
for: `Literal.value_toDigits`.
-/

namespace StackedCache

open Decimal Text

/-! ## Strings -/

namespace Json

variable {s rest : List Char} {points : List Nat} {fuel : Nat}

theorem hex4?_control : ∀ n < 0x20,
    hex4? ['0', '0', Nat.digitChar (n / 16), Nat.digitChar (n % 16)] = some (n, []) := by
  decide

theorem hex4?_append {n : Nat} {a b c d : Char} (rest : List Char)
    (read : hex4? [a, b, c, d] = some (n, [])) :
    hex4? (a :: b :: c :: d :: rest) = some (n, rest) := by
  simp only [hex4?, Option.map_eq_some_iff, Prod.mk.injEq, and_true] at read ⊢
  exact read

theorem readPoints?_plain {c : Char} (quote : c ≠ '"') (backslash : c ≠ '\\')
    (printing : ¬c.toNat < 0x20) :
    readPoints? (fuel + 1) (c :: rest) points = readPoints? fuel rest (c.toNat :: points) := by
  rw [readPoints?]
  · simp [printing, backslash]
  · exact quote
  · exact fun _ same => absurd same backslash
  · exact fun _ _ same => absurd same backslash

/-- An escaped character is read as one code point. -/
theorem readPoints?_escape (c : Char) :
    readPoints? (fuel + 1) ((escape c).toList ++ rest) points
      = readPoints? fuel rest (c.toNat :: points) := by
  unfold escape
  split
  case h_8 quote backslash _ _ _ _ _ =>
    split
    · rename_i control
      have hex := hex4?_append rest (hex4?_control c.toNat control)
      simp [readPoints?, hex]
    · rename_i printing
      simpa using readPoints?_plain quote backslash printing
  -- The other characters are known, and so are their escapes.
  all_goals rfl

theorem escape_ne_nil (c : Char) : (escape c).toList ≠ [] := by
  intro empty
  have read : readPoints? 1 ((escape c).toList ++ ['"']) [] = readPoints? 0 ['"'] [c.toNat] :=
    readPoints?_escape c
  rw [empty] at read
  cases read

/-- The characters of a printed string between its quotes. -/
def escapes (cs : List Char) : List Char := cs.flatMap fun c => (escape c).toList

theorem toList_quoted (s : String) : (quoted s).toList = '"' :: (escapes s.toList ++ ['"']) := by
  simp [quoted, escapes, String.toList_join, List.flatMap_map]

theorem length_le_length_escapes (cs : List Char) : cs.length ≤ (escapes cs).length := by
  induction cs with
  | nil => exact Nat.le_refl 0
  | cons c cs ih =>
      have first := List.length_pos_iff.2 (escape_ne_nil c)
      simp only [escapes, List.flatMap_cons, List.length_append, List.length_cons] at ih ⊢
      omega

theorem readPoints?_escapes {cs : List Char} (enough : cs.length ≤ fuel) :
    readPoints? (fuel + 1) (escapes cs ++ '"' :: rest) points
      = some (points.reverse ++ cs.map Char.toNat, rest) := by
  induction cs generalizing fuel points with
  | nil => simp [escapes, readPoints?]
  | cons c cs ih =>
      cases fuel with
      | zero => cases enough
      | succ fuel =>
          have others : cs.length ≤ fuel := by simpa using enough
          calc
            readPoints? (fuel + 2) (escapes (c :: cs) ++ '"' :: rest) points
              = readPoints? (fuel + 2) ((escape c).toList ++ (escapes cs ++ '"' :: rest)) points := by
                rw [escapes, List.flatMap_cons, List.append_assoc, escapes]
            _ = readPoints? (fuel + 1) (escapes cs ++ '"' :: rest) (c.toNat :: points) :=
                readPoints?_escape c
            _ = some ((c.toNat :: points).reverse ++ cs.map Char.toNat, rest) := ih others
            _ = some (points.reverse ++ (c :: cs).map Char.toNat, rest) := by simp

/-- A character is no surrogate, so it stands for itself. -/
theorem characters?_toNat (cs : List Char) : characters? (cs.map Char.toNat) = some cs := by
  induction cs with
  | nil => rfl
  | cons c cs ih =>
      have valid : c.toNat < 0xD800 ∨ 0xDFFF < c.toNat ∧ c.toNat < 0x110000 := c.valid
      have low : isLowSurrogate c.toNat = false := by
        simp only [isLowSurrogate, Bool.and_eq_false_iff, decide_eq_false_iff_not]
        omega
      have high : isHighSurrogate c.toNat = false := by
        simp only [isHighSurrogate, Bool.and_eq_false_iff, decide_eq_false_iff_not]
        omega
      unfold characters?
      simp [low, high, ih, Char.ofNat_toNat]

theorem readString?_quoted (s : String) :
    readString? (escapes s.toList ++ '"' :: rest) = some (some s, rest) := by
  have enough : s.toList.length ≤ (escapes s.toList ++ '"' :: rest).length := by
    have longer := length_le_length_escapes s.toList
    rw [List.length_append]
    omega
  rw [readString?, readPoints?_escapes enough]
  simp [characters?_toNat]

end Json

/-! ## Number literals -/

namespace Literal

variable {α : Type} {s t : List Char}

/-- The first character, where a pattern match has ruled it out. -/
theorem ne_of_cons_ne {c d : Char} (other : ∀ s', c :: s = d :: s' → False) : c ≠ d := by
  rintro rfl
  exact other s rfl

/-- No literal goes on with this text. -/
def Stops (t : List Char) : Prop :=
  ∀ c ∈ t.head?, c.isDigit = false ∧ c ≠ '.' ∧ c ≠ 'e' ∧ c ≠ 'E'

theorem spanDigits_append {digits rest : List Char} (stops : Stops t)
    (span : spanDigits s = (digits, rest)) : spanDigits (s ++ t) = (digits, rest ++ t) := by
  induction s generalizing digits rest with
  | nil =>
      cases span
      cases t with
      | nil => rfl
      | cons c t => simp [spanDigits, (stops c rfl).1]
  | cons c s ih =>
      have others := ih rfl
      simp only [spanDigits, Prod.mk.injEq] at span others
      rcases span with ⟨rfl, rfl⟩
      cases digit : c.isDigit with
      | true => simp [spanDigits, digit, others]
      | false => simp [spanDigits, digit]

/-- What is read at the start of a text does not depend on the text `t` behind it. -/
def Extends (read : List Char → Option (α × List Char)) (t : List Char) : Prop :=
  ∀ {s found rest}, read s = some (found, rest) → read (s ++ t) = some (found, rest ++ t)

theorem readWhole?_eq_some_iff {whole rest : List Char} :
    readWhole? s = some (whole, rest) ↔
      spanDigits s = (whole, rest) ∧ whole ≠ [] ∧ ∀ c cs, whole ≠ '0' :: c :: cs := by
  unfold readWhole?
  split
  · rename_i span
    simp only [span, Prod.mk.injEq]
    exact ⟨nofun, fun h => absurd h.1.1.symm h.2.1⟩
  · rename_i c cs _ span
    simp only [span, Prod.mk.injEq]
    exact ⟨nofun, fun h => absurd h.1.1.symm (h.2.2 c cs)⟩
  · rename_i filled proper
    rw [Option.some.injEq]
    constructor
    · intro span
      refine ⟨span, ?_, ?_⟩
      · rintro rfl
        exact filled _ span
      · rintro c cs rfl
        exact proper c cs _ span
    · exact fun h => h.1

theorem readWhole?_extends (stops : Stops t) : Extends readWhole? t := by
  intro s found rest read
  rw [readWhole?_eq_some_iff] at read ⊢
  exact ⟨spanDigits_append stops read.1, read.2⟩

theorem readPower?_extends (stops : Stops t) (down : Bool) : Extends (readPower? down) t := by
  intro s found rest read
  cases span : spanDigits s with
  | mk digits others =>
      have longer := spanDigits_append stops span
      cases digits with
      | nil => simp [readPower?, span] at read
      | cons c digits =>
          simp only [readPower?, span, Option.some.injEq, Prod.mk.injEq] at read
          simp [readPower?, longer, ← read.1, ← read.2]

theorem readSigned?_extends (stops : Stops t) : Extends readSigned? t := by
  intro s found rest read
  unfold readSigned? at read
  split at read
  · exact readPower?_extends stops false read
  · exact readPower?_extends stops true read
  · rename_i plus minus
    have longer := readPower?_extends stops false read
    cases s with
    | nil => cases read
    | cons c s => simpa [readSigned?, ne_of_cons_ne plus, ne_of_cons_ne minus] using longer

theorem readDecimals?_of_stops (stops : Stops t) : readDecimals? t = some ([], t) := by
  unfold readDecimals?
  split
  · exact absurd rfl (stops '.' rfl).2.1
  · rfl

theorem readDecimals?_extends (stops : Stops t) : Extends readDecimals? t := by
  intro s found rest read
  cases s with
  | nil =>
      cases read
      exact readDecimals?_of_stops stops
  | cons c s =>
      unfold readDecimals? at read
      split at read
      · rename_i same
        cases same
        cases span : spanDigits s with
        | mk digits others =>
            have longer := spanDigits_append stops span
            cases digits with
            | nil => simp [span] at read
            | cons c digits =>
                simp only [span, Option.some.injEq, Prod.mk.injEq] at read
                simp [readDecimals?, longer, ← read.1, ← read.2]
      · rename_i point
        cases read
        simp [readDecimals?, ne_of_cons_ne point]

theorem readExponent?_of_stops (stops : Stops t) : readExponent? t = some (none, t) := by
  unfold readExponent?
  split
  · exact absurd rfl (stops 'e' rfl).2.2.1
  · exact absurd rfl (stops 'E' rfl).2.2.2
  · rfl

theorem readExponent?_extends (stops : Stops t) : Extends readExponent? t := by
  intro s found rest read
  cases s with
  | nil =>
      cases read
      exact readExponent?_of_stops stops
  | cons c s =>
      unfold readExponent? at read
      split at read
      · rename_i same
        cases same
        exact readSigned?_extends stops read
      · rename_i same
        cases same
        exact readSigned?_extends stops read
      · rename_i lower upper
        cases read
        simp [readExponent?, ne_of_cons_ne lower, ne_of_cons_ne upper]

theorem readUnsigned?_extends (stops : Stops t) (negative : Bool) :
    Extends (readUnsigned? negative) t := by
  intro s found rest read
  simp only [readUnsigned?, bind, Option.bind_eq_some_iff, Prod.exists] at read ⊢
  rcases read with ⟨whole, s₁, read₁, decimals, s₂, read₂, exponent, s₃, read₃, same⟩
  cases same
  exact ⟨_, _, readWhole?_extends stops read₁, _, _, readDecimals?_extends stops read₂, _, _,
    readExponent?_extends stops read₃, rfl⟩

/-- A literal that is read is also read in front of a text on which it does not go on. -/
theorem read?_extends (stops : Stops t) : Extends read? t := by
  intro s found rest read
  unfold read? at read
  split at read
  · exact readUnsigned?_extends stops true read
  · rename_i unsigned
    have longer := readUnsigned?_extends stops false read
    cases s with
    | nil => cases read
    | cons c s => simpa [read?, ne_of_cons_ne unsigned] using longer

/-! ## Integers -/

variable {m n : Nat}

/-- A number with more than one digit does not start with a zero. -/
theorem head?_toDigits (zero : (Nat.toDigits 10 n).head? = some '0') : n = 0 := by
  induction n using Nat.strongRecOn with
  | ind n ih =>
      rw [Nat.toDigits_eq_if (by decide)] at zero
      split at zero
      · simpa using zero
      · -- All digits but the last are those of the tenth part.
        rename_i large
        have leading : (Nat.toDigits 10 (n / 10)).head? = some '0' := by
          simpa [List.head?_append_of_ne_nil _ Nat.toDigits_ne_nil] using zero
        have none_left := ih (n / 10) (by omega) leading
        omega

theorem readWhole?_toDigits (n : Nat) :
    readWhole? (Nat.toDigits 10 n) = some (Nat.toDigits 10 n, []) := by
  have digits : ∀ c ∈ Nat.toDigits 10 n, c.isDigit = true := fun c mem =>
    Nat.isDigit_of_mem_toDigits (by decide) (by decide) mem
  refine readWhole?_eq_some_iff.2 ⟨?_, Nat.toDigits_ne_nil, ?_⟩
  · rw [spanDigits, List.takeWhile_eq_self_iff.2 digits, List.dropWhile_eq_nil_iff.2 digits]
  · intro c cs long
    have zero : n = 0 := head?_toDigits (by rw [long]; rfl)
    subst zero
    cases long

theorem readUnsigned?_toDigits (negative : Bool) (n : Nat) :
    readUnsigned? negative (Nat.toDigits 10 n)
      = some (⟨negative, Nat.toDigits 10 n, [], none⟩, []) := by
  rw [readUnsigned?, readWhole?_toDigits]
  rfl

theorem le_foldl_appendDigit (ds : List Nat) (m : Nat) : m ≤ ds.foldl (appendDigit 10) m := by
  induction ds generalizing m with
  | nil => exact Nat.le_refl m
  | cons d ds ih =>
      calc
        m ≤ appendDigit 10 m d := by
          unfold appendDigit
          omega
        _ ≤ ds.foldl (appendDigit 10) (appendDigit 10 m d) := ih _

/-- All digits of a number that fits are collected. -/
theorem collectWhole_eq {s : List Char} {ds : List Nat} (shown : List.Forall₂ (Shows 10) s ds)
    (fits : ds.foldl (appendDigit 10) m ≤ significandLimit) :
    collectWhole s m = ⟨ds.foldl (appendDigit 10) m, 0⟩ := by
  induction shown generalizing m with
  | nil => rfl
  | @cons c d s ds first _ ih =>
      have value : digitsValue [c] = d := by
        have read : digits? 10 [c] = some d :=
          (digits?_eq_some_iff (by decide)).2 ⟨by simp, [d], .cons first .nil, by simp⟩
        rw [digitsValue, read, Option.getD_some]
      have next : appendDigit 10 m d ≤ significandLimit :=
        Nat.le_trans (le_foldl_appendDigit ds _) fits
      have appended : append? m c = some (appendDigit 10 m d) := by
        rw [append?, value]
        exact if_pos next
      simp only [collectWhole, appended]
      exact ih fits

theorem collectWhole_toDigits (fits : n < 2 ^ 64) :
    collectWhole (Nat.toDigits 10 n) 0 = ⟨n, 0⟩ := by
  have digits : IsDigits 10 (Nat.toDigits 10 n) n := isDigits_toDigits (by decide) n
  rcases digits with ⟨_, ds, shown, value⟩
  rw [← foldl_appendDigit] at value
  have limit : ds.foldl (appendDigit 10) 0 ≤ significandLimit := by
    rw [← value, significandLimit]
    omega
  rw [collectWhole_eq shown limit, ← value]

/-- The literal of an integer stands for it. -/
theorem value_toDigits (fits : n < 2 ^ 64) (negative : Bool) :
    value ⟨negative, Nat.toDigits 10 n, [], none⟩ = integerOf negative n := by
  simp only [value, collectWhole_toDigits fits, if_true]

/-- A printed natural number is read as itself. -/
theorem read?_natural (n : Nat) :
    read? (Nat.toDigits 10 n) = some (⟨false, Nat.toDigits 10 n, [], none⟩, []) := by
  unfold read?
  split
  · rename_i s same
    have mem : '-' ∈ Nat.toDigits 10 n := same ▸ List.mem_cons_self
    have digit := Nat.isDigit_of_mem_toDigits (by decide) (by decide) mem
    exact absurd digit (by decide)
  · exact readUnsigned?_toDigits false n

end Literal

end StackedCache
