import Mathlib.Data.List.Forall2
import Mathlib.Data.Nat.Digits.Defs
import Mathlib.Tactic.IntervalCases
import StackedCache.Text.Numeral

/-!
# The language of numerals

Which texts are numerals, and of which numbers: digits in either case with their usual place values,
a plus sign in front if there is one, and the mark of a hexadecimal numeral.  A word is read as a
number exactly if it is such a text and the number fits: `wordNumeral?_eq_some_iff`.

What is printed is read back: `isWordNumeral_of_written`.
-/

namespace StackedCache.Text

variable {base bound d n : Nat} {c : Char} {s word : List Char}

/-! ## Digits -/

/-- The character shows a digit of the base, a letter in lower or upper case. -/
def Shows (base : Nat) (c : Char) (d : Nat) : Prop :=
  d < base ∧ (c = d.digitChar ∨ c = d.digitChar.toUpper)

/-- At least one digit of the base, with the number the digits make up. -/
def IsDigits (base : Nat) (s : List Char) (n : Nat) : Prop :=
  s ≠ [] ∧ ∃ ds, List.Forall₂ (Shows base) s ds ∧ n = Nat.ofDigits base ds.reverse

/-- The code points of the three ranges of digits. -/
theorem digit?_eq_some_cases (read : digit? base c = some d) :
    d < base ∧ ((c.toNat = 48 + d ∧ d < 10) ∨ (c.toNat = 87 + d ∧ 10 ≤ d ∧ d < 16) ∨
      (c.toNat = 55 + d ∧ 10 ≤ d ∧ d < 16)) := by
  simp only [digit?, Option.filter_eq_some_iff, decide_eq_true_eq, Bool.and_eq_true,
    Char.le_def, UInt32.le_iff_toNat_le] at read
  rcases read with ⟨value, d_lt⟩
  have code : c.val.toNat = c.toNat := rfl
  refine ⟨d_lt, ?_⟩
  split at value
  · rename_i range
    have low : 48 ≤ c.toNat := range.1
    have high : c.toNat ≤ 57 := range.2
    have eq : c.toNat - 48 = d := Option.some.inj value
    omega
  · split at value
    · rename_i range
      have low : 97 ≤ c.toNat := range.1
      have high : c.toNat ≤ 102 := range.2
      have eq : c.toNat - 97 + 10 = d := Option.some.inj value
      omega
    · split at value
      · rename_i range
        have low : 65 ≤ c.toNat := range.1
        have high : c.toNat ≤ 70 := range.2
        have eq : c.toNat - 65 + 10 = d := Option.some.inj value
        omega
      · cases value

/-- A digit of the greatest base is one of every base above it. -/
theorem digit?_of_lt (read : digit? 16 c = some d) (d_lt : d < base) : digit? base c = some d := by
  simp only [digit?, Option.filter_eq_some_iff] at read ⊢
  exact ⟨read.1, by simpa using d_lt⟩

theorem digit?_digitChar :
    ∀ d < 16, digit? 16 d.digitChar = some d ∧ digit? 16 d.digitChar.toUpper = some d := by
  decide

theorem digit?_eq_some_iff (small : base ≤ 16) : digit? base c = some d ↔ Shows base c d := by
  constructor
  · intro read
    rcases digit?_eq_some_cases read with ⟨d_lt, ⟨code, least⟩ | ⟨code, least, most⟩ |
      ⟨code, least, most⟩⟩
    · refine ⟨d_lt, .inl (Char.toNat_inj.1 ?_)⟩
      rw [Nat.toNat_digitChar_of_lt_ten least, code]
    · refine ⟨d_lt, .inl (Char.toNat_inj.1 ?_)⟩
      interval_cases d <;> exact code
    · refine ⟨d_lt, .inr (Char.toNat_inj.1 ?_)⟩
      interval_cases d <;> exact code
  · rintro ⟨d_lt, rfl | rfl⟩
    · exact digit?_of_lt (digit?_digitChar d (lt_of_lt_of_le d_lt small)).1 d_lt
    · exact digit?_of_lt (digit?_digitChar d (lt_of_lt_of_le d_lt small)).2 d_lt

theorem mapM_digit?_eq_some_iff (small : base ≤ 16) {ds : List Nat} :
    s.mapM (digit? base) = some ds ↔ List.Forall₂ (Shows base) s ds := by
  induction s generalizing ds with
  | nil => simp [eq_comm]
  | cons c s ih =>
      simp only [List.mapM_cons, bind, pure, Option.bind_eq_some_iff, Option.some.injEq,
        digit?_eq_some_iff small, ih]
      constructor
      · rintro ⟨d, shown, ds, others, rfl⟩
        exact .cons shown others
      · intro shown
        cases shown with
        | cons shown others => exact ⟨_, shown, _, others, rfl⟩

/-- Appending digits one by one gives every digit the value of its place. -/
theorem foldl_appendDigit (base : Nat) (ds : List Nat) :
    ds.foldl (appendDigit base) 0 = Nat.ofDigits base ds.reverse := by
  rw [Nat.ofDigits_eq_foldr, List.foldr_reverse]
  congr 1
  funext value digit
  rw [appendDigit, Nat.cast_id, Nat.mul_comm, Nat.add_comm]

theorem digits?_eq_some_iff (small : base ≤ 16) : digits? base s = some n ↔ IsDigits base s n := by
  unfold digits? IsDigits
  by_cases empty : s = []
  · simp [empty]
  · simp only [List.isEmpty_iff, empty, if_false, Option.map_eq_some_iff,
      mapM_digit?_eq_some_iff small, foldl_appendDigit, ne_eq, not_false_eq_true, true_and]
    simp only [eq_comm]

/-! ## Numerals -/

/-- Digits of the base, after a plus sign or without one. -/
def IsNumeral (base : Nat) (s : List Char) (n : Nat) : Prop :=
  IsDigits base s n ∨ ∃ digits, s = '+' :: digits ∧ IsDigits base digits n

/-- A hexadecimal numeral behind its mark, or else a decimal one, of a number of 64 bits. -/
def IsWordNumeral (word : List Char) (n : Nat) : Prop :=
  n < 2 ^ 64 ∧
    (IsNumeral 10 word n ∨
      ∃ digits, (word = '0' :: 'x' :: digits ∨ word = '0' :: 'X' :: digits) ∧ IsNumeral 16 digits n)

/-- The first character of digits is one. -/
theorem IsDigits.first (h : IsDigits base (c :: s) n) : ∃ d, Shows base c d := by
  rcases h with ⟨_, ds, shown, _⟩
  cases shown with
  | cons first _ => exact ⟨_, first⟩

theorem not_shows_plus (d : Nat) (small : base ≤ 16) : ¬Shows base '+' d := by
  intro shown
  have read := (digit?_eq_some_iff small).2 shown
  simp [digit?] at read

theorem digits?_withoutPlus_eq_some_iff (small : base ≤ 16) :
    digits? base (withoutPlus s) = some n ↔ IsNumeral base s n := by
  unfold withoutPlus
  split
  · rename_i digits
    rw [digits?_eq_some_iff small]
    constructor
    · intro run
      exact .inr ⟨digits, rfl, run⟩
    · rintro (run | ⟨others, same, run⟩)
      · rcases run.first with ⟨d, shown⟩
        exact absurd shown (not_shows_plus d small)
      · cases same
        exact run
  · rename_i unsigned
    rw [digits?_eq_some_iff small]
    constructor
    · exact .inl
    · rintro (run | ⟨digits, same, _⟩)
      · exact run
      · exact absurd same (unsigned digits)

theorem numeral?_eq_some_iff (small : base ≤ 16) :
    numeral? base bound s = some n ↔ n < bound ∧ IsNumeral base s n := by
  rw [numeral?, Option.filter_eq_some_iff, digits?_withoutPlus_eq_some_iff small,
    decide_eq_true_eq, and_comm]

/-- No decimal numeral has the mark of a hexadecimal one. -/
theorem IsNumeral.not_marked {mark : Char} (h : IsNumeral 10 ('0' :: mark :: s) n) :
    mark ≠ 'x' ∧ mark ≠ 'X' := by
  rcases h with ⟨_, ds, shown, _⟩ | ⟨_, same, _⟩
  · cases shown with
    | cons _ shown =>
        cases shown with
        | cons second _ =>
            have read := (digit?_eq_some_iff (by decide)).2 second
            constructor <;> rintro rfl <;> simp [digit?] at read
  · cases same

/-- The words that are read as numbers. -/
theorem wordNumeral?_eq_some_iff : wordNumeral? word = some n ↔ IsWordNumeral word n := by
  unfold wordNumeral? IsWordNumeral bound64
  split
  · rename_i digits
    rw [numeral?_eq_some_iff (by decide)]
    constructor
    · rintro ⟨fits, run⟩
      exact ⟨fits, .inr ⟨digits, .inl rfl, run⟩⟩
    · rintro ⟨fits, run | ⟨others, same | same, run⟩⟩
      · exact absurd rfl run.not_marked.1
      · cases same
        exact ⟨fits, run⟩
      · cases same
  · rename_i digits
    rw [numeral?_eq_some_iff (by decide)]
    constructor
    · rintro ⟨fits, run⟩
      exact ⟨fits, .inr ⟨digits, .inr rfl, run⟩⟩
    · rintro ⟨fits, run | ⟨others, same | same, run⟩⟩
      · exact absurd rfl run.not_marked.2
      · cases same
      · cases same
        exact ⟨fits, run⟩
  · rename_i lower upper
    rw [numeral?_eq_some_iff (by decide)]
    constructor
    · rintro ⟨fits, run⟩
      exact ⟨fits, .inl run⟩
    · rintro ⟨fits, run | ⟨digits, same | same, _⟩⟩
      · exact ⟨fits, run⟩
      · exact absurd same (lower digits)
      · exact absurd same (upper digits)

/-! ## Printed numbers -/

/-- The ways to write a number: decimal, or hexadecimal in lower or upper case. -/
inductive Written (n : Nat) : List Char → Prop where
  | decimal : Written n (Nat.toDigits 10 n)
  | lower {mark : Char} (marked : mark = 'x' ∨ mark = 'X') :
      Written n ('0' :: mark :: Nat.toDigits 16 n)
  | upper {mark : Char} (marked : mark = 'x' ∨ mark = 'X') :
      Written n ('0' :: mark :: (Nat.toDigits 16 n).map Char.toUpper)

/-- Printed digits stand for the number they were printed for. -/
theorem isDigits_toDigits (large : 1 < base) (n : Nat) : IsDigits base (Nat.toDigits base n) n := by
  refine ⟨Nat.toDigits_ne_nil, ?_⟩
  induction n using Nat.strongRecOn with
  | ind n ih =>
      rw [Nat.toDigits_eq_if large]
      split
      · rename_i n_lt
        exact ⟨[n], .cons ⟨n_lt, .inl rfl⟩ .nil, by simp⟩
      · rename_i n_ge
        have smaller : n / base < n := Nat.div_lt_self (by omega) large
        rcases ih (n / base) smaller with ⟨ds, shown, value⟩
        have last : Shows base (n % base).digitChar (n % base) :=
          ⟨Nat.mod_lt n (by omega), .inl rfl⟩
        refine ⟨ds ++ [n % base], List.rel_append shown (.cons last .nil), ?_⟩
        calc
          n = n % base + base * (n / base) := (Nat.mod_add_div n base).symm
          _ = n % base + base * Nat.ofDigits base ds.reverse := by rw [← value]
          _ = Nat.ofDigits base (ds ++ [n % base]).reverse := by
              rw [List.reverse_append, List.reverse_singleton, List.singleton_append,
                Nat.ofDigits_cons]

/-- Digits in upper case stand for the same number. -/
theorem IsDigits.map_toUpper (small : base ≤ 16) (h : IsDigits base s n) :
    IsDigits base (s.map Char.toUpper) n := by
  have upper (c : Char) (d : Nat) (shown : Shows base c d) : Shows base c.toUpper d := by
    rcases shown with ⟨d_lt, shown⟩
    have most : d < 16 := lt_of_lt_of_le d_lt small
    refine ⟨d_lt, .inr ?_⟩
    rcases shown with rfl | rfl
    · rfl
    · interval_cases d <;> rfl
  rcases h with ⟨filled, ds, shown, value⟩
  refine ⟨by simpa using filled, ds, ?_, value⟩
  exact List.forall₂_map_left_iff.2 (shown.imp upper)

/-- A number starts with a digit. -/
theorem Written.ne_comment (written : Written n word) : word ≠ '#' :: s := by
  cases written with
  | decimal =>
      intro same
      have mark : '#' ∈ Nat.toDigits 10 n := same ▸ List.mem_cons_self
      have digit := Nat.isDigit_of_mem_toDigits (by decide) (by decide) mark
      exact absurd digit (by decide)
  | lower _ => nofun
  | upper _ => nofun

theorem isWordNumeral_of_written (fits : n < 2 ^ 64) (written : Written n word) :
    IsWordNumeral word n := by
  refine ⟨fits, ?_⟩
  have marks {mark : Char} {digits : List Char} (marked : mark = 'x' ∨ mark = 'X') :
      '0' :: mark :: digits = '0' :: 'x' :: digits ∨
        '0' :: mark :: digits = '0' :: 'X' :: digits := by
    rcases marked with rfl | rfl
    · exact .inl rfl
    · exact .inr rfl
  have digits : IsDigits 16 (Nat.toDigits 16 n) n := isDigits_toDigits (by decide) n
  cases written with
  | decimal => exact .inl (.inl (isDigits_toDigits (by decide) n))
  | lower marked => exact .inr ⟨_, marks marked, .inl digits⟩
  | upper marked => exact .inr ⟨_, marks marked, .inl (digits.map_toUpper (by decide))⟩

end StackedCache.Text
