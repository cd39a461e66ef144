import Mathlib.Data.List.DropRight
import StackedCache.Text.Blank

/-!
# Texts as words and gaps

`Spaced` says how a text is put together: words, blanks around them if there are any, and at least
one blank between two of them.  Every text is put together in exactly one way, and `words` finds it:
`words_eq_iff`.

A line is passed over if nothing is left of it without the blanks at its ends, or what is left
starts with a number sign: `lineWords_eq_none_iff`.
-/

namespace StackedCache.Text

variable {s gap word rest : List Char} {ws : List (List Char)} {c : Char}

/-- Nothing but blanks. -/
def Gap (s : List Char) : Prop := ∀ c ∈ s, isBlank c = true

/-- At least one character, and no blank. -/
structure IsWord (word : List Char) : Prop where
  ne_nil : word ≠ []
  solid : ∀ c ∈ word, isBlank c = false

/-- The text is at its end or at a blank, so no word goes on here. -/
def Closed : List Char → Prop
  | [] => True
  | c :: _ => isBlank c = true

/-- The text consists of the words in order, with gaps between them. -/
inductive Spaced : List Char → List (List Char) → Prop where
  | gap {gap : List Char} (blank : Gap gap) : Spaced gap []
  | word {gap word rest : List Char} {ws : List (List Char)} (blank : Gap gap) (solid : IsWord word)
      (closed : Closed rest) (others : Spaced rest ws) : Spaced (gap ++ word ++ rest) (word :: ws)

/-! ## The words of a text -/

@[simp]
theorem words_nil : words [] = [] := rfl

theorem words_cons_blank (blank : isBlank c = true) (s : List Char) : words (c :: s) = words s := by
  simpa using words_append_blank blank [] s

theorem words_gap_append (blank : Gap gap) (s : List Char) : words (gap ++ s) = words s := by
  induction gap with
  | nil => rfl
  | cons c gap ih =>
      have first : isBlank c = true := blank c List.mem_cons_self
      have others : Gap gap := fun d mem => blank d (List.mem_cons_of_mem _ mem)
      rw [List.cons_append, words_cons_blank first, ih others]

theorem words_word (solid : IsWord word) : words word = [word] := by
  have read (s : List Char) (all : ∀ c ∈ s, isBlank c = false) :
      s.foldr wordsStep ([], []) = (s, []) := by
    induction s with
    | nil => rfl
    | cons c s ih =>
        have others := ih fun d mem => all d (List.mem_cons_of_mem _ mem)
        simp [wordsStep, others, all c List.mem_cons_self]
  simp [words, read word solid.solid, closeWord, solid.ne_nil]

theorem words_word_append (solid : IsWord word) (closed : Closed rest) :
    words (word ++ rest) = word :: words rest := by
  cases rest with
  | nil => rw [List.append_nil, words_word solid, words_nil]
  | cons c rest =>
      rw [words_append_blank closed, words_word solid, words_cons_blank closed]
      rfl

theorem Spaced.words_eq (h : Spaced s ws) : words s = ws := by
  induction h with
  | gap blank => simpa using words_gap_append blank []
  | word blank solid closed _ ih =>
      rw [List.append_assoc, words_gap_append blank, words_word_append solid closed, ih]

/-- One more blank in front does not change the words. -/
theorem Spaced.cons_blank (blank : isBlank c = true) (h : Spaced s ws) : Spaced (c :: s) ws := by
  have longer {gap : List Char} (all : Gap gap) : Gap (c :: gap) := by
    intro d mem
    rcases List.mem_cons.1 mem with rfl | mem
    · exact blank
    · exact all d mem
  cases h with
  | gap all => exact .gap (longer all)
  | word all solid closed others => exact .word (longer all) solid closed others

/-- One more character in front that is no blank is a word of its own or makes the first one
longer. -/
theorem Spaced.cons_solid (letter : isBlank c = false) (h : Spaced s ws) :
    ∃ ws', Spaced (c :: s) ws' := by
  have alone : IsWord [c] := ⟨by simp, by simpa using letter⟩
  have blank : Gap [] := nofun
  cases s with
  | nil => exact ⟨_, .word blank alone trivial h⟩
  | cons d s =>
      by_cases next : isBlank d = true
      · exact ⟨_, .word blank alone next h⟩
      · -- The text goes on with a word, which becomes longer.
        generalize text : d :: s = t at h
        cases h with
        | gap all =>
            subst text
            exact absurd (all d List.mem_cons_self) next
        | @word gap word rest ws all solid closed others =>
            cases gap with
            | nil =>
                have longer : IsWord (c :: word) := by
                  refine ⟨List.cons_ne_nil _ _, fun e mem => ?_⟩
                  rcases List.mem_cons.1 mem with rfl | mem
                  · exact letter
                  · exact solid.solid e mem
                exact ⟨_, .word blank longer closed others⟩
            | cons e gap =>
                have same : d = e := (List.cons.inj text).1
                exact absurd (all d (same ▸ List.mem_cons_self)) next

theorem exists_spaced (s : List Char) : ∃ ws, Spaced s ws := by
  induction s with
  | nil => exact ⟨[], .gap nofun⟩
  | cons c s ih =>
      rcases ih with ⟨ws, spaced⟩
      cases kind : isBlank c with
      | true => exact ⟨ws, spaced.cons_blank kind⟩
      | false => exact spaced.cons_solid kind

/-- The words are those that the text is put together from. -/
theorem words_eq_iff : words s = ws ↔ Spaced s ws := by
  constructor
  · rintro rfl
    rcases exists_spaced s with ⟨ws, spaced⟩
    rwa [spaced.words_eq]
  · exact Spaced.words_eq

/-- Whatever holds of some words of a text holds of its words. -/
theorem Spaced.exists_iff {P : List (List Char) → Prop} (h : Spaced s ws) :
    (∃ ws', Spaced s ws' ∧ P ws') ↔ P ws := by
  constructor
  · rintro ⟨ws', spaced, holds⟩
    have same : ws' = ws := spaced.words_eq.symm.trans h.words_eq
    exact same ▸ holds
  · intro holds
    exact ⟨ws, h, holds⟩

/-! ## Lines that are passed over -/

/-- The text without the blanks at its ends. -/
def trimmed (s : List Char) : List Char := (s.dropWhile isBlank).rdropWhile isBlank

/-- Nothing is left of the line, or a comment. -/
def Skipped (s : List Char) : Prop := trimmed s = [] ∨ ∃ comment, trimmed s = '#' :: comment

theorem dropWhile_gap_append (blank : Gap gap) (s : List Char) :
    (gap ++ s).dropWhile isBlank = s.dropWhile isBlank :=
  List.dropWhile_append_of_pos blank

/-- What is left starts with the first word. -/
theorem trimmed_word (blank : Gap gap) (letter : isBlank c = false) (s : List Char) :
    ∃ others, trimmed (gap ++ c :: s) = c :: others := by
  have front : (gap ++ c :: s).dropWhile isBlank = c :: s := by
    rw [dropWhile_gap_append blank, List.dropWhile_cons_of_neg (by simp [letter])]
  rw [trimmed, front, List.rdropWhile, List.reverse_cons, List.dropWhile_append]
  split
  · exact ⟨[], by simp [letter]⟩
  · exact ⟨(s.reverse.dropWhile isBlank).reverse, by simp⟩

theorem lineWords_eq_none_iff : lineWords s = none ↔ Skipped s := by
  rcases exists_spaced s with ⟨ws, spaced⟩
  unfold lineWords Skipped
  rw [spaced.words_eq]
  cases spaced with
  | gap blank =>
      have nothing : trimmed s = [] := by
        have front : s.dropWhile isBlank = [] := List.dropWhile_eq_nil_iff.2 blank
        rw [trimmed, front]
        rfl
      simp [nothing]
  | @word gap word rest ws blank solid closed others =>
      rcases List.exists_cons_of_ne_nil solid.ne_nil with ⟨c, letters, rfl⟩
      have letter : isBlank c = false := solid.solid c List.mem_cons_self
      have front := trimmed_word blank letter (letters ++ rest)
      rcases front with ⟨left, front⟩
      rw [List.append_assoc, List.cons_append, front]
      by_cases comment : c = '#'
      · simp [comment]
      · simp only [reduceCtorEq, false_or, List.cons.injEq]
        constructor
        · intro none
          split at none
          · rename_i empty
            cases empty
          · rename_i mark
            exact absurd (List.cons.inj (List.cons.inj mark).1).1 comment
          · cases none
        · rintro ⟨_, mark, _⟩
          exact absurd mark comment

/-- A line that is not passed over gives its words. -/
theorem lineWords_eq_some_iff : lineWords s = some ws ↔ ¬Skipped s ∧ Spaced s ws := by
  rw [← lineWords_eq_none_iff, ← words_eq_iff]
  unfold lineWords
  split
  · simp
  · simp
  · simp

end StackedCache.Text
