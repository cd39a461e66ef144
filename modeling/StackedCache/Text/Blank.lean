/-!
# Blanks and words

A line is a sequence of words with blanks between them.  Blank means the Unicode property
`White_Space`.
-/

namespace StackedCache.Text

/-- The code points with the property `White_Space`, as closed ranges. -/
def blankRanges : List (Nat × Nat) :=
  [(0x9, 0xD), (0x20, 0x20), (0x85, 0x85), (0xA0, 0xA0), (0x1680, 0x1680), (0x2000, 0x200A),
   (0x2028, 0x2029), (0x202F, 0x202F), (0x205F, 0x205F), (0x3000, 0x3000)]

def isBlank (c : Char) : Bool :=
  blankRanges.any fun (low, high) => low ≤ c.toNat && c.toNat ≤ high

/-- The words found so far, after the word being read is closed. -/
def closeWord (word : List Char) (words : List (List Char)) : List (List Char) :=
  if word.isEmpty then words else word :: words

/-- Reads one more character in front of a text whose first word and further words are given. -/
def wordsStep (c : Char) (read : List Char × List (List Char)) : List Char × List (List Char) :=
  if isBlank c then ([], closeWord read.1 read.2) else (c :: read.1, read.2)

/-- The maximal runs of characters that are not blank, in order. -/
def words (s : List Char) : List (List Char) :=
  let read := s.foldr wordsStep ([], [])
  closeWord read.1 read.2

/-- The words of a line that says something: neither blank nor a comment, which starts with a
number sign. -/
def lineWords (s : List Char) : Option (List (List Char)) :=
  match words s with
  | [] => none
  | ('#' :: _) :: _ => none
  | fields => some fields

/-- Every character that core takes for white space is a blank. -/
theorem isBlank_of_isWhitespace {c : Char} (h : c.isWhitespace) : isBlank c := by
  simp only [Char.isWhitespace, Bool.or_eq_true, decide_eq_true_eq] at h
  rcases h with ((h | h) | h) | h <;> subst h <;> decide

/-! ## Laws of words -/

/-- A blank divides the words of a text. -/
theorem words_append_blank {c : Char} (h : isBlank c) (s t : List Char) :
    words (s ++ c :: t) = words s ++ words t := by
  have read (s : List Char) : (s ++ c :: t).foldr wordsStep ([], []) =
      ((s.foldr wordsStep ([], [])).1, (s.foldr wordsStep ([], [])).2 ++ words t) := by
    induction s with
    | nil => simp [words, wordsStep, h]
    | cons d s ih =>
        simp only [List.cons_append, List.foldr_cons, ih, wordsStep, closeWord]
        split <;> simp
        split <;> simp
  simp only [words, read, closeWord]
  split <;> simp

end StackedCache.Text
