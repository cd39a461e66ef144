import Mathlib.Data.List.DropRight
import StackedCache.Json.Library
import StackedCache.Proofs.Json.Tokens

/-!
# Printed documents

A printed document is read back as it is, at every depth: `Json.Expressible.reproduced`.

That does not hold of every value.  A value has to have a text in the first place, which a fault, an
integer of more than 64 bits and a number out of range do not have.  And the reader does not find
every float again, since it computes them the short way.  So the floats of the value have to be
found again when they stand alone.
-/

namespace StackedCache

open Decimal Text

namespace Json

/-- The document is read back from its text, up to the end of the text. -/
def Reproduced (v : Json) : Prop := Json.read v.pretty = ⟨v, true⟩

/-- The floats are found again when they stand alone. -/
def Found (known : Float → Prop) : Prop := ∀ x, known x → Reproduced (number (.float x))

variable {fuel level depth : Nat} {s t gap rest : List Char} {known : Float → Prop}

/-! ## Gaps -/

theorem skipGap_append (blank : ∀ c ∈ gap, isGap c) (s : List Char) :
    skipGap (gap ++ s) = skipGap s := List.dropWhile_append_of_pos blank

theorem skipGap_skipGap (s : List Char) : skipGap (skipGap s) = skipGap s :=
  List.dropWhile_idempotent ..

theorem isGap_newLine (level : Nat) : ∀ c ∈ (newLine level).toList, isGap c := by
  intro c mem
  simp only [newLine, String.toList_append, String.toList_ofList, List.mem_append,
    List.mem_replicate] at mem
  rcases mem with mem | ⟨_, rfl⟩
  · rw [List.mem_singleton.1 mem]
    rfl
  · rfl

/-- No literal starts or goes on with a gap. -/
theorem stops_of_isGap {c : Char} (blank : isGap c) :
    c.isDigit = false ∧ c ≠ '.' ∧ c ≠ 'e' ∧ c ≠ 'E' := by
  simp only [isGap, Bool.or_eq_true, decide_eq_true_eq] at blank
  rcases blank with ((rfl | rfl) | rfl) | rfl <;> decide

theorem skipGap_blank (s : List Char) : skipGap (' ' :: s) = skipGap s := rfl

/-- Gaps in front of a value are passed over. -/
theorem readValue_congr (same : skipGap s = skipGap t) : readValue fuel s = readValue fuel t := by
  cases fuel with
  | zero => rfl
  | succ fuel => simp only [readValue, same]

theorem readItems_congr (same : skipGap s = skipGap t) : readItems fuel s = readItems fuel t := by
  cases fuel with
  | zero => rfl
  | succ fuel => simp only [readItems, readValue_congr same]

theorem readMembers_congr (same : skipGap s = skipGap t) :
    readMembers fuel s = readMembers fuel t := by
  cases fuel with
  | zero => rfl
  | succ fuel => simp only [readMembers, same]

/-! ## Texts of values -/

section Texts

variable {item value : Json} {items : List Json} {key : Option String}
  {members : List (Option String × Json)}

theorem print_number (n : Number) : (number n).print level = numberText n := rfl

theorem print_string (s : Option String) : (string s).print level = quoted (s.getD "") := rfl

theorem print_array : (array (item :: items)).print level
    = "[" ++ newLine (level + 1) ++ item.print (level + 1) ++ printItems level items
        ++ newLine level ++ "]" := rfl

theorem print_object : (object ((key, value) :: members)).print level
    = "\x7b" ++ newLine (level + 1) ++ quoted (key.getD "") ++ ": " ++ value.print (level + 1)
        ++ printMembers level members ++ newLine level ++ "\x7d" := rfl

theorem printItems_nil : printItems level [] = "" := rfl

theorem printItems_cons : printItems level (item :: items)
    = "," ++ newLine (level + 1) ++ item.print (level + 1) ++ printItems level items := rfl

theorem printMembers_nil : printMembers level [] = "" := rfl

theorem printMembers_cons : printMembers level ((key, value) :: members)
    = "," ++ newLine (level + 1) ++ quoted (key.getD "") ++ ": " ++ value.print (level + 1)
        ++ printMembers level members := rfl

end Texts

/-! ## Numbers -/

/-- No other value starts like a literal. -/
theorem readValue_literal {literal : Literal}
    (read : Literal.read? (skipGap s) = some (literal, rest)) :
    readValue (fuel + 1) s = (number literal.value, some rest) := by
  unfold readValue
  split
  case h_7 => rw [read]
  -- A literal starts with a minus sign or a digit.
  all_goals
    rename_i start
    rw [start] at read
    cases read

theorem readValue_eq_number {n : Number} (read : readValue fuel s = (number n, some rest)) :
    ∃ literal, Literal.read? (skipGap s) = some (literal, rest) ∧ literal.value = n := by
  cases fuel with
  | zero => cases read
  | succ fuel =>
      unfold readValue at read
      split at read
      · cases read
      · cases read
      · cases read
      · split at read <;> cases read
      · split at read <;> cases read
      · split at read <;> cases read
      · split at read
        · rename_i found
          cases read
          exact ⟨_, found, rfl⟩
        · cases read

/-- A document is read to its end if its value is and only a gap follows. -/
theorem read_eq_iff {text : String} {v : Json} :
    Json.read text = ⟨v, true⟩ ↔
      ∃ rest, readValue (2 * text.toList.length + 2) text.toList = (v, some rest) ∧
        skipGap rest = [] := by
  cases found : readValue (2 * text.toList.length + 2) text.toList with
  | mk value left =>
      cases left with
      | none => simp [Json.read, found]
      | some rest => simp [Json.read, found]

/-- The text of the number is a literal of it, and nothing else. -/
def Legible (n : Number) : Prop :=
  ∃ literal rest, Literal.read? (skipGap (numberText n).toList) = some (literal, rest) ∧
    literal.value = n ∧ skipGap rest = []

theorem skipGap_toDigits (n : Nat) : skipGap (Nat.toDigits 10 n) = Nat.toDigits 10 n := by
  refine List.dropWhile_eq_self_iff.2 fun filled blank => ?_
  have digit := Nat.isDigit_of_mem_toDigits (by decide) (by decide) (List.getElem_mem filled)
  rw [(stops_of_isGap blank).1] at digit
  cases digit

theorem toList_toString (n : Nat) : (toString n).toList = Nat.toDigits 10 n := by
  rw [Nat.toString_eq_ofList_toDigits, String.toList_ofList]

theorem legible_of_expressible (found : Found known) {n : Number}
    (expressible : n.Expressible known) : Legible n := by
  cases n with
  | natural n =>
      have fits : n < 2 ^ 64 := expressible
      refine ⟨_, [], ?_, Literal.value_toDigits fits false, rfl⟩
      rw [numberText, toList_toString, skipGap_toDigits]
      exact Literal.read?_natural n
  | negative n =>
      rcases expressible with ⟨positive, fits⟩
      have value : Literal.integerOf true n = .negative n := by
        have zero : n ≠ 0 := Nat.pos_iff_ne_zero.1 positive
        have inside : ¬2 ^ 63 < n := Nat.not_lt.2 fits
        simp only [Literal.integerOf, zero, inside]
        rfl
      refine ⟨⟨true, Nat.toDigits 10 n, [], none⟩, [], ?_, ?_, rfl⟩
      · rw [numberText, String.toList_append, toList_toString]
        exact Literal.readUnsigned?_toDigits true n
      · rw [Literal.value_toDigits (by omega), value]
  | float x =>
      rcases read_eq_iff.1 (found x expressible) with ⟨rest, read, ended⟩
      rcases readValue_eq_number read with ⟨literal, found, value⟩
      exact ⟨literal, rest, found, value, ended⟩
  | beyond => cases expressible

/-! ## Values -/

/-- The rest of a document behind a value: nothing, the next item or member, or a gap. -/
def Ended (rest : List Char) : Prop := ∀ c ∈ rest.head?, c = ',' ∨ isGap c

/-- Wherever the value is printed, it is read back, up to gaps behind it. -/
def Recovered (v : Json) : Prop :=
  ∀ {fuel level rest}, 2 * (v.print level).toList.length ≤ fuel → Ended rest →
    ∃ left, readValue (fuel + 1) ((v.print level).toList ++ rest) = (v, some left) ∧
      skipGap left = skipGap rest

theorem Ended.stops (ended : Ended rest) : Literal.Stops rest := by
  intro c first
  rcases ended c first with rfl | blank
  · decide
  · exact stops_of_isGap blank

theorem recovered_number {n : Number} (legible : Legible n) : Recovered (number n) := by
  intro fuel level rest _ ended
  rcases legible with ⟨literal, others, read, rfl, blank⟩
  -- A literal was read, so the gap in front of it ends within the text, and what is behind the text
  -- can only make the gap behind the literal longer.
  have starts : (skipGap (numberText literal.value).toList).isEmpty = false := by
    cases skipped : skipGap (numberText literal.value).toList with
    | nil =>
        rw [skipped] at read
        cases read
    | cons c s => rfl
  have whole : skipGap ((numberText literal.value).toList ++ rest)
      = skipGap (numberText literal.value).toList ++ rest := by
    rw [skipGap] at starts
    simp only [skipGap, List.dropWhile_append, starts]
    rfl
  refine ⟨others ++ rest, readValue_literal ?_, ?_⟩
  · rw [print_number, whole]
    exact Literal.read?_extends ended.stops read
  · rw [skipGap] at blank
    simp [skipGap, List.dropWhile_append, blank]

theorem recovered_string (s : String) : Recovered (string (some s)) := by
  intro fuel level rest _ _
  refine ⟨rest, ?_, rfl⟩
  have text : ((string (some s)).print level).toList ++ rest
      = '"' :: (escapes s.toList ++ '"' :: rest) := by
    simp [print_string, toList_quoted]
  have first : skipGap ('"' :: (escapes s.toList ++ '"' :: rest))
      = '"' :: (escapes s.toList ++ '"' :: rest) := rfl
  simp only [text, readValue, first, readString?_quoted]

/-! ## Arrays -/

/-- The items of an array without the brackets and the gaps beside them. -/
def itemsText (level : Nat) (item : Json) (items : List Json) : List Char :=
  (item.print (level + 1)).toList ++ (printItems level items).toList

theorem itemsText_cons (level : Nat) (item next : Json) (items : List Json) :
    itemsText level item (next :: items) = (item.print (level + 1)).toList
      ++ ',' :: ((newLine (level + 1)).toList ++ itemsText level next items) := by
  simp [itemsText, printItems_cons]

theorem toList_print_array (level : Nat) (item : Json) (items : List Json) :
    ((array (item :: items)).print level).toList = '[' :: ((newLine (level + 1)).toList
      ++ (itemsText level item items ++ ((newLine level).toList ++ [']']))) := by
  simp [print_array, itemsText]

/-- A line break ends a value. -/
theorem ended_newLine (level : Nat) (rest : List Char) :
    Ended ((newLine level).toList ++ rest) := by
  intro c first
  have lineFeed : c = '\n' := by simpa [newLine, eq_comm] using first
  rw [lineFeed]
  exact .inr rfl

theorem ended_comma (rest : List Char) : Ended (',' :: rest) := by
  intro c first
  exact .inl (by simpa [eq_comm] using first)

theorem skipGap_newLine (level : Nat) (s : List Char) :
    skipGap ((newLine level).toList ++ s) = skipGap s := skipGap_append (isGap_newLine level) s

/-- After an item, a comma leads to the next one. -/
theorem readItems_comma {item : Json} {items : List Json} {left : List Char}
    {after : Option (List Char)} (first : readValue fuel s = (item, some left))
    (next : skipGap left = ',' :: t) (others : readItems fuel t = (items, after)) :
    readItems (fuel + 1) s = (item :: items, after) := by
  simp only [readItems, first, next, others]

theorem readItems_close {item : Json} {left : List Char}
    (last : readValue fuel s = (item, some left)) (close : skipGap left = ']' :: rest) :
    readItems (fuel + 1) s = ([item], some rest) := by
  simp only [readItems, last, close]

theorem readItems_print {item : Json} {items : List Json}
    (recovered : ∀ v ∈ item :: items, Recovered v)
    (enough : 2 * (itemsText level item items).length ≤ fuel) :
    readItems (fuel + 2) (itemsText level item items ++ ((newLine level).toList ++ ']' :: rest))
      = (item :: items, some rest) := by
  induction items generalizing item fuel with
  | nil =>
      have text : itemsText level item [] = (item.print (level + 1)).toList := by
        simp [itemsText, printItems_nil]
      rw [text] at enough ⊢
      rcases recovered item List.mem_cons_self enough (ended_newLine level (']' :: rest)) with
        ⟨left, read, skipped⟩
      have close : skipGap left = ']' :: rest := by
        rw [skipped, skipGap_newLine]
        rfl
      exact readItems_close read close
  | cons next items ih =>
      rw [itemsText_cons] at enough ⊢
      simp only [List.length_append, List.length_cons] at enough
      -- The comma pays for the step that leads to the other items.
      rcases Nat.exists_eq_add_of_le' (show 1 ≤ fuel by omega) with ⟨fuel, rfl⟩
      have room : 2 * (item.print (level + 1)).toList.length ≤ fuel + 1 := by omega
      rw [List.append_assoc, List.cons_append, List.append_assoc]
      rcases recovered item List.mem_cons_self room (ended_comma _) with ⟨left, read, skipped⟩
      refine readItems_comma read skipped ?_
      calc
        _ = readItems (fuel + 2) (itemsText level next items
              ++ ((newLine level).toList ++ ']' :: rest)) := readItems_congr (skipGap_newLine _ _)
        _ = (next :: items, some rest) :=
            ih (fun v mem => recovered v (List.mem_cons_of_mem _ mem)) (by omega)

/-- The first item, which can be read, does not close the array. -/
theorem readValue_array {items : List Json} (read : readItems (fuel + 2) s = (items, some rest)) :
    readValue (fuel + 3) ('[' :: s) = (array items, some rest) := by
  have first : skipGap ('[' :: s) = '[' :: s := rfl
  simp only [readValue, first]
  split
  · rename_i t close
    have read : readItems (fuel + 2) (']' :: t) = (items, some rest) := by
      rw [← close, readItems_congr (skipGap_skipGap s), read]
    cases read
  · rw [readItems_congr (skipGap_skipGap s), read]

theorem recovered_array {item : Json} {items : List Json}
    (recovered : ∀ v ∈ item :: items, Recovered v) : Recovered (array (item :: items)) := by
  intro fuel level rest enough _
  refine ⟨rest, ?_, rfl⟩
  rw [toList_print_array] at enough ⊢
  simp only [List.length_append, List.length_cons] at enough
  simp only [List.cons_append, List.append_assoc, List.nil_append]
  -- The brackets pay for the steps into the array and to its first item.
  rcases Nat.exists_eq_add_of_le' (show 2 ≤ fuel by omega) with ⟨fuel, rfl⟩
  refine readValue_array ?_
  rw [readItems_congr (skipGap_newLine _ _)]
  exact readItems_print recovered (by omega)

/-! ## Objects -/

/-- A member with its key and its colon. -/
def memberText (level : Nat) (key : String) (value : Json) : List Char :=
  (quoted key).toList ++ ':' :: ' ' :: (value.print (level + 1)).toList

/-- The members of an object without the braces and the gaps beside them. -/
def membersText (level : Nat) (key : String) (value : Json)
    (members : List (Option String × Json)) : List Char :=
  memberText level key value ++ (printMembers level members).toList

theorem membersText_cons (level : Nat) (key next : String) (value after : Json)
    (members : List (Option String × Json)) :
    membersText level key value ((some next, after) :: members) = memberText level key value
      ++ ',' :: ((newLine (level + 1)).toList ++ membersText level next after members) := by
  simp [membersText, memberText, printMembers_cons]

theorem toList_print_object (level : Nat) (key : String) (value : Json)
    (members : List (Option String × Json)) :
    ((object ((some key, value) :: members)).print level).toList
      = '\x7b' :: ((newLine (level + 1)).toList
          ++ (membersText level key value members ++ ((newLine level).toList ++ ['\x7d']))) := by
  simp [print_object, membersText, memberText]

theorem readMembers_comma {key : String} {value : Json} {members : List (Option String × Json)}
    {left : List Char} {after : Option (List Char)}
    (first : readValue fuel s = (value, some left)) (next : skipGap left = ',' :: t)
    (others : readMembers fuel t = (members, after)) :
    readMembers (fuel + 1) ((quoted key).toList ++ ':' :: s)
      = ((some key, value) :: members, after) := by
  have quote (u : List Char) : skipGap ('"' :: u) = '"' :: u := rfl
  have colon : skipGap (':' :: s) = ':' :: s := rfl
  simp [toList_quoted, readMembers, quote, readString?_quoted, colon, first, next, others]

theorem readMembers_close {key : String} {value : Json} {left : List Char}
    (last : readValue fuel s = (value, some left)) (close : skipGap left = '\x7d' :: rest) :
    readMembers (fuel + 1) ((quoted key).toList ++ ':' :: s)
      = ([(some key, value)], some rest) := by
  have quote (u : List Char) : skipGap ('"' :: u) = '"' :: u := rfl
  have colon : skipGap (':' :: s) = ':' :: s := rfl
  simp [toList_quoted, readMembers, quote, readString?_quoted, colon, last, close]

theorem readMembers_print {key : String} {value : Json} {members : List (Option String × Json)}
    (keyed : ∀ m ∈ members, m.1.isSome)
    (recovered : ∀ m ∈ (some key, value) :: members, Recovered m.2)
    (enough : 2 * (membersText level key value members).length ≤ fuel) :
    readMembers (fuel + 2)
        (membersText level key value members ++ ((newLine level).toList ++ '\x7d' :: rest))
      = ((some key, value) :: members, some rest) := by
  induction members generalizing key value fuel with
  | nil =>
      have text : membersText level key value [] = memberText level key value := by
        simp [membersText, printMembers_nil]
      rw [text, memberText] at enough ⊢
      simp only [List.length_append, List.length_cons] at enough
      have room : 2 * (value.print (level + 1)).toList.length ≤ fuel := by omega
      rw [List.append_assoc, List.cons_append, List.cons_append]
      rcases recovered _ List.mem_cons_self room (ended_newLine level ('\x7d' :: rest)) with
        ⟨left, read, skipped⟩
      have close : skipGap left = '\x7d' :: rest := by
        rw [skipped, skipGap_newLine]
        rfl
      exact readMembers_close ((readValue_congr (skipGap_blank _)).trans read) close
  | cons next members ih =>
      rcases next with ⟨none | next, after⟩
      · cases keyed _ List.mem_cons_self
      rw [membersText_cons, memberText] at enough ⊢
      simp only [List.length_append, List.length_cons] at enough
      rcases Nat.exists_eq_add_of_le' (show 1 ≤ fuel by omega) with ⟨fuel, rfl⟩
      have room : 2 * (value.print (level + 1)).toList.length ≤ fuel + 1 := by omega
      simp only [List.append_assoc, List.cons_append]
      rcases recovered _ List.mem_cons_self room (ended_comma _) with ⟨left, read, skipped⟩
      refine readMembers_comma ((readValue_congr (skipGap_blank _)).trans read) skipped ?_
      calc
        _ = readMembers (fuel + 2) (membersText level next after members
              ++ ((newLine level).toList ++ '\x7d' :: rest)) :=
            readMembers_congr (skipGap_newLine _ _)
        _ = ((some next, after) :: members, some rest) :=
            ih (fun m mem => keyed m (List.mem_cons_of_mem _ mem))
              (fun m mem => recovered m (List.mem_cons_of_mem _ mem)) (by omega)

/-- The first member starts with a quote, so it does not close the object. -/
theorem readValue_object {members : List (Option String × Json)}
    (read : readMembers (fuel + 2) s = (members, some rest)) :
    readValue (fuel + 3) ('\x7b' :: s) = (object members, some rest) := by
  have first : skipGap ('\x7b' :: s) = '\x7b' :: s := rfl
  simp only [readValue, first]
  split
  · rename_i t close
    have read : readMembers (fuel + 2) ('\x7d' :: t) = (members, some rest) := by
      rw [← close, readMembers_congr (skipGap_skipGap s), read]
    cases read
  · rw [readMembers_congr (skipGap_skipGap s), read]

theorem recovered_object {key : String} {value : Json} {members : List (Option String × Json)}
    (keyed : ∀ m ∈ members, m.1.isSome)
    (recovered : ∀ m ∈ (some key, value) :: members, Recovered m.2) :
    Recovered (object ((some key, value) :: members)) := by
  intro fuel level rest enough _
  refine ⟨rest, ?_, rfl⟩
  rw [toList_print_object] at enough ⊢
  simp only [List.length_append, List.length_cons] at enough
  simp only [List.cons_append, List.append_assoc, List.nil_append]
  rcases Nat.exists_eq_add_of_le' (show 2 ≤ fuel by omega) with ⟨fuel, rfl⟩
  refine readValue_object ?_
  rw [readMembers_congr (skipGap_newLine _ _)]
  exact readMembers_print keyed recovered (by omega)

/-! ## Documents -/

/-- A value without parts, whose text is one word. -/
theorem recovered_word {v : Json} (word : String) (text : ∀ level, v.print level = word)
    (read : ∀ fuel rest, readValue (fuel + 1) (word.toList ++ rest) = (v, some rest)) :
    Recovered v := by
  intro fuel level rest _ _
  exact ⟨rest, by rw [text, read], rfl⟩

mutual

theorem Expressible.recovered (found : Found known) :
    ∀ {v : Json} {depth : Nat}, v.Expressible known depth → Recovered v
  | null, _, _ => recovered_word "null" (fun _ => rfl) fun _ _ => rfl
  | bool true, _, _ => recovered_word "true" (fun _ => rfl) fun _ _ => rfl
  | bool false, _, _ => recovered_word "false" (fun _ => rfl) fun _ _ => rfl
  | number _, _, expressible => recovered_number (legible_of_expressible found expressible)
  | string (some s), _, _ => recovered_string s
  | array [], _, _ => recovered_word "[]" (fun _ => rfl) fun _ _ => rfl
  | array (_ :: _), _, expressible =>
      recovered_array (ExpressibleItems.recovered found expressible.2)
  | object [], _, _ => recovered_word "\x7b\x7d" (fun _ => rfl) fun _ _ => rfl
  | object ((some _, _) :: _), _, expressible =>
      have parts := ExpressibleMembers.recovered found expressible.2
      recovered_object (fun m mem => (parts m (List.mem_cons_of_mem _ mem)).1)
        fun m mem => (parts m mem).2

theorem ExpressibleItems.recovered (found : Found known) :
    ∀ {items : List Json} {depth : Nat}, ExpressibleItems known items depth →
      ∀ v ∈ items, Recovered v
  | [], _, _ => nofun
  | _ :: _, _, expressible => List.forall_mem_cons.2
      ⟨expressible.1.recovered found, ExpressibleItems.recovered found expressible.2⟩

theorem ExpressibleMembers.recovered (found : Found known) :
    ∀ {members : List (Option String × Json)} {depth : Nat},
      ExpressibleMembers known members depth → ∀ m ∈ members, m.1.isSome ∧ Recovered m.2
  | [], _, _ => nofun
  | (_, _) :: _, _, expressible => List.forall_mem_cons.2
      ⟨⟨expressible.1, expressible.2.1.recovered found⟩,
        ExpressibleMembers.recovered found expressible.2.2⟩

end

/-- A printed document is read back from its text. -/
theorem Expressible.reproduced (found : Found known) {v : Json}
    (expressible : v.Expressible known depth) : v.Reproduced := by
  have enough : 2 * (v.print 0).toList.length ≤ 2 * v.pretty.toList.length + 1 := by
    rw [pretty]
    omega
  have ended : Ended [] := nofun
  rcases expressible.recovered found enough ended with ⟨left, read, skipped⟩
  refine read_eq_iff.2 ⟨left, ?_, skipped⟩
  rw [← read, pretty, List.append_nil]

end Json

end StackedCache
