import StackedCache.Json.Literal

/-!
# Reading JSON

The reader follows the grammar by recursion and returns, beside each value, the text after it, or
nothing once the text has gone wrong.  It never fails: a fault ends up in the value, and the values
around it end there.

Each call consumes a character of the text, so the number of characters bounds the depth of the
calls.
-/

namespace StackedCache.Json

open StackedCache.Text

/-- The four characters that may stand between the parts of a document. -/
def isGap (c : Char) : Bool := c = ' ' || c = '\n' || c = '\t' || c = '\r'

def skipGap (s : List Char) : List Char := s.dropWhile isGap

/-- Four hexadecimal digits, as a number. -/
def hex4? : List Char → Option (Nat × List Char)
  | a :: b :: c :: d :: s => (digits? 16 [a, b, c, d]).map fun n => (n, s)
  | _ => none

/-- The character behind a single-letter escape. -/
def escaped? : Char → Option Char
  | '"' => some '"'
  | '\\' => some '\\'
  | '/' => some '/'
  | 'b' => some '\x08'
  | 'f' => some '\x0c'
  | 'n' => some '\n'
  | 'r' => some '\r'
  | 't' => some '\t'
  | _ => none

/-- The code points of a string up to its closing quote, and the text after it.  Escaped surrogates
are left as they are. -/
def readPoints? : Nat → List Char → List Nat → Option (List Nat × List Char)
  | 0, _, _ => none
  | _ + 1, [], _ => none
  | _ + 1, '"' :: s, points => some (points.reverse, s)
  | fuel + 1, '\\' :: 'u' :: s, points =>
      match hex4? s with
      | some (n, s) => readPoints? fuel s (n :: points)
      | none => none
  | fuel + 1, '\\' :: c :: s, points =>
      match escaped? c with
      | some e => readPoints? fuel s (e.toNat :: points)
      | none => none
  | fuel + 1, c :: s, points =>
      if c.toNat < 0x20 || c = '\\' then none else readPoints? fuel s (c.toNat :: points)

def isHighSurrogate (n : Nat) : Bool := 0xD800 ≤ n && n < 0xDC00

def isLowSurrogate (n : Nat) : Bool := 0xDC00 ≤ n && n < 0xE000

/-- The characters of a sequence of code points, in which a high and a low surrogate make up one
character and no surrogate stands alone. -/
def characters? : List Nat → Option (List Char)
  | [] => some []
  | n :: rest =>
      if isLowSurrogate n then none
      else if isHighSurrogate n then
        match rest with
        | low :: rest =>
            if isLowSurrogate low then
              (characters? rest).map
                (Char.ofNat (0x10000 + (n - 0xD800) * 0x400 + (low - 0xDC00)) :: ·)
            else none
        | [] => none
      else (characters? rest).map (Char.ofNat n :: ·)

/-- The string after an opening quote. -/
def readString? (s : List Char) : Option (Option String × List Char) :=
  (readPoints? (s.length + 1) s []).map fun (points, s) =>
    ((characters? points).map String.ofList, s)

/-- A value as far as it was read, and the text after it unless the value is faulty. -/
abbrev Read (α : Type) := α × Option (List Char)

mutual

def readValue : Nat → List Char → Read Json
  | 0, _ => (fault, none)
  | fuel + 1, s =>
      match skipGap s with
      | 'n' :: 'u' :: 'l' :: 'l' :: s => (null, some s)
      | 't' :: 'r' :: 'u' :: 'e' :: s => (bool true, some s)
      | 'f' :: 'a' :: 'l' :: 's' :: 'e' :: s => (bool false, some s)
      | '"' :: s =>
          match readString? s with
          | some (text, s) => (string text, some s)
          | none => (fault, none)
      | '[' :: s =>
          match skipGap s with
          | ']' :: s => (array [], some s)
          | s =>
              let (items, rest) := readItems fuel s
              (array items, rest)
      | '\x7b' :: s =>
          match skipGap s with
          | '\x7d' :: s => (object [], some s)
          | s =>
              let (members, rest) := readMembers fuel s
              (object members, rest)
      | s =>
          match Literal.read? s with
          | some (literal, s) => (number literal.value, some s)
          | none => (fault, none)

/-- Reads the items of an array, at least one, with the closing bracket. -/
def readItems : Nat → List Char → Read (List Json)
  | 0, _ => ([fault], none)
  | fuel + 1, s =>
      match readValue fuel s with
      | (item, none) => ([item], none)
      | (item, some s) =>
          match skipGap s with
          | ']' :: s => ([item], some s)
          | ',' :: s =>
              let (items, rest) := readItems fuel s
              (item :: items, rest)
          | _ => ([item, fault], none)

/-- Reads the members of an object, at least one, with the closing brace. -/
def readMembers : Nat → List Char → Read (List (Option String × Json))
  | 0, _ => ([(none, fault)], none)
  | fuel + 1, s =>
      match skipGap s with
      | '"' :: s =>
          match readString? s with
          | none => ([(none, fault)], none)
          | some (key, s) =>
              match skipGap s with
              | ':' :: s =>
                  match readValue fuel s with
                  | (value, none) => ([(key, value)], none)
                  | (value, some s) =>
                      match skipGap s with
                      | '\x7d' :: s => ([(key, value)], some s)
                      | ',' :: s =>
                          let (members, rest) := readMembers fuel s
                          ((key, value) :: members, rest)
                      | _ => ([(key, value), (none, fault)], none)
              | _ => ([(key, fault)], none)
      | _ => ([(none, fault)], none)

end

/-- A text read as one document. -/
structure Document where
  value : Json
  /-- Nothing but gaps follows the value. -/
  ended : Bool

def read (text : String) : Document :=
  let s := text.toList
  match readValue (2 * s.length + 2) s with
  | (value, some rest) => ⟨value, (skipGap rest).isEmpty⟩
  | (value, none) => ⟨value, false⟩

end StackedCache.Json
