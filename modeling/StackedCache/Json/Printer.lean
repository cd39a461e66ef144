import StackedCache.Decimal.Layout
import StackedCache.Json.Basic

/-!
# Printing JSON

Documents are printed over several lines, two spaces deeper for each level, one item or member a
line.  An empty array or object stays on its line.
-/

namespace StackedCache.Json

open StackedCache.Decimal

/-- A character as it stands in a string: quotes, backslashes and control characters are escaped. -/
def escape (c : Char) : String :=
  match c with
  | '"' => "\\\""
  | '\\' => "\\\\"
  | '\n' => "\\n"
  | '\r' => "\\r"
  | '\t' => "\\t"
  | '\x08' => "\\b"
  | '\x0c' => "\\f"
  | c =>
      if c.toNat < 0x20 then
        "\\u00" ++ String.ofList [Nat.digitChar (c.toNat / 16), Nat.digitChar (c.toNat % 16)]
      else c.toString

def quoted (s : String) : String := "\"" ++ String.join (s.toList.map escape) ++ "\""

/-- The text of a number.  A document has no literal for a number out of range. -/
def numberText : Number → String
  | .natural n => toString n
  | .negative n => "-" ++ toString n
  | .float x => if x.isFinite then Layout.document.text x else "null"
  | .beyond => "null"

/-- A line break and the indentation of a level. -/
def newLine (level : Nat) : String := "\n" ++ String.ofList (List.replicate (2 * level) ' ')

mutual

/-- The text of a value that stands on the given level. -/
def print (level : Nat) : Json → String
  | null => "null"
  | bool b => if b then "true" else "false"
  | number n => numberText n
  | string s => quoted (s.getD "")
  | array [] => "[]"
  | array (item :: items) =>
      "[" ++ newLine (level + 1) ++ item.print (level + 1) ++ printItems level items
        ++ newLine level ++ "]"
  | object [] => "\x7b\x7d"
  | object ((key, value) :: members) =>
      "\x7b" ++ newLine (level + 1) ++ quoted (key.getD "") ++ ": " ++ value.print (level + 1)
        ++ printMembers level members ++ newLine level ++ "\x7d"
  | fault => "null"

/-- The text of the items after the first one. -/
def printItems (level : Nat) : List Json → String
  | [] => ""
  | item :: items => "," ++ newLine (level + 1) ++ item.print (level + 1) ++ printItems level items

/-- The text of the members after the first one. -/
def printMembers (level : Nat) : List (Option String × Json) → String
  | [] => ""
  | (key, value) :: members =>
      "," ++ newLine (level + 1) ++ quoted (key.getD "") ++ ": " ++ value.print (level + 1)
        ++ printMembers level members

end

/-- The text of a document. -/
def pretty (value : Json) : String := value.print 0

end StackedCache.Json
