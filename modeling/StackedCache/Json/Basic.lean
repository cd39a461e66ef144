import StackedCache.Decimal.Binary

/-!
# JSON documents

A `Json` is a document as far as it could be read.  The place where a text stops being JSON is kept
as a `fault`, so that whoever decodes the document meets the faults of the text and the faults of
its content in the order in which they stand.

Two more things are kept as they were written.  A number knows whether it was written as an integer,
and a string or key whose escapes do not make up characters is `none`.
-/

namespace StackedCache

/-- A number of a document. -/
inductive Number where
  /-- An integer literal from zero to `2^64 - 1`. -/
  | natural (n : Nat)
  /-- The integer literal `-n`, for `n` from 1 to `2^63`. -/
  | negative (n : Nat)
  /-- Any other literal, as a float. -/
  | float (x : Float)
  /-- A literal beyond the range of floats. -/
  | beyond

/-- A JSON value, or what could be read of one. -/
inductive Json where
  | null
  | bool (b : Bool)
  | number (n : Number)
  | string (text : Option String)
  | array (items : List Json)
  | object (members : List (Option String × Json))
  /-- The text is no JSON from here on. -/
  | fault

namespace Json

mutual

/-- The value was read to its end. -/
def sound : Json → Bool
  | fault => false
  | array items => soundItems items
  | object members => soundMembers members
  | _ => true

/-- All items were read to their end. -/
def soundItems : List Json → Bool
  | [] => true
  | item :: items => item.sound && soundItems items

/-- All members were read to their end. -/
def soundMembers : List (Option String × Json) → Bool
  | [] => true
  | (_, value) :: members => value.sound && soundMembers members

end

def nat (n : Nat) : Json := number (.natural n)

/-- A float; documents have no NaN and no infinities, which are written as `null`. -/
def float (x : Float) : Json := if x.isFinite then number (.float x) else null

def text (s : String) : Json := string (some s)

/-- An object with the given members, in order. -/
def record (members : List (String × Json)) : Json :=
  object (members.map fun (key, value) => (some key, value))

end Json

end StackedCache
