import StackedCache.Text.Blank
import StackedCache.Text.Numeral

/-!
# Fields of trace lines

A line of a trace is a sequence of fields in fixed order.  The first field that is missing or does
not parse refuses the line; fields behind the last known one are passed over.
-/

namespace StackedCache

/-- The fields of all kinds of trace lines. -/
inductive TraceField where
  | time
  | accessType
  | address
  | size
  | epoch
  | vault
  | bank
  | temperature
  deriving DecidableEq, Repr

namespace TraceField

def name : TraceField → String
  | time => "time"
  | accessType => "access type"
  | address => "address"
  | size => "size"
  | epoch => "epoch"
  | vault => "vault"
  | bank => "bank"
  | temperature => "temperature"

end TraceField

/-- Why a trace line is refused. -/
inductive TraceFault where
  /-- The line ends before the field. -/
  | missing (line : Nat) (field : TraceField)
  /-- The word in place of the field is none of its values. -/
  | invalid (line : Nat) (field : TraceField) (word : String)
  deriving DecidableEq, Repr

namespace TraceFault

def message : TraceFault → String
  | missing line field => "line " ++ toString line ++ ": missing " ++ field.name
  | invalid line field word =>
      "line " ++ toString line ++ ": invalid " ++ field.name ++ " `" ++ word ++ "`"

end TraceFault

namespace Trace

/-- What reading a part of a line gives: its value and the words behind it. -/
abbrev Read (α : Type) := Except TraceFault (α × List (List Char))

/-- Reads the next word of a line as a field. -/
def readField {α : Type} (line : Nat) (field : TraceField) (parse : List Char → Option α) :
    List (List Char) → Read α
  | [] => .error (.missing line field)
  | word :: words =>
      match parse word with
      | some value => .ok (value, words)
      | none => .error (.invalid line field (String.ofList word))

/-- Reads a field that may be left out. -/
def readOptional {α : Type} (line : Nat) (field : TraceField) (parse : List Char → Option α)
    (default : α) : List (List Char) → Read α
  | [] => .ok (default, [])
  | word :: words => readField line field parse (word :: words)

/-- Reads a line, unless it is blank or a comment. -/
def readLine {α : Type} (line : Nat) (read : Nat → List (List Char) → Except TraceFault α)
    (text : List Char) : Except TraceFault (Option α) :=
  match Text.lineWords text with
  | none => .ok none
  | some words => (read line words).map some

/-- A decimal numeral below `2^32`. -/
def index? (word : List Char) : Option Nat := Text.numeral? 10 Text.bound32 word

end Trace

end StackedCache
