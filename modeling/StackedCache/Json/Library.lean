import StackedCache.Json.Codec
import StackedCache.Json.Printer
import StackedCache.Json.Reader

/-!
# JSON libraries

How values, choices and structures stand in a document, and how documents stand in texts, is not for
the settings to say.  They ask a `Library` for it, and say only which fields there are, under which
names and of which kinds.  `Library.plain` is the library that runs.

What is promised of a library is stated apart from what any library does.  `Library.Documented` is
about values, choices and structures, with one promise for each direction, and `Library.Reproduces`
is about texts.
-/

namespace StackedCache

namespace Json

/-! ## Libraries -/

/-- What reads and writes JSON. -/
structure Library where
  bool : Codec Bool
  word32 : Codec UInt32
  word64 : Codec UInt64
  float : Codec Float
  /-- A value that stands in a document as its content does. -/
  wrap : {α β : Type} → Codec α → (α → β) → (β → α) → Codec β
  /-- One of finitely many values, by its name. -/
  choice : {α : Type} → [BEq α] → List (Codec.Choice α) → Codec α
  /-- A value with a code number of one byte. -/
  code : {α : Type} → (Nat → Option α) → (α → Nat) → Codec α
  /-- A structure with the given defaults and fields. -/
  record : {σ : Type} → σ → List (Member σ) → Codec σ
  /-- The text of a value. -/
  print : Json → String
  /-- The value that a text stands for. -/
  readText : {α : Type} → Codec α → String → Except DecodeFault α

/-- Reads a text as a single value.  Faults of the value come before text behind it. -/
def Codec.readText {α : Type} (codec : Codec α) (text : String) : Except DecodeFault α :=
  let document := Json.read text
  match codec.read document.value with
  | .ok value => if document.ended then .ok value else .error .mismatch
  | .error cause => .error cause

/-- The library made of the codecs, the printer and the reader at hand. -/
def Library.plain : Library where
  bool := .bool
  word32 := .word32
  word64 := .word64
  float := .float
  wrap := .wrap
  choice := .choice
  code := .code
  record := .record
  print := pretty
  readText := Codec.readText

end Json

/-! ## Values that can be expressed -/

/-- The number has a literal; of the floats, those that are known to have one. -/
def Number.Expressible (known : Float → Prop) : Number → Prop
  | .natural n => n < 2 ^ 64
  | .negative n => 0 < n ∧ n ≤ 2 ^ 63
  | .float x => known x
  | .beyond => False

namespace Json

mutual

/-- All strings are made up of characters, all numbers have literals, and no part stands more than
`depth` levels below the value. -/
def Expressible (known : Float → Prop) : Json → Nat → Prop
  | null, _ => True
  | bool _, _ => True
  | number n, _ => n.Expressible known
  | string s, _ => s.isSome
  | array items, depth => 0 < depth ∧ ExpressibleItems known items (depth - 1)
  | object members, depth => 0 < depth ∧ ExpressibleMembers known members (depth - 1)
  | fault, _ => False

def ExpressibleItems (known : Float → Prop) : List Json → Nat → Prop
  | [], _ => True
  | item :: items, depth => item.Expressible known depth ∧ ExpressibleItems known items depth

def ExpressibleMembers (known : Float → Prop) : List (Option String × Json) → Nat → Prop
  | [], _ => True
  | (key, value) :: members, depth =>
      key.isSome ∧ value.Expressible known depth ∧ ExpressibleMembers known members depth

end

/-! ## Promises -/

/-- The levels of arrays and objects that a library follows into a text. -/
def depthLimit : Nat := 127

/-- The names under which a choice is read. -/
def Codec.Choice.names {α : Type} (choice : Codec.Choice α) : List String :=
  choice.name :: choice.others

/-- No value is listed twice, and no name stands for two values. -/
structure Codec.Distinct {α : Type} (choices : List (Codec.Choice α)) : Prop where
  values : (choices.map (·.value)).Nodup
  names : (choices.flatMap Codec.Choice.names).Nodup

/-- What a member of an object says about a structure: a known one is read by its field, and one that
is not known says nothing. -/
def Codec.readMember {σ : Type} (fields : List (Member σ)) (s : σ) (member : String × Json) :
    Except DecodeFault σ :=
  match fields.find? (·.name = member.1) with
  | some field => field.read member.2 s
  | none => .ok s

namespace Library

open Codec (Choice Distinct readMember)

/-- How a library writes values, and what it reads again. -/
structure Documented (library : Library) : Prop where
  bool_write : ∀ b, library.bool.write b = .bool b
  bool_read : ∀ b, library.bool.read (.bool b) = .ok b
  word32_write : ∀ n, library.word32.write n = .nat n.toNat
  word32_read : ∀ n : UInt32, library.word32.read (.nat n.toNat) = .ok n
  word64_write : ∀ n, library.word64.write n = .nat n.toNat
  word64_read : ∀ n : UInt64, library.word64.read (.nat n.toNat) = .ok n
  /-- Floats are numbers, unless they are not finite. -/
  float_write : ∀ x : Float, x.isFinite → library.float.write x = .number (.float x)
  float_read : ∀ x : Float, x.isFinite → library.float.read (.number (.float x)) = .ok x
  wrap_write : ∀ {α β : Type} (codec : Codec α) (make : α → β) (content : β → α) (b : β),
    (library.wrap codec make content).write b = codec.write (content b)
  wrap_read : ∀ {α β : Type} (codec : Codec α) (make : α → β) (content : β → α) (json : Json),
    (library.wrap codec make content).read json = (codec.read json).map make
  /-- A choice is written by its name. -/
  choice_write : ∀ {α : Type} [BEq α] [LawfulBEq α] {choices : List (Choice α)} {c : Choice α},
    Distinct choices → c ∈ choices → (library.choice choices).write c.value = .text c.name
  /-- A choice is read by its name and by its other names. -/
  choice_read : ∀ {α : Type} [BEq α] {choices : List (Choice α)} {c : Choice α} {name : String},
    Distinct choices → c ∈ choices → name ∈ c.names →
      (library.choice choices).read (.text name) = .ok c.value
  code_write : ∀ {α : Type} (decode : Nat → Option α) (encode : α → Nat) (a : α),
    encode a < 256 → (library.code decode encode).write a = .nat (encode a)
  code_read : ∀ {α : Type} (decode : Nat → Option α) (encode : α → Nat) (n : Nat) (a : α),
    n < 256 → decode n = some a → (library.code decode encode).read (.nat n) = .ok a
  /-- A structure is written as an object with all its fields. -/
  record_write : ∀ {σ : Type} (defaults : σ) (fields : List (Member σ)) (s : σ),
    (library.record defaults fields).write s =
      .record (fields.map fun field => (field.name, field.write s))
  /-- The members of an object take the place of the defaults, one after the other. -/
  record_read : ∀ {σ : Type} (defaults : σ) (fields : List (Member σ))
    (members : List (String × Json)), (fields.map (·.name)).Nodup →
      (members.map Prod.fst).Nodup → (∀ member ∈ members, member.2.sound = true) →
      (library.record defaults fields).read (.record members) =
        members.foldlM (readMember fields) defaults

/-- Whatever is read from the text of a value is what is read from the value. -/
structure Reproduces (library : Library) (known : Float → Prop) : Prop where
  readText_print : ∀ {α : Type} (codec : Codec α) {value : Json},
    value.Expressible known depthLimit →
      library.readText codec (library.print value) = codec.read value

end Library

end Json

end StackedCache
