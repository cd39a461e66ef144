import StackedCache.Arithmetic
import StackedCache.Json.Basic

/-!
# Codecs

A `Codec` reads values of a type from JSON and writes them back.  The codec of a structure is a list
of fields, each with a name, a codec for its content and access to the structure.

Structures are read leniently.  Missing fields keep their default and unknown ones are passed over,
but no known field may occur twice.  The fields may also come as an array in their order.
-/

namespace StackedCache.Json

/-- Why a document cannot be decoded. -/
inductive DecodeFault where
  /-- The document is broken, or not of the expected form. -/
  | mismatch
  /-- A code number of the expected form stands for nothing. -/
  | unassigned (code : Nat)
  deriving DecidableEq, Repr

/-- A reader and a writer for one type. -/
structure Codec (α : Type) where
  read : Json → Except DecodeFault α
  write : α → Json

/-- A field of a structure, which is a member of the object that stands for it. -/
structure Member (σ : Type) where
  name : String
  /-- Replaces the part by what the document says. -/
  read : Json → σ → Except DecodeFault σ
  write : σ → Json

/-- The member with the given name, codec and access. -/
def Member.of {σ α : Type} (name : String) (codec : Codec α) (get : σ → α) (set : α → σ → σ) :
    Member σ where
  name := name
  read := fun json s => (codec.read json).map fun value => set value s
  write := fun s => codec.write (get s)

namespace Codec

/-! ## Plain values -/

def bool : Codec Bool where
  read
    | .bool b => .ok b
    | _ => .error .mismatch
  write := .bool

/-- Integer literals below `2^64`. -/
def word64 : Codec UInt64 where
  read
    | .number (.natural n) => if n < 2 ^ 64 then .ok (.ofNat n) else .error .mismatch
    | _ => .error .mismatch
  write n := .nat n.toNat

/-- Integer literals below `2^32`. -/
def word32 : Codec UInt32 where
  read
    | .number (.natural n) => if n < 2 ^ 32 then .ok (.ofNat n) else .error .mismatch
    | _ => .error .mismatch
  write n := .nat n.toNat

/-- Any number, integers included. -/
def float : Codec Float where
  read
    | .number (.natural n) => .ok (Float.ofNat n)
    | .number (.negative n) => .ok (-Float.ofNat n)
    | .number (.float x) => .ok x
    | _ => .error .mismatch
  write := .float

def wrap {α β : Type} (codec : Codec α) (make : α → β) (content : β → α) : Codec β where
  read json := (codec.read json).map make
  write b := codec.write (content b)

/-! ## Choices -/

/-- One of finitely many values: the value, its name and further names under which it is read. -/
structure Choice (α : Type) where
  value : α
  name : String
  others : List String := []

def choose {α : Type} (choices : List (Choice α)) (name : String) : Except DecodeFault α :=
  match choices.find? fun c => c.name = name || c.others.contains name with
  | some c => .ok c.value
  | none => .error .mismatch

/-- A value written by its name.  It is also read from an object that maps the name to `null`. -/
def choice {α : Type} [BEq α] (choices : List (Choice α)) : Codec α where
  read
    | .string (some name) => choose choices name
    | .object [(some name, .null)] => choose choices name
    | _ => .error .mismatch
  write a :=
    match choices.find? (·.value == a) with
    | some c => .text c.name
    | none => .null

/-- Code numbers of one byte are decoded; `decode` knows those that stand for something. -/
def code {α : Type} (decode : Nat → Option α) (encode : α → Nat) : Codec α where
  read
    | .number (.natural n) =>
        if n < 256 then
          match decode n with
          | some a => .ok a
          | none => .error (.unassigned n)
        else .error .mismatch
    | _ => .error .mismatch
  write a := .nat (encode a)

/-! ## Structures -/

/-- Reads the members of an object; `seen` holds the fields read before. -/
def readMembers {σ : Type} (fields : List (Member σ)) :
    List (Option String × Json) → List String → σ → Except DecodeFault σ
  | [], _, s => .ok s
  | (none, _) :: _, _, _ => .error .mismatch
  | (some key, json) :: members, seen, s =>
      match fields.find? (·.name = key) with
      | none => if json.sound then readMembers fields members seen s else .error .mismatch
      | some field =>
          if seen.contains key then .error .mismatch
          else
            match field.read json s with
            | .ok s => readMembers fields members (key :: seen) s
            | .error cause => .error cause

/-- Reads the items of an array as the fields in order; there may be fewer items than fields. -/
def readItems {σ : Type} : List (Member σ) → List Json → σ → Except DecodeFault σ
  | _, [], s => .ok s
  | [], _ :: _, _ => .error .mismatch
  | field :: fields, json :: items, s =>
      match field.read json s with
      | .ok s => readItems fields items s
      | .error cause => .error cause

/-- The codec of a structure with the given defaults and fields. -/
def record {σ : Type} (defaults : σ) (fields : List (Member σ)) : Codec σ where
  read
    | .object members => readMembers fields members [] defaults
    | .array items => readItems fields items defaults
    | _ => .error .mismatch
  write s := .record (fields.map fun field => (field.name, field.write s))

end Codec

end StackedCache.Json
