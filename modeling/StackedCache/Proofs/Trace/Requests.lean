import StackedCache.Proofs.Text.Numerals
import StackedCache.Proofs.Text.Words
import StackedCache.Proofs.Trace.Lines
import StackedCache.Trace.Request

/-!
# The grammar of request lines

Which lines are requests, and of which requests: a time, the name of a direction, an address and
perhaps a size, with whatever may follow.  A line that is neither passed over nor a request is
refused for the first field that is missing or no value.  The reader accepts, passes over and
refuses exactly these lines, so whatever is printed as a request is read back:
`TraceRequest.ofLine_exact`.
-/

namespace StackedCache

/-! ## Directions -/

namespace Access

variable {c letter : Char} {name : String} {word : List Char} {a : Access}

/-- The names of a direction. -/
def names : Access → List String
  | read => ["R", "READ"]
  | write => ["W", "WRITE"]

/-- The word is the name, each letter in upper or lower case. -/
def Spells (name : String) (word : List Char) : Prop :=
  List.Forall₂ (fun c letter => c = letter ∨ c = letter.toLower) word name.toList

theorem toNat_toUpper (c : Char) :
    c.toUpper.toNat = if 97 ≤ c.toNat ∧ c.toNat ≤ 122 then c.toNat - 32 else c.toNat := by
  have range : ('a'.val ≤ c.val ∧ c.val ≤ 'z'.val) = (97 ≤ c.toNat ∧ c.toNat ≤ 122) := rfl
  unfold Char.toUpper
  split
  · rename_i inside
    rw [range] at inside
    rw [if_pos inside]
    show (c.val + ('A'.val - 'a'.val)).toNat = c.val.toNat - 32
    have wrapped : ('A'.val - 'a'.val).toNat = 2 ^ 32 - 32 := rfl
    have code : c.val.toNat = c.toNat := rfl
    rw [UInt32.toNat_add, wrapped]
    omega
  · rename_i outside
    rw [range] at outside
    rw [if_neg outside]

theorem toNat_toLower (c : Char) :
    c.toLower.toNat = if 65 ≤ c.toNat ∧ c.toNat ≤ 90 then c.toNat + 32 else c.toNat := by
  have range : (c.val ≥ 'A'.val ∧ c.val ≤ 'Z'.val) = (65 ≤ c.toNat ∧ c.toNat ≤ 90) := rfl
  unfold Char.toLower
  split
  · rename_i inside
    rw [range] at inside
    rw [if_pos inside]
    show (c.val + ('a'.val - 'A'.val)).toNat = c.val.toNat + 32
    have shift : ('a'.val - 'A'.val).toNat = 32 := rfl
    have code : c.val.toNat = c.toNat := rfl
    rw [UInt32.toNat_add, shift]
    omega
  · rename_i outside
    rw [range] at outside
    rw [if_neg outside]

theorem toUpper_eq_iff (upper : letter.isUpper) :
    c.toUpper = letter ↔ c = letter ∨ c = letter.toLower := by
  have inside : 'A'.val ≤ letter.val ∧ letter.val ≤ 'Z'.val := of_decide_eq_true upper
  have range : 65 ≤ letter.toNat ∧ letter.toNat ≤ 90 := inside
  simp only [← Char.toNat_inj, toNat_toUpper, toNat_toLower, range, and_self, if_true]
  split
  · omega
  · omega

theorem spells_iff (upper : name.toList.all Char.isUpper) :
    Spells name word ↔ String.ofList (word.map Char.toUpper) = name := by
  have letters (letters : List Char) (upper : ∀ letter ∈ letters, letter.isUpper) :
      List.Forall₂ (fun c letter => c = letter ∨ c = letter.toLower) word letters ↔
        word.map Char.toUpper = letters := by
    induction word generalizing letters with
    | nil => cases letters <;> simp
    | cons c word ih =>
        cases letters with
        | nil => simp
        | cons letter letters =>
            have first := upper letter List.mem_cons_self
            have others := ih letters fun l mem => upper l (List.mem_cons_of_mem _ mem)
            simp only [List.forall₂_cons, List.map_cons, List.cons.injEq, others,
              toUpper_eq_iff first]
  rw [Spells, letters _ (List.all_eq_true.1 upper), ← String.toList_inj, String.toList_ofList]

theorem names_upper (mem : name ∈ a.names) : name.toList.all Char.isUpper := by
  cases a with
  | read =>
      simp only [names, List.mem_cons, List.not_mem_nil, or_false] at mem
      rcases mem with rfl | rfl <;> rfl
  | write =>
      simp only [names, List.mem_cons, List.not_mem_nil, or_false] at mem
      rcases mem with rfl | rfl <;> rfl

theorem ofWord?_eq_some_iff_mem :
    ofWord? word = some a ↔ String.ofList (word.map Char.toUpper) ∈ a.names := by
  unfold ofWord?
  generalize String.ofList (word.map Char.toUpper) = upper
  split
  case h_5 r read w write =>
    cases a with
    | read => simpa [names] using ⟨r, read⟩
    | write => simpa [names] using ⟨w, write⟩
  -- The text is a name, of one direction only.
  all_goals cases a <;> simp [names]

theorem ofWord?_eq_some_iff : ofWord? word = some a ↔ ∃ name ∈ a.names, Spells name word := by
  rw [ofWord?_eq_some_iff_mem]
  constructor
  · intro mem
    exact ⟨_, mem, (spells_iff (names_upper mem)).2 rfl⟩
  · rintro ⟨name, mem, spelled⟩
    rwa [(spells_iff (names_upper mem)).1 spelled]

end Access

/-! ## Refusals -/

namespace Trace

variable {α β : Type} {line : Nat} {field : TraceField} {fields : List TraceField}
  {parse : List Char → Option α} {words : List (List Char)} {fault : TraceFault}

theorem readField_eq_error_iff : readField line field parse words = .error fault ↔
    (words = [] ∧ fault = .missing line field) ∨
      ∃ word rest, words = word :: rest ∧ parse word = none ∧
        fault = .invalid line field (String.ofList word) := by
  cases words with
  | nil => simp [readField, eq_comm]
  | cons word rest =>
      cases parsed : parse word with
      | none => simp [readField, parsed, eq_comm]
      | some value => simp [readField, parsed]

/-- The words that are values of a field of a request. -/
def Accepts : TraceField → List Char → Prop
  | .accessType, word => ∃ a : Access, ∃ name ∈ a.names, Access.Spells name word
  | _, word => ∃ n, Text.IsWordNumeral word n

/-- The first of the fields that has no word, or a word that is no value of it, and the fault that
names this field.  A line may end before the size. -/
inductive Offends (line : Nat) : List TraceField → List (List Char) → TraceFault → Prop where
  | missing {field : TraceField} {fields : List TraceField} (required : field ≠ .size) :
      Offends line (field :: fields) [] (.missing line field)
  | invalid {field : TraceField} {fields : List TraceField} {word : List Char}
      {words : List (List Char)} (refused : ¬Accepts field word) :
      Offends line (field :: fields) (word :: words) (.invalid line field (String.ofList word))
  | later {field : TraceField} {fields : List TraceField} {word : List Char}
      {words : List (List Char)} {fault : TraceFault} (accepted : Accepts field word)
      (offends : Offends line fields words fault) :
      Offends line (field :: fields) (word :: words) fault

theorem refused_iff {word : List Char}
    (accepts : Accepts field word ↔ ∃ value, parse word = some value) :
    parse word = none ↔ ¬Accepts field word := by
  rw [accepts]
  cases parse word with
  | none => simp
  | some value => simp

/-- One field is read, and then the others. -/
theorem bind_readField_eq_error_iff {next : α × List (List Char) → Except TraceFault β}
    (required : field ≠ .size)
    (accepts : ∀ word, Accepts field word ↔ ∃ value, parse word = some value)
    (others : ∀ value words, next (value, words) = .error fault ↔ Offends line fields words fault) :
    (readField line field parse words).bind next = .error fault ↔
      Offends line (field :: fields) words fault := by
  rw [bind_eq_error_iff]
  simp only [readField_eq_error_iff, readField_eq_ok_iff, Prod.exists, others,
    refused_iff (accepts _)]
  constructor
  · rintro ((⟨rfl, rfl⟩ | ⟨word, rest, rfl, refused, rfl⟩) |
      ⟨value, rest, ⟨word, rfl, parsed⟩, offends⟩)
    · exact .missing required
    · exact .invalid refused
    · exact .later ((accepts word).2 ⟨value, parsed⟩) offends
  · intro offends
    cases offends with
    | missing _ => exact .inl (.inl ⟨rfl, rfl⟩)
    | invalid refused => exact .inl (.inr ⟨_, _, rfl, refused, rfl⟩)
    | @later _ _ word words _ accepted offends =>
        rcases (accepts word).1 accepted with ⟨value, parsed⟩
        exact .inr ⟨value, words, ⟨word, rfl, parsed⟩, offends⟩

end Trace

/-! ## Requests -/

namespace TraceRequest

open Trace

variable {line : Nat} {words : List (List Char)} {text : List Char} {r : TraceRequest}
  {fault : TraceFault}

/-- All numbers of the request have 64 bits. -/
structure Fits (r : TraceRequest) : Prop where
  timeNs : r.timeNs < 2 ^ 64
  addr : r.addr < 2 ^ 64
  size : r.size < 2 ^ 64

/-- The words begin with the fields of the request; without a size it is the usual one. -/
inductive Says : List (List Char) → TraceRequest → Prop where
  | usual {time access addr : List Char} {r : TraceRequest}
      (time_is : Text.IsWordNumeral time r.timeNs)
      (access_is : ∃ name ∈ r.access.names, Access.Spells name access)
      (addr_is : Text.IsWordNumeral addr r.addr) (size_is : r.size = 64) :
      Says [time, access, addr] r
  | sized {time access addr size : List Char} {rest : List (List Char)} {r : TraceRequest}
      (time_is : Text.IsWordNumeral time r.timeNs)
      (access_is : ∃ name ∈ r.access.names, Access.Spells name access)
      (addr_is : Text.IsWordNumeral addr r.addr) (size_is : Text.IsWordNumeral size r.size) :
      Says (time :: access :: addr :: size :: rest) r

/-- The fields of a request, in their order. -/
def fields : List TraceField := [.time, .accessType, .address, .size]

theorem readOptional_eq_ok_iff {size : Nat} {words rest : List (List Char)} :
    readOptional line .size Text.wordNumeral? usualSize words = .ok (size, rest) ↔
      (words = [] ∧ rest = [] ∧ size = 64) ∨
        ∃ word, words = word :: rest ∧ Text.IsWordNumeral word size := by
  cases words with
  | nil => simp [readOptional, usualSize, eq_comm, and_comm]
  | cons word words =>
      simp only [readOptional, readField_eq_ok_iff, Text.wordNumeral?_eq_some_iff]
      simp

theorem ofWords_eq_ok_iff : ofWords line words = .ok r ↔ Says words r := by
  unfold ofWords
  simp only [bind, bind_eq_ok_iff, Prod.exists, readField_eq_ok_iff, readOptional_eq_ok_iff,
    Text.wordNumeral?_eq_some_iff, Access.ofWord?_eq_some_iff]
  constructor
  · rintro ⟨_, _, ⟨time, rfl, h₁⟩, _, _, ⟨access, rfl, h₂⟩, _, _, ⟨addr, rfl, h₃⟩, _, _,
      ⟨rfl, rfl, h₄⟩ | ⟨size, rfl, h₄⟩, done⟩
    · cases done
      exact .usual h₁ h₂ h₃ h₄
    · cases done
      exact .sized h₁ h₂ h₃ h₄
  · intro said
    cases said with
    | @usual time access addr r h₁ h₂ h₃ h₄ =>
        exact ⟨_, _, ⟨time, rfl, h₁⟩, _, _, ⟨access, rfl, h₂⟩, _, _, ⟨addr, rfl, h₃⟩, _, _,
          .inl ⟨rfl, rfl, h₄⟩, rfl⟩
    | @sized time access addr size rest r h₁ h₂ h₃ h₄ =>
        exact ⟨_, _, ⟨time, rfl, h₁⟩, _, _, ⟨access, rfl, h₂⟩, _, _, ⟨addr, rfl, h₃⟩, _, _,
          .inr ⟨size, rfl, h₄⟩, rfl⟩

/-- The fields but one are numbers. -/
theorem accepts_iff {field : TraceField} (number : field ≠ .accessType) (word : List Char) :
    Accepts field word ↔ ∃ n, Text.wordNumeral? word = some n := by
  simp only [Text.wordNumeral?_eq_some_iff]
  cases field with
  | accessType => exact absurd rfl number
  | _ => rfl

theorem readOptional_eq_error_iff :
    readOptional line .size Text.wordNumeral? usualSize words = .error fault ↔
      Offends line [.size] words fault := by
  have accepts (word : List Char) : Accepts .size word ↔ ∃ n, Text.wordNumeral? word = some n :=
    accepts_iff (by decide) word
  cases words with
  | nil =>
      constructor
      · nofun
      · intro offends
        cases offends with
        | missing required => exact absurd rfl required
  | cons word words =>
      simp only [readOptional, readField_eq_error_iff, reduceCtorEq, false_and, false_or,
        List.cons.injEq, refused_iff (accepts _)]
      constructor
      · rintro ⟨_, _, ⟨rfl, rfl⟩, refused, rfl⟩
        exact .invalid refused
      · intro offends
        cases offends with
        | invalid refused => exact ⟨word, words, ⟨rfl, rfl⟩, refused, rfl⟩
        | later _ offends => cases offends

theorem ofWords_eq_error_iff :
    ofWords line words = .error fault ↔ Offends line fields words fault := by
  unfold ofWords fields
  refine bind_readField_eq_error_iff (by decide) (accepts_iff (by decide)) fun time words => ?_
  refine bind_readField_eq_error_iff (by decide) (fun word => ?_) fun access words => ?_
  · simp only [Access.ofWord?_eq_some_iff]
    rfl
  refine bind_readField_eq_error_iff (by decide) (accepts_iff (by decide)) fun addr words => ?_
  -- Nothing is refused behind the size.
  refine bind_eq_error_iff.trans ?_
  rw [readOptional_eq_error_iff]
  constructor
  · rintro (offends | ⟨_, _, done⟩)
    · exact offends
    · cases done
  · exact .inl

/-! ## Lines -/

/-- The words that a request is printed as: its numbers in any of their forms, the direction by one
of its names, and a size, which may be left out if it is the usual one. -/
inductive Printed (r : TraceRequest) : List (List Char) → Prop where
  | usual {time access addr : List Char} (time_is : Text.Written r.timeNs time)
      (access_is : ∃ name ∈ r.access.names, Access.Spells name access)
      (addr_is : Text.Written r.addr addr) (size_is : r.size = 64) :
      Printed r [time, access, addr]
  | sized {time access addr size : List Char} (time_is : Text.Written r.timeNs time)
      (access_is : ∃ name ∈ r.access.names, Access.Spells name access)
      (addr_is : Text.Written r.addr addr) (size_is : Text.Written r.size size) :
      Printed r [time, access, addr, size]

theorem Printed.said (fits : r.Fits) (printed : r.Printed words) : Says words r := by
  cases printed with
  | usual time access addr size =>
      exact .usual (Text.isWordNumeral_of_written fits.timeNs time) access
        (Text.isWordNumeral_of_written fits.addr addr) size
  | sized time access addr size =>
      exact .sized (Text.isWordNumeral_of_written fits.timeNs time) access
        (Text.isWordNumeral_of_written fits.addr addr)
        (Text.isWordNumeral_of_written fits.size size)

theorem Printed.first (printed : r.Printed words) :
    ∃ time rest, words = time :: rest ∧ Text.Written r.timeNs time := by
  cases printed with
  | usual time => exact ⟨_, _, rfl, time⟩
  | sized time => exact ⟨_, _, rfl, time⟩

/-- A printed request starts with a digit, so it is no comment. -/
theorem Printed.not_skipped (printed : r.Printed words) (spaced : Text.Spaced text words) :
    ¬Text.Skipped text := by
  rcases printed.first with ⟨time, rest, rfl, written⟩
  rw [← Text.lineWords_eq_none_iff]
  unfold Text.lineWords
  rw [spaced.words_eq]
  split
  · rename_i empty
    cases empty
  · rename_i same
    exact absurd (List.cons.inj same).1 written.ne_comment
  · nofun

theorem ofLine_eq_none_iff : ofLine line text = .ok none ↔ Text.Skipped text := by
  rw [← Text.lineWords_eq_none_iff]
  unfold ofLine readLine
  cases found : Text.lineWords text with
  | none => simp
  | some words =>
      cases read : ofWords line words with
      | ok r => simp [read, Except.map]
      | error fault => simp [read, Except.map]

/-- A line that is not passed over is read by its words. -/
theorem ofLine_of_spaced (kept : ¬Text.Skipped text) (spaced : Text.Spaced text words) :
    ofLine line text = (ofWords line words).map some := by
  rw [ofLine, readLine, Text.lineWords_eq_some_iff.2 ⟨kept, spaced⟩]

theorem ofLine_eq_some_iff : ofLine line text = .ok (some r) ↔
    ¬Text.Skipped text ∧ ∃ words, Text.Spaced text words ∧ Says words r := by
  rcases Text.exists_spaced text with ⟨words, spaced⟩
  by_cases kept : Text.Skipped text
  · rw [ofLine_eq_none_iff.2 kept]
    simp [kept]
  · have read : ofWords line words = .ok r ↔ Says words r := ofWords_eq_ok_iff
    rw [ofLine_of_spaced kept spaced, spaced.exists_iff, ← read]
    cases ofWords line words with
    | ok r => simp [Except.map, kept]
    | error fault => simp [Except.map]

theorem ofLine_eq_error_iff : ofLine line text = .error fault ↔
    ¬Text.Skipped text ∧ ∃ words, Text.Spaced text words ∧ Offends line fields words fault := by
  rcases Text.exists_spaced text with ⟨words, spaced⟩
  by_cases kept : Text.Skipped text
  · rw [ofLine_eq_none_iff.2 kept]
    simp [kept]
  · rw [ofLine_of_spaced kept spaced, spaced.exists_iff, ← ofWords_eq_error_iff]
    cases ofWords line words with
    | ok r => simp [Except.map]
    | error fault => simp [Except.map, kept]

/-- What becomes of a line: it is passed over, read as the request it is, or refused for its first
field that is missing or no value.  A request that is printed is read back, however it is spaced. -/
theorem ofLine_exact (line : Nat) (text : List Char) :
    (ofLine line text = .ok none ↔ Text.Skipped text) ∧
    (∀ r, ofLine line text = .ok (some r) ↔
      ¬Text.Skipped text ∧ ∃ words, Text.Spaced text words ∧ Says words r) ∧
    (∀ fault, ofLine line text = .error fault ↔
      ¬Text.Skipped text ∧ ∃ words, Text.Spaced text words ∧ Offends line fields words fault) ∧
    ∀ (r : TraceRequest) (words : List (List Char)), r.Fits → r.Printed words →
      Text.Spaced text words → ofLine line text = .ok (some r) := by
  refine ⟨ofLine_eq_none_iff, fun r => ofLine_eq_some_iff, fun fault => ofLine_eq_error_iff, ?_⟩
  intro r words fits printed spaced
  exact ofLine_eq_some_iff.2 ⟨printed.not_skipped spaced, words, spaced, printed.said fits⟩

/-- A write at an address in upper-case hexadecimal, behind a tab and with a size of its own. -/
theorem ofLine_exact_write :
    let r : TraceRequest := ⟨120, .write, 0x1F40, 128⟩
    let words := ["120".toList, "Write".toList, "0X1F40".toList, "0x80".toList]
    let text := "\t120 Write\u00a0\u2003 0X1F40 0x80 ".toList
    r.Fits ∧ r.Printed words ∧ Text.Spaced text words ∧ ofLine 7 text = .ok (some r) := by
  intro r words text
  have fits : r.Fits := ⟨by decide, by decide, by decide⟩
  have spaced : Text.Spaced text words := Text.words_eq_iff.1 (by decide)
  have named : Access.Spells "WRITE" "Write".toList := (Access.spells_iff rfl).2 (by decide)
  have time : Text.Written 120 "120".toList := .decimal
  have addr : Text.Written 0x1F40 "0X1F40".toList := .upper (.inr rfl)
  have size : Text.Written 128 "0x80".toList := .lower (.inl rfl)
  have printed : r.Printed words := .sized time ⟨"WRITE", by decide, named⟩ addr size
  exact ⟨fits, printed, spaced, (ofLine_exact 7 text).2.2.2 r words fits printed spaced⟩

end TraceRequest

end StackedCache
