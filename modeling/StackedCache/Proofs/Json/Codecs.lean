import StackedCache.Proofs.Json.Printing

/-!
# What libraries read back

A codec restores a value if it reads what it writes for it as the same value, and if what it writes
can be expressed in a text.  The codecs of a documented library restore values, and its structures
are restored if their fields have different names and, read one after the other in place of the
defaults, give the structure again: `Library.Documented.record_restores`.

The library that runs is documented, `Library.plain_documented`, and reproduces all values whose
floats it finds again, `Library.plain_reproduces`.
-/

namespace StackedCache.Json

variable {α β σ : Type} {library : Library} {known : Float → Prop} {depth : Nat}

open Codec (Choice Distinct readMember)

/-! ## Values that can be expressed -/

mutual

theorem Expressible.sound : ∀ {v : Json} {depth : Nat}, v.Expressible known depth → v.sound = true
  | null, _, _ => rfl
  | bool _, _, _ => rfl
  | number _, _, _ => rfl
  | string _, _, _ => rfl
  | array _, _, expressible => ExpressibleItems.sound expressible.2
  | object _, _, expressible => ExpressibleMembers.sound expressible.2

theorem ExpressibleItems.sound : ∀ {items : List Json} {depth : Nat},
    ExpressibleItems known items depth → soundItems items = true
  | [], _, _ => rfl
  | _ :: _, _, expressible =>
      Bool.and_eq_true_iff.2 ⟨expressible.1.sound, ExpressibleItems.sound expressible.2⟩

theorem ExpressibleMembers.sound : ∀ {members : List (Option String × Json)} {depth : Nat},
    ExpressibleMembers known members depth → soundMembers members = true
  | [], _, _ => rfl
  | _ :: _, _, expressible =>
      Bool.and_eq_true_iff.2 ⟨expressible.2.1.sound, ExpressibleMembers.sound expressible.2.2⟩

end

/-- An object with members that can be expressed stands one level higher. -/
theorem expressible_record {members : List (String × Json)}
    (expressible : ∀ member ∈ members, member.2.Expressible known depth) :
    (record members).Expressible known (depth + 1) := by
  have each (members : List (String × Json))
      (expressible : ∀ member ∈ members, member.2.Expressible known depth) :
      ExpressibleMembers known (members.map fun member => (some member.1, member.2)) depth := by
    induction members with
    | nil => trivial
    | cons member members ih =>
        rw [List.forall_mem_cons] at expressible
        exact ⟨rfl, expressible.1, ih expressible.2⟩
  exact ⟨Nat.succ_pos depth, each members expressible⟩

/-! ## Structures -/

namespace Codec

/-- What is written for the value is read as the value, and can be expressed with `depth` levels. -/
structure Restores (known : Float → Prop) (depth : Nat) (codec : Codec α) (a : α) : Prop where
  read : codec.read (codec.write a) = .ok a
  expressible : (codec.write a).Expressible known depth

/-- Reading every field as it was written for `s` turns `t` into `u`, and all of them can be
expressed with `depth` levels. -/
structure Copies (known : Float → Prop) (depth : Nat) (fields : List (Member σ)) (s t u : σ) :
    Prop where
  expressible : ∀ field ∈ fields, (field.write s).Expressible known depth
  copied : fields.foldlM (fun t field => field.read (field.write s) t) t = .ok u

@[simp]
theorem copies_nil {s t u : σ} : Copies known depth [] s t u ↔ t = u :=
  ⟨fun copies => Except.ok.inj copies.copied, fun same => ⟨nofun, congrArg Except.ok same⟩⟩

/-- A restored field takes its value in `s`. -/
theorem copies_of {name : String} {codec : Codec α} {get : σ → α} {set : α → σ → σ}
    {fields : List (Member σ)} {s t u : σ} (restored : codec.Restores known depth (get s)) :
    Copies known depth (.of name codec get set :: fields) s t u ↔
      Copies known depth fields s (set (get s) t) u := by
  have read : (Member.of name codec get set).read ((Member.of name codec get set).write s) t =
      .ok (set (get s) t) := by
    simp only [Member.of, restored.read, Except.map]
  constructor
  · rintro ⟨expressible, copied⟩
    rw [List.foldlM_cons, read] at copied
    exact ⟨(List.forall_mem_cons.1 expressible).2, copied⟩
  · rintro ⟨expressible, copied⟩
    refine ⟨List.forall_mem_cons.2 ⟨restored.expressible, expressible⟩, ?_⟩
    rw [List.foldlM_cons, read]
    exact copied

/-- Where all keys differ, an item is found by its key. -/
theorem find?_key {key : α → β} {items : List α} (distinct : (items.map key).Nodup) {item : α}
    (mem : item ∈ items) {p : α → Bool} (selects : ∀ other, p other = true ↔ key other = key item) :
    items.find? p = some item := by
  induction items with
  | nil => cases mem
  | cons first others ih =>
      rw [List.map_cons, List.nodup_cons] at distinct
      rcases List.mem_cons.1 mem with rfl | mem
      · exact List.find?_cons_of_pos ((selects item).2 rfl)
      · have differs : ¬p first = true := fun same =>
          distinct.1 (List.mem_map.2 ⟨item, mem, ((selects first).1 same).symm⟩)
        rw [List.find?_cons_of_neg differs, ih distinct.2 mem]

/-- The members of the object that stands for a structure. -/
def written (fields : List (Member σ)) (s : σ) : List (String × Json) :=
  fields.map fun field => (field.name, field.write s)

/-- The written members are read each by its own field. -/
theorem foldlM_written {fields : List (Member σ)} (distinct : (fields.map (·.name)).Nodup)
    (s t : σ) : (written fields s).foldlM (readMember fields) t =
      fields.foldlM (fun t field => field.read (field.write s) t) t := by
  have run (rest : List (Member σ)) (known : rest ⊆ fields) (t : σ) :
      (written rest s).foldlM (readMember fields) t =
        rest.foldlM (fun t field => field.read (field.write s) t) t := by
    induction rest generalizing t with
    | nil => rfl
    | cons field rest ih =>
        have own : readMember fields t (field.name, field.write s) =
            field.read (field.write s) t := by
          have found := find?_key distinct (known List.mem_cons_self) fun _ => decide_eq_true_iff
          simp only [readMember, found]
        simp only [written, List.map_cons, List.foldlM_cons, own]
        refine congrArg (field.read (field.write s) t >>= ·) (funext fun t => ?_)
        exact ih (fun other mem => known (List.mem_cons_of_mem _ mem)) t
  exact run fields (List.Subset.refl fields) t

end Codec

/-! ## Documented libraries -/

namespace Library.Documented

open Codec (Restores Copies written foldlM_written)

variable (documented : library.Documented)

include documented

theorem bool_restores (b : Bool) : Restores known depth library.bool b where
  read := by rw [documented.bool_write, documented.bool_read]
  expressible := by
    rw [documented.bool_write]
    trivial

theorem word64_restores (n : UInt64) : Restores known depth library.word64 n where
  read := by rw [documented.word64_write, documented.word64_read]
  expressible := by
    rw [documented.word64_write]
    exact n.toNat_lt

theorem word32_restores (n : UInt32) : Restores known depth library.word32 n where
  read := by rw [documented.word32_write, documented.word32_read]
  expressible := by
    rw [documented.word32_write]
    exact Nat.lt_trans n.toNat_lt (by decide)

theorem float_restores {x : Float} (finite : x.isFinite) (here : known x) :
    Restores known depth library.float x where
  read := by rw [documented.float_write x finite, documented.float_read x finite]
  expressible := by
    rw [documented.float_write x finite]
    exact here

theorem wrap_restores {codec : Codec α} {make : α → β} {content : β → α} {b : β}
    (made : make (content b) = b) (inner : Restores known depth codec (content b)) :
    Restores known depth (library.wrap codec make content) b where
  read := by
    rw [documented.wrap_write, documented.wrap_read, inner.read, Except.map, made]
  expressible := by
    rw [documented.wrap_write]
    exact inner.expressible

theorem code_restores {decode : Nat → Option α} {encode : α → Nat} {a : α}
    (small : encode a < 256) (decoded : decode (encode a) = some a) :
    Restores known depth (library.code decode encode) a where
  read := by
    rw [documented.code_write decode encode a small, documented.code_read _ _ _ a small decoded]
  expressible := by
    rw [documented.code_write decode encode a small]
    exact Nat.lt_trans small (by decide)

/-- A value is restored by its name. -/
theorem choice_restores [BEq α] [LawfulBEq α] {choices : List (Choice α)} {a : α}
    (distinct : Distinct choices) (listed : a ∈ choices.map (·.value)) :
    Restores known depth (library.choice choices) a := by
  rcases List.mem_map.1 listed with ⟨c, mem, rfl⟩
  have written := documented.choice_write distinct mem
  refine ⟨?_, ?_⟩
  · rw [written]
    exact documented.choice_read distinct mem List.mem_cons_self
  · rw [written]
    rfl

/-- A structure is restored if its fields, taken over one by one, make it up. -/
theorem record_restores {defaults s : σ} {fields : List (Member σ)}
    (distinct : (fields.map (·.name)).Nodup) (copies : Copies known depth fields s defaults s) :
    Restores known (depth + 1) (library.record defaults fields) s := by
  have expressible : ∀ member ∈ written fields s, member.2.Expressible known depth :=
    List.forall_mem_map.2 copies.expressible
  have keys : ((written fields s).map Prod.fst).Nodup := by
    rwa [written, List.map_map]
  refine ⟨?_, ?_⟩
  · rw [documented.record_write]
    refine (documented.record_read defaults fields (written fields s) distinct keys
      fun member mem => (expressible member mem).sound).trans ?_
    rw [foldlM_written distinct, copies.copied]
  · rw [documented.record_write]
    exact expressible_record expressible

end Library.Documented

/-! ## The library that runs -/

namespace Codec

theorem mem_names_iff {c : Choice α} {name : String} :
    name ∈ c.names ↔ (c.name = name || c.others.contains name) = true := by
  rw [Choice.names, List.mem_cons, Bool.or_eq_true, decide_eq_true_eq, List.contains_iff_mem,
    eq_comm]

/-- A choice is chosen by each of its names. -/
theorem choose_name {choices : List (Choice α)} {c : Choice α} {name : String}
    (distinct : (choices.flatMap Choice.names).Nodup) (mem : c ∈ choices)
    (named : name ∈ c.names) : choose choices name = .ok c.value := by
  have found : (choices.find? fun c => c.name = name || c.others.contains name) = some c := by
    induction choices with
    | nil => cases mem
    | cons first others ih =>
        rw [List.flatMap_cons, List.nodup_append] at distinct
        rcases List.mem_cons.1 mem with rfl | mem
        · exact List.find?_cons_of_pos (mem_names_iff.1 named)
        · have differs : (first.name = name || first.others.contains name) = false := by
            refine Bool.eq_false_iff.2 fun answers => ?_
            exact distinct.2.2 name (mem_names_iff.2 answers) name
              (List.mem_flatMap.2 ⟨c, mem, named⟩) rfl
          rw [List.find?_cons, differs]
          exact ih distinct.2.1 mem
  rw [choose, found]

/-- The members of an object are read one after the other, none for the second time. -/
theorem readMembers_eq {fields : List (Member σ)} {members : List (String × Json)}
    (distinct : (members.map Prod.fst).Nodup) (sound : ∀ member ∈ members, member.2.sound = true)
    (s : σ) : readMembers fields (members.map fun member => (some member.1, member.2)) [] s =
      members.foldlM (readMember fields) s := by
  -- The members still to be read have names that have not been seen.
  have run (seen : List String) (s : σ) (unseen : ∀ member ∈ members, member.1 ∉ seen) :
      readMembers fields (members.map fun member => (some member.1, member.2)) seen s =
        members.foldlM (readMember fields) s := by
    induction members generalizing seen s with
    | nil => rfl
    | cons member members ih =>
        rcases member with ⟨key, json⟩
        rw [List.map_cons, List.nodup_cons] at distinct
        rw [List.forall_mem_cons] at sound unseen
        have rest := ih distinct.2 sound.2
        have new : seen.contains key = false := by simpa using unseen.1
        rw [List.map_cons, List.foldlM_cons, readMembers, readMember]
        cases found : fields.find? (·.name = key) with
        | none =>
            rw [sound.1, if_pos rfl]
            exact rest seen s unseen.2
        | some field =>
            simp only [new]
            cases read : field.read json s with
            | error cause => rfl
            | ok s' =>
                refine rest (key :: seen) s' fun other mem => ?_
                have differs : other.1 ≠ key := fun same =>
                  distinct.1 (List.mem_map.2 ⟨other, mem, same⟩)
                simpa [differs] using unseen.2 other mem
  exact run [] s fun _ _ => List.not_mem_nil

end Codec

namespace Library

theorem plain_documented : plain.Documented where
  bool_write _ := rfl
  bool_read _ := rfl
  word32_write _ := rfl
  word32_read n := by
    have fits : n.toNat < 2 ^ 32 := n.toNat_lt
    simp only [plain, Codec.word32, nat, fits, if_true, UInt32.ofNat_toNat]
  word64_write _ := rfl
  word64_read n := by
    have fits : n.toNat < 2 ^ 64 := n.toNat_lt
    simp only [plain, Codec.word64, nat, fits, if_true, UInt64.ofNat_toNat]
  float_write _ finite := if_pos finite
  float_read _ _ := rfl
  wrap_write _ _ _ _ := rfl
  wrap_read _ _ _ _ := rfl
  choice_write distinct mem := by
    have found := Codec.find?_key distinct.values mem fun _ => beq_iff_eq
    simp only [plain, Codec.choice, found]
  choice_read distinct mem named := Codec.choose_name distinct.names mem named
  code_write _ _ _ _ := rfl
  code_read _ _ _ _ small decoded := by
    simp only [plain, Codec.code, nat, small, if_true, decoded]
  record_write _ _ _ := rfl
  record_read defaults _ _ _ distinct sound := Codec.readMembers_eq distinct sound defaults

/-- A value is read from its text, provided that its floats are found again. -/
theorem plain_reproduces (found : Found known) : plain.Reproduces known := by
  refine ⟨fun codec value expressible => ?_⟩
  have reproduced : Json.read value.pretty = ⟨value, true⟩ := expressible.reproduced found
  simp only [plain, Codec.readText, reproduced, if_true]
  cases codec.read value <;> rfl

end Library

end StackedCache.Json
