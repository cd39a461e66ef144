import StackedCache.Proofs.Residency.Coherent
import StackedCache.Proofs.Step

/-!
# Operations on a set and the tags it holds

Operations reach a set with any arguments.  A fill changes a way before it looks the new tag up to
touch its holder, but the lookup finds the way, so a fill that is refused has changed nothing.  Each
tag is held by one way at most in every set that operations lead to: `run_distinct`.
-/

namespace StackedCache

namespace Line

theorem tag_touchBlock (l : Line) (access : Access) (block : Nat) :
    (l.touchBlock access block).tag = l.tag := by
  cases access <;> rfl

theorem tag_of_drop {l : Line} {tag : Nat} (h : l.drop.tag = some tag) : l.tag = some tag := by
  unfold drop at h
  split at h
  · cases h
  · exact h

end Line

namespace CacheSet

variable {s s' : CacheSet} {way other tag : Nat} {predicted : BlockSet} {trigger : Nat}

/-! ## Operations -/

inductive Operation where
  | lookup (access : Access) (tag block : Nat)
  | chooseVictim
  | fill (way tag : Nat) (predicted : BlockSet) (trigger : Nat)
  | markBlock (way : Nat) (access : Access) (block : Nat)
  | touch (tag : Nat)
  | dropWay (way : Nat)
  | drop

/-- The set that an operation leaves behind, also when it is refused. -/
def perform (s : CacheSet) : Operation → CacheSet
  | .lookup access tag block => (s.access access tag block).2
  | .chooseVictim => s.chooseVictim.2
  | .fill way tag predicted trigger => final (fillWay way tag predicted trigger s)
  | .markBlock way access block =>
      match s.markBlock way access block with
      | .ok s' => s'
      | .error _ => s
  | .touch tag => final (touchHolder tag s)
  | .dropWay way =>
      match s.dropWay way with
      | .ok (_, s') => s'
      | .error _ => s
  | .drop => s.drop

/-- Performs operations in order. -/
def run (s : CacheSet) (ops : List Operation) : CacheSet := ops.foldl perform s

/-! ## Tags -/

/-- The tags of the ways, in order. -/
def tags (s : CacheSet) : List (Option Nat) := s.lines.map Line.tag

def Holds (s : CacheSet) (way tag : Nat) : Prop := s.tags[way]? = some (some tag)

theorem holds_iff : s.Holds way tag ↔ ∃ l, s.lines[way]? = some l ∧ l.tag = some tag := by
  rw [Holds, tags, List.getElem?_map, Option.map_eq_some_iff]

theorem Holds.lt (h : s.Holds way tag) : way < s.ways := by
  rcases holds_iff.1 h with ⟨l, hl, _⟩
  exact (List.getElem?_eq_some_iff.1 hl).1

/-- Tags have no part in how the ways are ranked. -/
theorem tags_touchWay (s : CacheSet) (way : Nat) : (s.touchWay way).tags = s.tags := by
  have young : ∀ s : CacheSet, s.tags = s.content.map Line.tag := by
    intro s
    simp only [tags, content, List.map_map]
    rfl
  rw [young, content_touchWay, ← young]

theorem tags_modifyLine {f : Line → Line} (s : CacheSet) (way : Nat)
    (same : ∀ l, (f l).tag = l.tag) : (s.modifyLine way f).tags = s.tags := by
  have mapped := map_modify_of_comm s.lines way Line.tag f id same
  rw [List.modify_id] at mapped
  exact mapped

theorem tags_replaceLine (s : CacheSet) (way tag : Nat) (predicted : BlockSet) (trigger : Nat) :
    (s.replaceLine way tag predicted trigger).tags = s.tags.modify way fun _ => some tag :=
  map_modify_of_comm s.lines way Line.tag _ _ fun _ => rfl

theorem find?_eq_none_iff : s.find? tag = none ↔ ∀ way, ¬s.Holds way tag := by
  constructor
  · intro missing way held
    rcases holds_iff.1 held with ⟨l, hl, htag⟩
    have absent := List.findIdx?_eq_none_iff.1 missing l (List.mem_of_getElem? hl)
    simp [htag] at absent
  · intro absent
    refine List.findIdx?_eq_none_iff.2 ?_
    intro l hl
    rcases List.mem_iff_getElem?.1 hl with ⟨i, hi⟩
    have free : l.tag ≠ some tag := fun held => absent i (holds_iff.2 ⟨l, hi, held⟩)
    simpa using free

theorem holds_of_find? (h : s.find? tag = some way) : s.Holds way tag :=
  holds_iff.2 (held_of_find? h)

/-- The only way that holds a tag is the one that is found. -/
theorem find?_of_only (held : s.Holds way tag) (only : ∀ other, s.Holds other tag → other = way) :
    s.find? tag = some way := by
  cases found : s.find? tag with
  | none => exact absurd held (find?_eq_none_iff.1 found way)
  | some other => rw [only other (holds_of_find? found)]

theorem heldElsewhere_iff :
    s.heldElsewhere way tag = true ↔ ∃ other, other ≠ way ∧ s.Holds other tag := by
  simp only [heldElsewhere, List.any_eq_true, Bool.and_eq_true, decide_eq_true_eq, holds_iff]
  constructor
  · rintro ⟨⟨l, other⟩, member, apart, held⟩
    exact ⟨other, apart, l, by simpa using List.mem_zipIdx_iff_getElem?.1 member, by simpa using held⟩
  · rintro ⟨other, apart, l, hl, held⟩
    exact ⟨(l, other), List.mem_zipIdx_iff_getElem?.2 (by simpa using hl), apart, by simpa using held⟩

/-! ## Fills and touches -/

/-- A way does not take a tag: there is no such way, or no such tag, or another way holds it. -/
def Blocked (s : CacheSet) (way tag : Nat) : Prop :=
  s.ways ≤ way ∨ tag = noTag ∨ ∃ other, other ≠ way ∧ s.Holds other tag

/-- Once it has its new tag, a way is its holder. -/
theorem find?_replaceLine (hway : way < s.ways)
    (free : ∀ other, other ≠ way → ¬s.Holds other tag) (predicted : BlockSet) (trigger : Nat) :
    (s.replaceLine way tag predicted trigger).find? tag = some way := by
  have hlt : way < s.tags.length := by rwa [tags, List.length_map]
  refine find?_of_only ?_ fun other held => ?_
  · rw [Holds, tags_replaceLine, List.getElem?_modify_eq, List.getElem?_eq_getElem hlt]
    rfl
  · refine Decidable.byContradiction fun apart => free other apart ?_
    rwa [Holds, tags_replaceLine, List.getElem?_modify_ne _ _ (Ne.symm apart)] at held

/-- A fill is refused before it changes anything, or it succeeds. -/
theorem fillWay_cases (s : CacheSet) (way tag : Nat) (predicted : BlockSet) (trigger : Nat) :
    (s.Blocked way tag ∧ ∃ cause, fillWay way tag predicted trigger s = .error cause s) ∨
      (¬s.Blocked way tag ∧ ∃ old, s.lines[way]? = some old ∧
        fillWay way tag predicted trigger s =
          .ok old.evicted ((s.replaceLine way tag predicted trigger).touchWay way)) := by
  rw [fillWay_apply]
  cases found : s.lines[way]? with
  | none => exact .inl ⟨.inl (List.getElem?_eq_none_iff.1 found), _, rfl⟩
  | some old =>
      have hway : way < s.ways := (List.getElem?_eq_some_iff.1 found).1
      by_cases htag : tag = noTag
      · exact .inl ⟨.inr (.inl htag), _, if_pos htag⟩
      · simp only [htag, if_false]
        cases held : s.heldElsewhere way tag with
        | true => exact .inl ⟨.inr (.inr (heldElsewhere_iff.1 held)), _, rfl⟩
        | false =>
            have free : ¬∃ other, other ≠ way ∧ s.Holds other tag := by
              rw [← heldElsewhere_iff, held]
              exact Bool.false_ne_true
            have here := find?_replaceLine hway (fun other apart at_ => free ⟨other, apart, at_⟩)
              predicted trigger
            simp only [Bool.false_eq_true, if_false, here]
            refine .inr ⟨?_, old, rfl, rfl⟩
            rintro (beyond | improper | elsewhere)
            · exact absurd hway (Nat.not_lt.2 beyond)
            · exact htag improper
            · exact free elsewhere

theorem touchHolder_cases (s : CacheSet) (tag : Nat) :
    ((∀ way, ¬s.Holds way tag) ∧ touchHolder tag s = .error (.lookupMiss tag) s) ∨
      ∃ way, s.find? tag = some way ∧ touchHolder tag s = .ok () (s.touchWay way) := by
  rw [touchHolder_apply]
  cases found : s.find? tag with
  | none => exact .inl ⟨find?_eq_none_iff.1 found, rfl⟩
  | some way => exact .inr ⟨way, rfl, rfl⟩

/-! ## Steps and runs -/

theorem perform_markBlock (s : CacheSet) (way : Nat) (access : Access) (block : Nat) :
    s.perform (.markBlock way access block) = s ∨
      s.perform (.markBlock way access block) =
        s.modifyLine way (·.touchBlock access (s.blockOf block)) := by
  simp only [perform, CacheSet.markBlock]
  by_cases beyond : maxBlocks ≤ s.blockOf block
  · simp [beyond]
  · by_cases missing : s.ways ≤ way
    · simp [beyond, missing]
    · simp [beyond, missing]

/-- A way that does not exist is no way to drop. -/
theorem perform_dropWay (s : CacheSet) (way : Nat) :
    s.perform (.dropWay way) = s.modifyLine way Line.drop := by
  simp only [perform, CacheSet.dropWay]
  cases found : s.lines[way]? with
  | none =>
      have beyond := List.getElem?_eq_none_iff.1 found
      simp [modifyLine, List.modify_eq_self beyond]
  | some l => rfl

/-- A way holds what it held before, or what it has just been filled with. -/
theorem holds_of_perform {op : Operation} (h : (s.perform op).Holds way tag) :
    s.Holds way tag ∨
      ∃ predicted trigger, op = .fill way tag predicted trigger ∧ ¬s.Blocked way tag := by
  have same : ∀ s' : CacheSet, s'.tags = s.tags → s'.Holds way tag → s.Holds way tag := by
    intro s' eq held
    rwa [Holds, eq] at held
  cases op with
  | lookup access sought block =>
      refine .inl (same _ ?_ h)
      simp only [perform, CacheSet.access]
      split
      · rfl
      · split <;>
          exact (tags_modifyLine _ _ fun l => Line.tag_touchBlock l _ _).trans (tags_touchWay _ _)
  | chooseVictim => exact .inl h
  | fill filled new predicted trigger =>
      simp only [perform] at h
      rcases s.fillWay_cases filled new predicted trigger with
        ⟨_, cause, refused⟩ | ⟨free, old, _, done⟩
      · rw [refused] at h
        exact .inl h
      · rw [done, final, Holds, tags_touchWay, tags_replaceLine] at h
        by_cases here : filled = way
        · subst here
          rw [List.getElem?_modify_eq] at h
          rcases Option.map_eq_some_iff.1 h with ⟨_, _, eq⟩
          cases eq
          exact .inr ⟨predicted, trigger, rfl, free⟩
        · rw [List.getElem?_modify_ne _ _ here] at h
          exact .inl h
  | markBlock marked access block =>
      rcases s.perform_markBlock marked access block with eq | eq
      · rw [eq] at h
        exact .inl h
      · rw [eq] at h
        exact .inl (same _ (tags_modifyLine _ _ fun l => Line.tag_touchBlock l _ _) h)
  | touch sought =>
      simp only [perform] at h
      rcases s.touchHolder_cases sought with ⟨_, refused⟩ | ⟨holder, _, done⟩
      · rw [refused] at h
        exact .inl h
      · rw [done] at h
        exact .inl (same _ (tags_touchWay _ _) h)
  | dropWay dropped =>
      rw [perform_dropWay] at h
      rcases holds_iff.1 h with ⟨l, hl, held⟩
      by_cases here : dropped = way
      · subst here
        rw [modifyLine, List.getElem?_modify_eq] at hl
        rcases Option.map_eq_some_iff.1 hl with ⟨old, found, rfl⟩
        exact .inl (holds_iff.2 ⟨old, found, Line.tag_of_drop held⟩)
      · rw [modifyLine, List.getElem?_modify_ne _ _ here] at hl
        exact .inl (holds_iff.2 ⟨l, hl, held⟩)
  | drop =>
      rcases holds_iff.1 h with ⟨l, hl, held⟩
      simp only [perform, CacheSet.drop, List.getElem?_map] at hl
      rcases Option.map_eq_some_iff.1 hl with ⟨old, found, rfl⟩
      exact .inl (holds_iff.2 ⟨old, found, Line.tag_of_drop held⟩)

/-- Each tag is held by one way at most, and the number that stands for no tag by none. -/
structure Distinct (s : CacheSet) : Prop where
  unique : ∀ way other tag, s.Holds way tag → s.Holds other tag → way = other
  proper : ∀ way, ¬s.Holds way noTag

theorem ofKind_distinct (kind : SetKind) (ways : Nat) (ageing : Ageing) (placement : Location) :
    (ofKind kind ways ageing placement).Distinct := by
  have empty : ∀ way tag, ¬(ofKind kind ways ageing placement).Holds way tag := by
    intro way tag held
    rcases holds_iff.1 held with ⟨l, hl, htag⟩
    rw [List.eq_of_mem_replicate (List.mem_of_getElem? hl)] at htag
    cases htag
  exact ⟨fun way _ tag held => absurd held (empty way tag), fun way => empty way noTag⟩

/-- A fill that would make a tag ambiguous is refused. -/
theorem Distinct.perform (h : s.Distinct) (op : Operation) : (s.perform op).Distinct := by
  refine ⟨fun way other tag held held' => ?_, fun way held => ?_⟩
  · rcases holds_of_perform held with before | ⟨_, _, rfl, free⟩
    · rcases holds_of_perform held' with before' | ⟨_, _, rfl, free⟩
      · exact h.unique way other tag before before'
      · exact Decidable.byContradiction fun apart => free (.inr (.inr ⟨way, apart, before⟩))
    · rcases holds_of_perform held' with before' | ⟨_, _, eq, _⟩
      · exact Decidable.byContradiction fun apart =>
          free (.inr (.inr ⟨other, Ne.symm apart, before'⟩))
      · cases eq
        rfl
  · rcases holds_of_perform held with before | ⟨_, _, _, free⟩
    · exact h.proper way before
    · exact free (.inr (.inl rfl))

theorem Distinct.run (h : s.Distinct) (ops : List Operation) : (s.run ops).Distinct := by
  induction ops generalizing s with
  | nil => exact h
  | cons op ops ih => exact ih (h.perform op)

/-- In a set whose tags are distinct, the way that is found is the only one that holds the tag. -/
theorem Distinct.find?_iff (h : s.Distinct) : s.find? tag = some way ↔ s.Holds way tag :=
  ⟨holds_of_find?, fun held => find?_of_only held fun other held' => h.unique other way tag held' held⟩

/-- Wherever operations with any arguments lead, no two ways hold the same tag, and the holder of a
tag is found.  A fill is refused exactly if its way is blocked, a touch exactly if no way holds the
tag, and neither has changed anything then. -/
theorem run_distinct (kind : SetKind) (ways : Nat) (ageing : Ageing) (placement : Location)
    (ops : List Operation) :
    let s := (ofKind kind ways ageing placement).run ops
    (∀ way other tag, s.Holds way tag → s.Holds other tag → way = other) ∧
      (∀ tag way, s.find? tag = some way ↔ s.Holds way tag) ∧
      (∀ way tag predicted trigger,
        ((∃ cause left, fillWay way tag predicted trigger s = .error cause left) ↔
          s.ways ≤ way ∨ tag = noTag ∨ ∃ other, other ≠ way ∧ s.Holds other tag) ∧
        ∀ cause left, fillWay way tag predicted trigger s = .error cause left → left = s) ∧
      ∀ tag,
        ((∃ cause left, touchHolder tag s = .error cause left) ↔ ∀ way, ¬s.Holds way tag) ∧
        ∀ cause left, touchHolder tag s = .error cause left → left = s := by
  intro s
  have distinct : s.Distinct := (ofKind_distinct kind ways ageing placement).run ops
  refine ⟨distinct.unique, fun _ _ => distinct.find?_iff, fun way tag predicted trigger => ?_,
    fun tag => ?_⟩
  · rcases s.fillWay_cases way tag predicted trigger with
      ⟨blocked, cause, refused⟩ | ⟨free, old, _, done⟩
    · rw [refused]
      refine ⟨⟨fun _ => blocked, fun _ => ⟨cause, s, rfl⟩⟩, fun _ _ eq => ?_⟩
      cases eq
      rfl
    · rw [done]
      exact ⟨⟨nofun, fun blocked => absurd blocked free⟩, nofun⟩
  · rcases s.touchHolder_cases tag with ⟨missing, refused⟩ | ⟨way, found, done⟩
    · rw [refused]
      refine ⟨⟨fun _ => missing, fun _ => ⟨_, s, rfl⟩⟩, fun _ _ eq => ?_⟩
      cases eq
      rfl
    · rw [done]
      refine ⟨⟨nofun, fun missing => ?_⟩, nofun⟩
      exact absurd (holds_of_find? found) (missing way)

end CacheSet

end StackedCache
