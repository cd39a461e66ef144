import StackedCache.Residency.CacheSet

/-!
# Coherent sets

In a coherent set no two ways hold the same tag, no way holds the number that stands for no tag, and
a way without a tag holds no blocks.  Lookups, fills and drops keep sets coherent, and a fill of a
way with a tag that is missing succeeds.

How the ways are ranked does not matter for any of this: `content` forgets it.
-/

namespace StackedCache

/-! ## Lists of ways -/

theorem sum_map_eq_zero {α : Type} {xs : List α} {f : α → Nat} (h : ∀ x ∈ xs, f x = 0) :
    (xs.map f).sum = 0 := by
  apply List.sum_eq_zero_iff_forall_eq_nat.2
  intro n hn
  rcases List.mem_map.1 hn with ⟨x, hx, rfl⟩
  exact h x hx

theorem sum_map_modify {α : Type} {xs : List α} {i : Nat} {x : α} (f : α → Nat) (g : α → α)
    (h : xs[i]? = some x) : ((xs.modify i g).map f).sum + f x = (xs.map f).sum + f (g x) := by
  -- The old summand stands on the left, so that no difference of naturals is needed.
  induction xs generalizing i with
  | nil => simp at h
  | cons y ys ih =>
      cases i with
      | zero =>
          simp only [List.getElem?_cons_zero, Option.some.injEq] at h
          subst h
          simp only [List.modify_zero_cons, List.map_cons, List.sum_cons]
          omega
      | succ i =>
          simp only [List.getElem?_cons_succ] at h
          have rest := ih h
          simp only [List.modify_succ_cons, List.map_cons, List.sum_cons]
          omega

theorem map_modify_of_comm {α β : Type} (xs : List α) (i : Nat) (f : α → β) (g : α → α) (g' : β → β)
    (h : ∀ x, f (g x) = g' (f x)) : (xs.modify i g).map f = (xs.map f).modify i g' := by
  refine List.ext_getElem? ?_
  intro j
  simp only [List.getElem?_map, List.getElem?_modify]
  cases xs[j]? with
  | none => rfl
  | some x =>
      by_cases hij : i = j
      · simp [hij, h]
      · simp [hij]

/-- An element of a modified list is the new one, or is as before. -/
theorem getElem?_modify_cases {α : Type} {xs : List α} {i j : Nat} {x y : α} {g : α → α}
    (h : xs[i]? = some x) (found : (xs.modify i g)[j]? = some y) :
    j = i ∧ y = g x ∨ j ≠ i ∧ xs[j]? = some y := by
  by_cases here : i = j
  · subst here
    rw [List.getElem?_modify_eq, h] at found
    exact .inl ⟨rfl, (Option.some.inj found).symm⟩
  · rw [List.getElem?_modify_ne _ _ here] at found
    exact .inr ⟨Ne.symm here, found⟩

/-- Tags are unique and proper, ways without a tag are empty, and a way of a single block has it. -/
structure Coherent (kind : SetKind) (lines : List Line) : Prop where
  nonempty : 0 < lines.length
  unique : ∀ (i j : Nat) (l l' : Line), lines[i]? = some l → lines[j]? = some l' →
    l.isValid = true → l.tag = l'.tag → i = j
  proper : ∀ l ∈ lines, l.tag ≠ some noTag
  vacant : ∀ l ∈ lines, l.isValid = false → l.valid = .empty ∧ l.dirty = .empty
  direct : kind = .directBlock → ∀ l ∈ lines, l.isValid = true → l.valid.contains 0 = true

namespace Coherent

variable {kind : SetKind} {lines : List Line} {way tag : Nat} {old : Line} {g : Line → Line}

/-- Empty ways are coherent. -/
theorem of_empty (nonempty : 0 < lines.length)
    (empty : ∀ l ∈ lines, l.tag = none ∧ l.valid = .empty ∧ l.dirty = .empty) :
    Coherent kind lines := by
  have invalid : ∀ l ∈ lines, l.isValid = false := by
    intro l hl
    simp [Line.isValid, (empty l hl).1]
  refine ⟨nonempty, ?_, ?_, fun l hl _ => (empty l hl).2, ?_⟩
  · intro i j l l' hi _ hvalid
    rw [invalid l (List.mem_of_getElem? hi)] at hvalid
    cases hvalid
  · intro l hl
    simp [(empty l hl).1]
  · intro _ l hl hvalid
    rw [invalid l hl] at hvalid
    cases hvalid

/-- A way may take a tag that no other way holds. -/
theorem modify (h : Coherent kind lines) (hold : lines[way]? = some old)
    (htag : (g old).tag = some tag) (proper : tag ≠ noTag)
    (only : ∀ (j : Nat) (l : Line), lines[j]? = some l → l.tag = some tag → j = way)
    (direct : kind = .directBlock → (g old).valid.contains 0 = true) :
    Coherent kind (lines.modify way g) := by
  -- Each way is the one that was given the tag, or is as before.
  have found : ∀ (j : Nat) (l : Line), (lines.modify way g)[j]? = some l →
      j = way ∧ l = g old ∨ j ≠ way ∧ lines[j]? = some l :=
    fun _ _ => getElem?_modify_cases hold
  have member : ∀ l ∈ lines.modify way g, l = g old ∨ l ∈ lines := by
    intro l hl
    rcases List.mem_iff_getElem?.1 hl with ⟨j, hj⟩
    rcases found j l hj with ⟨_, heq⟩ | ⟨_, hmem⟩
    · exact .inl heq
    · exact .inr (List.mem_of_getElem? hmem)
  refine ⟨by rw [List.length_modify]; exact h.nonempty, ?_, ?_, ?_, ?_⟩
  · intro i j l l' hi hj hvalid heq
    rcases found i l hi with ⟨iway, lnew⟩ | ⟨iother, hi⟩
    · rcases found j l' hj with ⟨jway, _⟩ | ⟨_, hj⟩
      · exact iway.trans jway.symm
      · have held : l'.tag = some tag := by rw [← heq, lnew, htag]
        exact iway.trans (only j l' hj held).symm
    · rcases found j l' hj with ⟨_, lnew⟩ | ⟨_, hj⟩
      · have held : l.tag = some tag := by rw [heq, lnew, htag]
        exact absurd (only i l hi held) iother
      · exact h.unique i j l l' hi hj hvalid heq
  · intro l hl
    rcases member l hl with rfl | hl
    · simpa [htag] using proper
    · exact h.proper l hl
  · intro l hl hvalid
    rcases member l hl with rfl | hl
    · simp [Line.isValid, htag] at hvalid
    · exact h.vacant l hl hvalid
  · intro hkind l hl hvalid
    rcases member l hl with rfl | hl
    · exact direct hkind
    · exact h.direct hkind l hl hvalid

end Coherent

namespace CacheSet

variable {s s' : CacheSet} {way tag block : Nat} {access : Access} {old : Line}

/-! ## Content -/

/-- The content of the ways, whatever their ranks. -/
def content (s : CacheSet) : List Line := s.lines.map Line.young

theorem young_touchBlock (access : Access) (block : Nat) (l : Line) :
    (l.touchBlock access block).young = l.young.touchBlock access block := by
  cases access <;> rfl

/-- Whether a line is dropped depends on its tag, which a rank does not hide. -/
theorem young_drop (l : Line) : l.drop.young = l.young.drop := by
  have same : l.young.isValid = l.isValid := rfl
  simp only [Line.drop, same]
  cases l.isValid <;> rfl

/-- The ways are coherent. -/
def Coherent (s : CacheSet) : Prop := StackedCache.Coherent s.kind s.content

theorem content_length (s : CacheSet) : s.content.length = s.ways := by
  simp [content, ways]

theorem content_touchWay (s : CacheSet) (way : Nat) : (s.touchWay way).content = s.content :=
  s.ranking.map_young_touch s.lines way

theorem content_modifyLine (s : CacheSet) (way : Nat) {f : Line → Line}
    (hf : ∀ l : Line, (f l).young = f l.young) :
    (s.modifyLine way f).content = s.content.modify way f :=
  map_modify_of_comm s.lines way Line.young f f hf

theorem Coherent.positive (h : s.Coherent) : 0 < s.ways := s.content_length ▸ h.nonempty

theorem ways_pos (kind : SetKind) (wanted : Nat) : 0 < kind.ways wanted := by
  unfold SetKind.ways
  split
  · exact Nat.le_max_right wanted 1
  · exact Nat.zero_lt_one

theorem ofKind_coherent (kind : SetKind) (ways : Nat) (ageing : Ageing) (placement : Location) :
    (ofKind kind ways ageing placement).Coherent := by
  refine .of_empty ?_ ?_
  · rw [content_length, CacheSet.ways, ofKind, List.length_replicate]
    exact ways_pos kind ways
  · intro l hl
    simp only [content, ofKind, List.map_replicate] at hl
    rw [List.eq_of_mem_replicate hl]
    exact ⟨rfl, rfl, rfl⟩

/-- The sets differ at most in their ranks and counts. -/
structure Alike (s s' : CacheSet) : Prop where
  kind : s'.kind = s.kind
  placement : s'.placement = s.placement
  lines : s'.lines = s.lines

theorem Alike.find? (h : s.Alike s') (tag : Nat) : s'.find? tag = s.find? tag := by
  rw [CacheSet.find?, h.lines, CacheSet.find?]

theorem Alike.content (h : s.Alike s') : s'.content = s.content := by
  rw [CacheSet.content, h.lines, CacheSet.content]

theorem Alike.coherent (h : s.Alike s') (coherent : s.Coherent) : s'.Coherent := by
  unfold CacheSet.Coherent
  rw [h.kind, h.content]
  exact coherent

/-! ## Lookups -/

theorem not_held_of_find? (h : s.find? tag = none) : ∀ l ∈ s.content, l.tag ≠ some tag := by
  intro l hl
  rcases List.mem_map.1 hl with ⟨k, hk, rfl⟩
  have other := List.findIdx?_eq_none_iff.1 h k hk
  simpa [Line.young] using other

theorem held_of_find? (h : s.find? tag = some way) :
    ∃ l, s.lines[way]? = some l ∧ l.tag = some tag := by
  rcases List.findIdx?_eq_some_iff_getElem.1 h with ⟨hlt, hp, _⟩
  exact ⟨s.lines[way], List.getElem?_eq_getElem hlt, by simpa using hp⟩

theorem getElem?_content {l : Line} (h : s.lines[way]? = some l) :
    s.content[way]? = some l.young := by
  simp [content, h]

/-- Looking a missing tag up changes no way. -/
theorem access_of_missing (h : s.find? tag = none) (access : Access) (block : Nat) :
    ∃ s₁, s.access access tag block = (.miss, s₁) ∧ s.Alike s₁ := by
  have missing : ({ s with reads := s.reads + 1 } : CacheSet).find? tag = none := h
  refine ⟨{ s with reads := s.reads + 1 }, ?_, rfl, rfl, rfl⟩
  simp only [CacheSet.access, missing]

/-- The outcome of an access to a tag that is held, and what it does to the way. -/
theorem access_of_held (h : s.find? tag = some way) (access : Access) (block : Nat) :
    ∃ old s', s.content[way]? = some old ∧ old.tag = some tag ∧
      s.access access tag block =
        (if old.valid.contains (s.blockOf block) then .hit else .blockMiss, s') ∧
      s'.kind = s.kind ∧ s'.placement = s.placement ∧
      s'.content = s.content.modify way (·.touchBlock access (s.blockOf block)) := by
  rcases held_of_find? h with ⟨l, hl, htag⟩
  have held : ({ s with reads := s.reads + 1 } : CacheSet).find? tag = some way := h
  -- Hits and misses of a block count differently and touch the way alike.
  have touched : ∀ s₁ : CacheSet, s₁.content = s.content →
      ((s₁.touchWay way).modifyLine way (·.touchBlock access (s.blockOf block))).content =
        s.content.modify way (·.touchBlock access (s.blockOf block)) := by
    intro s₁ same
    rw [content_modifyLine _ _ (young_touchBlock access _), content_touchWay, same]
  have asked : ({ s with reads := s.reads + 1 } : CacheSet).blockOf block = s.blockOf block := rfl
  have young : l.young.valid = l.valid := rfl
  refine ⟨l.young, (s.access access tag block).2, getElem?_content hl, htag, ?_⟩
  simp only [CacheSet.access, held, hl, Option.map_some, Option.getD_some, asked, young]
  cases l.valid.contains (s.blockOf block) with
  | false => exact ⟨rfl, rfl, rfl, touched { s with reads := s.reads + 1 } rfl⟩
  | true => exact ⟨rfl, rfl, rfl, touched { s with reads := s.reads + 1 } rfl⟩

/-! ## Fills -/

/-- The victim is one of the ways. -/
theorem chooseVictim_of_coherent (h : s.Coherent) :
    ∃ way s₁, s.chooseVictim = (way, s₁) ∧ way < s₁.ways ∧ s.Alike s₁ := by
  have := h.positive
  refine ⟨min (s.ranking.victim s.lines) (s.ways - 1), { s with reads := s.reads + 1 }, rfl, ?_,
    rfl, rfl, rfl⟩
  change _ < s.ways
  omega

theorem find?_modifyLine {f : Line → Line} (hway : way < s.ways) (missing : s.find? tag = none)
    (hf : ∀ l : Line, (f l).tag = some tag) : (s.modifyLine way f).find? tag = some way := by
  have absent := List.findIdx?_eq_none_iff.1 missing
  have hlt : way < (s.lines.modify way f).length := by rwa [List.length_modify]
  -- The lookup returns the first way, and no way before this one has the tag.
  refine List.findIdx?_eq_some_iff_getElem.2 ⟨hlt, ?_, fun j hj => ?_⟩
  · simp [modifyLine, hf]
  · have hjlt : j < s.lines.length := Nat.lt_trans hj hway
    have other := absent s.lines[j] (List.getElem_mem hjlt)
    have hne : way ≠ j := Nat.ne_of_gt hj
    simpa [modifyLine, List.getElem_modify, hne] using other

theorem not_heldElsewhere (missing : s.find? tag = none) : s.heldElsewhere way tag = false := by
  have absent := List.findIdx?_eq_none_iff.1 missing
  simp only [heldElsewhere, List.any_eq_false]
  rintro ⟨l, i⟩ hli
  have other := absent l (List.fst_mem_of_mem_zipIdx hli)
  simp [other]

/-- A way takes a missing tag and the predicted blocks. -/
theorem fill_of_missing (predicted : BlockSet) (trigger : Nat) (hway : way < s.ways)
    (htag : tag ≠ noTag) (missing : s.find? tag = none) :
    ∃ old s', s.content[way]? = some old ∧
      s.fill way tag predicted trigger = .ok (old.evicted, s') ∧
      s'.kind = s.kind ∧ s'.placement = s.placement ∧
      s'.content = s.content.modify way
        (·.fill tag (if s.kind.tracksBlocks then predicted else .empty) trigger) := by
  have found : s.lines[way]? = some s.lines[way] := List.getElem?_eq_getElem hway
  let written := s.replaceLine way tag predicted trigger
  have held : written.find? tag = some way := find?_modifyLine hway missing fun _ => rfl
  -- The way is looked up again by its new tag before it is touched.
  have touched : written.touchTag tag = .ok (written.touchWay way) := by
    simp only [touchTag_eq, held]
  refine ⟨s.lines[way].young, written.touchWay way, getElem?_content found, ?_, rfl, rfl, ?_⟩
  · simp only [fill_eq, found, htag, if_false, not_heldElsewhere missing, Bool.false_eq_true]
    exact congrArg (Except.map fun s' => (s.lines[way].evicted, s')) touched
  · exact (written.content_touchWay way).trans (s.content_modifyLine way fun _ => rfl)

/-- No way takes the number that stands for no tag. -/
theorem fill_noTag {predicted : BlockSet} {trigger : Nat} (hway : way < s.ways) :
    s.fill way noTag predicted trigger = .error (.lookupMiss noTag) := by
  have found : s.lines[way]? = some s.lines[way] := List.getElem?_eq_getElem hway
  simp only [fill_eq, found, if_true]

theorem markBlock_of_lt (access : Access) (hway : way < s.ways)
    (hblock : s.blockOf block < maxBlocks) :
    ∃ s', s.markBlock way access block = .ok s' ∧ s'.kind = s.kind ∧ s'.placement = s.placement ∧
      s'.content = s.content.modify way (·.touchBlock access (s.blockOf block)) := by
  refine ⟨s.modifyLine way (·.touchBlock access (s.blockOf block)), ?_, rfl, rfl, ?_⟩
  · simp only [markBlock, Nat.not_le.2 hblock, Nat.not_le.2 hway, if_false]
  · exact s.content_modifyLine way (young_touchBlock access _)

/-- A way takes a missing tag and then the block asked for. -/
theorem replace_of_missing (hway : way < s.ways) (proper : tag ≠ noTag)
    (missing : s.find? tag = none) (hblock : s.blockOf block < maxBlocks) (access : Access)
    (predicted : BlockSet) (trigger : Nat) :
    ∃ old s₁ s₂, s.content[way]? = some old ∧
      s.fill way tag predicted trigger = .ok (old.evicted, s₁) ∧
      s₁.markBlock way access block = .ok s₂ ∧
      s₂.kind = s.kind ∧ s₂.placement = s.placement ∧
      s₂.content = s.content.modify way fun l =>
        (l.fill tag (if s.kind.tracksBlocks then predicted else .empty) trigger).touchBlock access
          (s.blockOf block) := by
  rcases fill_of_missing predicted trigger hway proper missing with
    ⟨old, s₁, hold, filled, kind₁, placement₁, content₁⟩
  have ways₁ : s₁.ways = s.ways := by
    rw [← content_length, content₁, List.length_modify, content_length]
  have asked : s₁.blockOf block = s.blockOf block := by
    rw [blockOf, kind₁, blockOf]
  rcases markBlock_of_lt (s := s₁) access (ways₁ ▸ hway) (asked ▸ hblock) with
    ⟨s₂, marked, kind₂, placement₂, content₂⟩
  refine ⟨old, s₁, s₂, hold, filled, marked, kind₂.trans kind₁, placement₂.trans placement₁, ?_⟩
  -- Both updates are of the same way, hence one update.
  rw [content₂, content₁, asked, List.modify_modify_eq]
  rfl

/-! ## Drops -/

theorem content_drop (s : CacheSet) : s.drop.content = s.content.map Line.drop := by
  simp only [content, drop, List.map_map]
  exact List.map_congr_left fun l _ => young_drop l

/-- A set without content is coherent. -/
theorem Coherent.drop (h : s.Coherent) : s.drop.Coherent := by
  refine .of_empty ?_ ?_
  · rw [content_drop, List.length_map]
    exact h.nonempty
  · rw [content_drop]
    intro l hl
    rcases List.mem_map.1 hl with ⟨k, hk, rfl⟩
    unfold Line.drop
    cases hvalid : k.isValid with
    | true => exact ⟨rfl, rfl, rfl⟩
    | false => exact ⟨by simpa [Line.isValid] using hvalid, h.vacant k hk hvalid⟩

end CacheSet

end StackedCache
