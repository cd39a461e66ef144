import StackedCache.Proofs.Residency.Coherent

/-!
# What enters and leaves a set

Two states of a set are compared line by line, under the tags they hold: `dirtied` counts the blocks
that have become dirty, and `replaced` the blocks of the lines that are gone.  An access to a line
and the replacement of a line are an `Exchange`: the blocks loaded and written back account for all
changes of the blocks that are present or dirty.
-/

namespace StackedCache

/-- A sum to which one way contributes. -/
theorem sum_map_single {α : Type} {xs : List α} {i : Nat} {x : α} (f : α → Nat)
    (h : xs[i]? = some x) (others : ∀ (j : Nat) (y : α), j ≠ i → xs[j]? = some y → f y = 0) :
    (xs.map f).sum = f x := by
  induction xs generalizing i with
  | nil => simp at h
  | cons y ys ih =>
      cases i with
      | zero =>
          simp only [List.getElem?_cons_zero, Option.some.injEq] at h
          subst h
          have rest : (ys.map f).sum = 0 := by
            apply sum_map_eq_zero
            intro z hz
            rcases List.mem_iff_getElem?.1 hz with ⟨j, hj⟩
            exact others (j + 1) z (Nat.succ_ne_zero j) (by simpa using hj)
          rw [List.map_cons, List.sum_cons, rest, Nat.add_zero]
      | succ i =>
          have first : f y = 0 := others 0 y (Nat.succ_ne_zero i).symm (by simp)
          have rest := ih (by simpa using h) fun j z hj hz =>
            others (j + 1) z (fun heq => hj (Nat.succ.inj heq)) (by simpa using hz)
          rw [List.map_cons, List.sum_cons, first, rest, Nat.zero_add]

namespace Line

/-- The dirty blocks of a line that were not dirty before, under the same tag. -/
def newlyDirty (before : List Line) (l : Line) : Nat :=
  match before.find? fun old => old.tag == l.tag with
  | some old => l.dirty.countBeyond old.dirty
  | none => l.dirty.count

/-- The blocks of a line that are gone because no line holds its tag afterwards. -/
def lost (after : List Line) (l : Line) : Nat :=
  if after.any fun new => new.tag == l.tag then 0 else l.valid.count

theorem newlyDirty_young (before : List Line) (l : Line) :
    newlyDirty (before.map young) l.young = newlyDirty before l := by
  simp only [newlyDirty, List.find?_map]
  have same : ((fun old : Line => old.tag == l.young.tag) ∘ young) =
      fun old => old.tag == l.tag := rfl
  rw [same]
  cases before.find? fun old => old.tag == l.tag <;> rfl

theorem lost_young (after : List Line) (l : Line) :
    lost (after.map young) l.young = lost after l := by
  simp only [lost, List.any_map]
  rfl

end Line

/-! ## Lines -/

namespace Coherent

variable {kind : SetKind} {lines : List Line} {way tag : Nat} {old l : Line} {g : Line → Line}

/-- A line is the only one with its tag. -/
theorem find?_tag (h : Coherent kind lines) (hl : l ∈ lines) (hvalid : l.isValid = true) :
    (lines.find? fun old => old.tag == l.tag) = some l := by
  cases hf : lines.find? fun old => old.tag == l.tag with
  | none =>
      have absent := List.find?_eq_none.1 hf l hl
      simp at absent
  | some old =>
      have same : old.tag = l.tag := by simpa using List.find?_some hf
      rcases List.mem_iff_getElem?.1 hl with ⟨i, hi⟩
      rcases List.mem_iff_getElem?.1 (List.mem_of_find?_eq_some hf) with ⟨j, hj⟩
      have index := h.unique i j l old hi hj hvalid same.symm
      rw [index, hj] at hi
      exact hi

/-- A line that stays has no newly dirty blocks. -/
theorem newlyDirty_self (h : Coherent kind lines) (hl : l ∈ lines) : l.newlyDirty lines = 0 := by
  cases hvalid : l.isValid with
  | true =>
      simp only [Line.newlyDirty, h.find?_tag hl hvalid, BlockSet.countBeyond_self]
  | false =>
      have clean := (h.vacant l hl hvalid).2
      unfold Line.newlyDirty
      split <;> rw [clean]
      · simp [BlockSet.countBeyond, BlockSet.empty]
      · exact BlockSet.count_empty

/-- A line that is still there is not lost. -/
theorem lost_of_mem {after : List Line} (hl : l ∈ after) : l.lost after = 0 := by
  have found : (after.any fun new => new.tag == l.tag) = true := List.any_eq_true.2 ⟨l, hl, by simp⟩
  rw [Line.lost, if_pos found]

/-- A tag that no other way holds is found in that way, if anywhere. -/
theorem find?_only (only : ∀ (j : Nat) (l : Line), lines[j]? = some l → l.tag = some tag → j = way)
    (hold : lines[way]? = some old) :
    (lines.find? fun l => l.tag == some tag) = if old.tag = some tag then some old else none := by
  by_cases held : old.tag = some tag
  · rw [if_pos held]
    cases hf : lines.find? fun l => l.tag == some tag with
    | none => simpa [held] using List.find?_eq_none.1 hf old (List.mem_of_getElem? hold)
    | some l =>
        rcases List.mem_iff_getElem?.1 (List.mem_of_find?_eq_some hf) with ⟨j, hj⟩
        have index := only j l hj (by simpa using List.find?_some hf)
        rw [index, hold] at hj
        exact hj.symm
  · rw [if_neg held, List.find?_eq_none]
    intro l hl holds
    rcases List.mem_iff_getElem?.1 hl with ⟨j, hj⟩
    have index := only j l hj (by simpa using holds)
    rw [index, hold] at hj
    cases hj
    exact held (by simpa using holds)

/-- If a way takes a tag that no other holds, only it has newly dirty blocks. -/
theorem sum_newlyDirty_modify (h : Coherent kind lines) (hold : lines[way]? = some old)
    (htag : (g old).tag = some tag)
    (only : ∀ (j : Nat) (l : Line), lines[j]? = some l → l.tag = some tag → j = way) :
    ((lines.modify way g).map (Line.newlyDirty lines)).sum =
      if old.tag = some tag then (g old).dirty.countBeyond old.dirty else (g old).dirty.count := by
  have changed : (lines.modify way g)[way]? = some (g old) := by
    rw [List.getElem?_modify_eq, hold]
    rfl
  rw [sum_map_single (Line.newlyDirty lines) changed, Line.newlyDirty, htag, find?_only only hold]
  · by_cases held : old.tag = some tag
    · simp only [held, if_true]
    · simp only [held, if_false]
  · intro j l hj hl
    rw [List.getElem?_modify_ne _ _ (Ne.symm hj)] at hl
    exact h.newlyDirty_self (List.mem_of_getElem? hl)

/-- If a way takes a tag, only its old content can be lost. -/
theorem sum_lost_modify (h : Coherent kind lines) (hold : lines[way]? = some old)
    (htag : (g old).tag = some tag) :
    (lines.map (Line.lost (lines.modify way g))).sum =
      if old.tag = some tag then 0 else old.valid.count := by
  have changed : (lines.modify way g)[way]? = some (g old) := by
    rw [List.getElem?_modify_eq, hold]
    rfl
  rw [sum_map_single (Line.lost (lines.modify way g)) hold]
  · by_cases held : old.tag = some tag
    · have found : ((lines.modify way g).any fun new => new.tag == old.tag) = true :=
        List.any_eq_true.2 ⟨g old, List.mem_of_getElem? changed, by simp [htag, held]⟩
      rw [Line.lost, if_pos found, if_pos held]
    · rw [if_neg held, Line.lost]
      split
      -- Its tag is still found only if it has none, and then it has no blocks to lose.
      · rename_i found
        rcases List.any_eq_true.1 found with ⟨new, hnew, same⟩
        rcases List.mem_iff_getElem?.1 hnew with ⟨j, hj⟩
        have htags : new.tag = old.tag := by simpa using same
        rcases getElem?_modify_cases hold hj with ⟨_, rfl⟩ | ⟨index, hj⟩
        · exact absurd (htags.symm.trans htag) held
        · cases hvalid : old.isValid with
          | true => exact absurd (h.unique way j old new hold hj hvalid htags.symm).symm index
          | false => rw [(h.vacant old (List.mem_of_getElem? hold) hvalid).1, BlockSet.count_empty]
      · rfl
  · intro j l hj hl
    refine lost_of_mem (List.mem_of_getElem? (i := j) ?_)
    rwa [List.getElem?_modify_ne _ _ (Ne.symm hj)]

end Coherent

/-! ## Sets -/

namespace CacheSet

variable {s s' : CacheSet} {way tag block : Nat} {access : Access} {old : Line}

/-- The blocks that have become dirty from `before` to `after`. -/
def dirtied (before after : CacheSet) : Nat :=
  (after.lines.map (Line.newlyDirty before.lines)).sum

/-- The blocks that were present in lines that are gone. -/
def replaced (before after : CacheSet) : Nat :=
  (before.lines.map (Line.lost after.lines)).sum

theorem dirtied_eq (before after : CacheSet) :
    before.dirtied after = (after.content.map (Line.newlyDirty before.content)).sum := by
  simp only [dirtied, content, List.map_map]
  refine congrArg List.sum (List.map_congr_left fun l _ => ?_)
  exact (Line.newlyDirty_young before.lines l).symm

theorem replaced_eq (before after : CacheSet) :
    before.replaced after = (before.content.map (Line.lost after.content)).sum := by
  simp only [replaced, content, List.map_map]
  refine congrArg List.sum (List.map_congr_left fun l _ => ?_)
  exact (Line.lost_young after.lines l).symm

theorem dirtyBlocks_eq (s : CacheSet) :
    s.dirtyBlocks = (s.content.map fun l => l.dirty.count).sum := by
  simp only [dirtyBlocks, content, List.map_map]
  rfl

/-- Ways without a tag have no blocks, so they need not be left out. -/
theorem Coherent.validBlocks_eq (h : s.Coherent) :
    s.validBlocks = (s.content.map fun l => l.valid.count).sum := by
  have vacant : ∀ l ∈ s.lines, l.isValid = false → l.valid.count = 0 := by
    intro l hl hvalid
    have empty := (h.vacant l.young (List.mem_map_of_mem hl) hvalid).1
    have same : l.valid = .empty := empty
    rw [same, BlockSet.count_empty]
  have sums : ∀ lines : List Line, (∀ l ∈ lines, l.isValid = false → l.valid.count = 0) →
      ((lines.filter Line.isValid).map fun l => l.valid.count).sum =
        (lines.map fun l => l.valid.count).sum := by
    intro lines hlines
    induction lines with
    | nil => rfl
    | cons l lines ih =>
        have rest := ih fun k hk => hlines k (List.mem_cons_of_mem _ hk)
        cases hvalid : l.isValid with
        | true => simp [hvalid, rest]
        | false => simp [hvalid, rest, hlines l List.mem_cons_self hvalid]
  rw [validBlocks, sums s.lines vacant]
  simp only [content, List.map_map]
  rfl

/-- What the exchange of some blocks changes: those loaded and those written back. -/
structure Exchange (access : Access) (before after : CacheSet) (loaded writeback : Nat) : Prop where
  coherent : after.Coherent
  kind : after.kind = before.kind
  placement : after.placement = before.placement
  dirty : writeback + after.dirtyBlocks = before.dirtyBlocks + before.dirtied after
  reads : access = .read → before.dirtied after = 0
  valid : after.validBlocks + before.replaced after = before.validBlocks + loaded

/-- Ranks and counts have no part in an exchange. -/
theorem Exchange.of_alike {s₁ : CacheSet} {loaded writeback : Nat} (alike : s.Alike s₁)
    (h : Exchange access s₁ s' loaded writeback) : Exchange access s s' loaded writeback := by
  have dirtied : s₁.dirtied s' = s.dirtied s' := by
    rw [CacheSet.dirtied, alike.lines, CacheSet.dirtied]
  have dirtyBlocks : s₁.dirtyBlocks = s.dirtyBlocks := by
    rw [CacheSet.dirtyBlocks, alike.lines, CacheSet.dirtyBlocks]
  have replaced : s₁.replaced s' = s.replaced s' := by
    rw [CacheSet.replaced, alike.lines, CacheSet.replaced]
  have validBlocks : s₁.validBlocks = s.validBlocks := by
    rw [CacheSet.validBlocks, alike.lines, CacheSet.validBlocks]
  exact ⟨h.coherent, h.kind.trans alike.kind, h.placement.trans alike.placement,
    dirtied ▸ dirtyBlocks ▸ h.dirty, dirtied ▸ h.reads, replaced ▸ validBlocks ▸ h.valid⟩

theorem Coherent.dirtied_self (h : s.Coherent) (content : s'.content = s.content) :
    s.dirtied s' = 0 := by
  rw [dirtied_eq, content]
  exact sum_map_eq_zero fun l hl => h.newlyDirty_self hl

theorem replaced_self (content : s'.content = s.content) : s.replaced s' = 0 := by
  rw [replaced_eq, content]
  exact sum_map_eq_zero fun l hl => Coherent.lost_of_mem hl

namespace Coherent

/-- Nothing is exchanged if the content stays. -/
theorem exchange_alike (h : s.Coherent) (alike : s.Alike s') (access : Access) :
    Exchange access s s' 0 0 := by
  have content := alike.content
  have coherent := alike.coherent h
  refine ⟨coherent, alike.kind, alike.placement, ?_, fun _ => h.dirtied_self content, ?_⟩
  · rw [h.dirtied_self content, dirtyBlocks_eq, dirtyBlocks_eq, content]
    omega
  · rw [replaced_self content, coherent.validBlocks_eq, h.validBlocks_eq, content]

/-- A way takes a tag that no other holds. -/
theorem exchange_modify {g : Line → Line} {loaded writeback : Nat} (h : s.Coherent)
    (kind : s'.kind = s.kind) (placement : s'.placement = s.placement)
    (content : s'.content = s.content.modify way g) (hold : s.content[way]? = some old)
    (htag : (g old).tag = some tag) (proper : tag ≠ noTag)
    (only : ∀ (j : Nat) (l : Line), s.content[j]? = some l → l.tag = some tag → j = way)
    (direct : s.kind = .directBlock → (g old).valid.contains 0 = true)
    (dirty : writeback + (g old).dirty.count = old.dirty.count +
      if old.tag = some tag then (g old).dirty.countBeyond old.dirty else (g old).dirty.count)
    (reads : access = .read →
      (if old.tag = some tag then (g old).dirty.countBeyond old.dirty else (g old).dirty.count) = 0)
    (valid : (g old).valid.count + (if old.tag = some tag then 0 else old.valid.count) =
      old.valid.count + loaded) : Exchange access s s' loaded writeback := by
  have coherent : s'.Coherent := by
    unfold CacheSet.Coherent
    rw [kind, content]
    exact StackedCache.Coherent.modify h hold htag proper only direct
  have dirtied := StackedCache.Coherent.sum_newlyDirty_modify h hold htag only
  have replaced := StackedCache.Coherent.sum_lost_modify h hold htag
  rw [← content, ← dirtied_eq] at dirtied
  rw [← content, ← replaced_eq] at replaced
  -- One summand of each total changes; the rest is arithmetic over the hypotheses.
  have dirtySum := sum_map_modify (g := g) (fun l : Line => l.dirty.count) hold
  have validSum := sum_map_modify (g := g) (fun l : Line => l.valid.count) hold
  rw [← content] at dirtySum validSum
  refine ⟨coherent, kind, placement, ?_, fun hread => ?_, ?_⟩
  · rw [dirtyBlocks_eq, dirtyBlocks_eq, dirtied]
    omega
  · rw [dirtied]
    exact reads hread
  · rw [coherent.validBlocks_eq, h.validBlocks_eq, replaced]
    omega

/-- An access to a line loads the block if it was missing. -/
theorem exchange_touch (h : s.Coherent) (kind : s'.kind = s.kind)
    (placement : s'.placement = s.placement)
    (content : s'.content = s.content.modify way (·.touchBlock access block))
    (hold : s.content[way]? = some old) (htag : old.tag = some tag) :
    Exchange access s s' (if old.valid.contains block then 0 else 1) 0 := by
  have member := List.mem_of_getElem? hold
  have holds : old.isValid = true := by simp [Line.isValid, htag]
  -- The tag stays where it is, so its uniqueness carries over.
  have only : ∀ (j : Nat) (l : Line), s.content[j]? = some l → l.tag = some tag → j = way :=
    fun j l hl hltag => (h.unique way j old l hold hl holds (htag.trans hltag.symm)).symm
  have proper : tag ≠ noTag := fun heq => h.proper old member (heq ▸ htag)
  have tag_same : (old.touchBlock access block).tag = some tag := by
    cases access <;> exact htag
  have valid_new : (old.touchBlock access block).valid = old.valid.insert block := by
    cases access <;> rfl
  refine h.exchange_modify kind placement content hold tag_same proper only ?_ ?_ ?_ ?_
  -- In a direct-mapped set the only block is there before and after.
  · intro hkind
    rw [valid_new, BlockSet.contains_insert, h.direct hkind old member holds, Bool.true_or]
  · rw [if_pos htag]
    cases access with
    | read =>
        have same : (old.touchBlock .read block).dirty = old.dirty := rfl
        rw [same, BlockSet.countBeyond_self, Nat.zero_add, Nat.add_zero]
    | write =>
        have grown : (old.touchBlock .write block).dirty = old.dirty.insert block := rfl
        have := old.dirty.countBeyond_insert block
        rw [grown]
        omega
  · intro hread
    rw [if_pos htag, hread]
    exact BlockSet.countBeyond_self _
  · rw [if_pos htag, valid_new, BlockSet.count_insert, Nat.add_zero]

/-- A fill for an access loads the predicted blocks and the one accessed, and writes back what was
dirty in the way. -/
theorem exchange_fill {predicted : BlockSet} {trigger : Nat} (h : s.Coherent)
    (kind : s'.kind = s.kind) (placement : s'.placement = s.placement)
    (content : s'.content = s.content.modify way fun l =>
      (l.fill tag predicted trigger).touchBlock access block)
    (hold : s.content[way]? = some old) (proper : tag ≠ noTag) (missing : s.find? tag = none)
    (direct : s.kind = .directBlock → block = 0) :
    Exchange access s s' (predicted.insert block).count old.dirty.count := by
  have absent := not_held_of_find? missing
  -- As the tag is missing, the victim held another one, and all its blocks leave.
  have other : old.tag ≠ some tag := absent old (List.mem_of_getElem? hold)
  have only : ∀ (j : Nat) (l : Line), s.content[j]? = some l → l.tag = some tag → j = way :=
    fun j l hl hltag => absurd hltag (absent l (List.mem_of_getElem? hl))
  let new := (old.fill tag predicted trigger).touchBlock access block
  have tag_new : new.tag = some tag := by cases access <;> rfl
  have valid_new : new.valid = predicted.insert block := by cases access <;> rfl
  refine h.exchange_modify kind placement content hold tag_new proper only ?_ ?_ ?_ ?_
  · intro hkind
    change new.valid.contains 0 = true
    rw [valid_new, BlockSet.contains_insert, direct hkind]
    simp
  · rw [if_neg other]
  · intro hread
    subst hread
    rw [if_neg other]
    exact BlockSet.count_empty
  · change new.valid.count + _ = _
    rw [if_neg other, valid_new, Nat.add_comm]

/-- A way takes a missing tag and then the block asked for. -/
theorem exchange_replace (h : s.Coherent) (hway : way < s.ways) (missing : s.find? tag = none)
    (proper : tag ≠ noTag) (hblock : s.blockOf block < maxBlocks) (access : Access)
    (predicted : BlockSet) (trigger : Nat) :
    ∃ evicted s₁ s₂,
      s.fill way tag predicted trigger = .ok (evicted, s₁) ∧
      s₁.markBlock way access block = .ok s₂ ∧
      Exchange access s s₂
        ((if s.kind.tracksBlocks then predicted else .empty).insert (s.blockOf block)).count
        evicted.dirtyBlocks := by
  rcases replace_of_missing hway proper missing hblock access predicted trigger with
    ⟨old, s₁, s₂, hold, filled, marked, kind, placement, content⟩
  have direct : s.kind = .directBlock → s.blockOf block = 0 := by
    intro hkind
    simp [blockOf, hkind, SetKind.tracksBlocks]
  exact ⟨old.evicted, s₁, s₂, filled, marked,
    h.exchange_fill kind placement content hold proper missing direct⟩

end Coherent

/-! ## Dropped sets -/

theorem Coherent.droppedDirty_eq (h : s.Coherent) : s.droppedDirty = s.dirtyBlocks := by
  have clean : ∀ l ∈ s.lines, l.droppedDirty = l.dirty.count := by
    intro l hl
    unfold Line.droppedDirty
    cases hvalid : l.isValid with
    | true => rfl
    | false =>
        have empty := (h.vacant l.young (List.mem_map_of_mem hl) hvalid).2
        have same : l.dirty = .empty := empty
        rw [same, BlockSet.count_empty]
        rfl
  exact congrArg List.sum (List.map_congr_left clean)

theorem Coherent.drop_clean (h : s.Coherent) : s.drop.dirtyBlocks = 0 ∧ s.drop.validBlocks = 0 := by
  have empty : ∀ l ∈ s.drop.content, l.dirty.count = 0 ∧ l.valid.count = 0 := by
    rw [content_drop]
    intro l hl
    rcases List.mem_map.1 hl with ⟨k, hk, rfl⟩
    unfold Line.drop
    cases hvalid : k.isValid with
    | true => exact ⟨BlockSet.count_empty, BlockSet.count_empty⟩
    | false =>
        have vacant := h.vacant k hk hvalid
        simp [vacant.1, vacant.2, BlockSet.count_empty]
  rw [dirtyBlocks_eq, h.drop.validBlocks_eq]
  exact ⟨sum_map_eq_zero fun l hl => (empty l hl).1, sum_map_eq_zero fun l hl => (empty l hl).2⟩

end CacheSet

end StackedCache
