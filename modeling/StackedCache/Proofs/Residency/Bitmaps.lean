import StackedCache.Proofs.Residency.Footprint
import StackedCache.Proofs.Residency.Tags

/-!
# Bitmaps of lines under any operations

Whatever operations reach a set, the dirty blocks of a line are among those used since its fill, the
used ones are present, and the line is modified exactly if a block is dirty.

A way without a tag should record no blocks at all.  Fills, lookups and drops see to that, but a
block can also be marked on a way that holds no tag.  Then it counts as dirty and goes with the next
fill, although it belongs to no page.  `actAll_bitmaps` says that these marks are the only cause,
and what becomes of block numbers beyond the last one.
-/

namespace StackedCache

namespace BlockSet

variable {s t : BlockSet} {block : Nat}

/-- Block numbers beyond the last one wrap around. -/
theorem insert_mod (s : BlockSet) (block : Nat) :
    s.insert (block % maxBlocks) = s.insert block := by
  simp only [insert, single, Nat.mod_mod]

theorem contains_mod (s : BlockSet) (block : Nat) :
    s.contains (block % maxBlocks) = s.contains block := by
  simp only [contains, Nat.mod_mod]

theorem mem_blocks_insert {n : Nat} :
    n ∈ (s.insert block).blocks ↔ n ∈ s.blocks ∨ n = block % maxBlocks := by
  have bound : block % maxBlocks < maxBlocks := Nat.mod_lt _ (by decide)
  rw [← insert_mod, blocks_insert bound, Finset.mem_insert, or_comm]

/-- The same block is added to both. -/
theorem blocks_insert_subset (h : s.blocks ⊆ t.blocks) (block : Nat) :
    (s.insert block).blocks ⊆ (t.insert block).blocks := by
  intro n hn
  rw [mem_blocks_insert] at hn ⊢
  exact hn.imp_left fun member => h member

theorem blocks_subset_insert (s : BlockSet) (block : Nat) : s.blocks ⊆ (s.insert block).blocks :=
  fun _ hn => mem_blocks_insert.2 (.inl hn)

theorem mem_blocks_mod : block % maxBlocks ∈ s.blocks ↔ s.contains block = true := by
  rw [mem_blocks, contains_mod]
  exact and_iff_right (Nat.mod_lt _ (by decide))

theorem insert_ne_empty (s : BlockSet) (block : Nat) : s.insert block ≠ .empty := by
  intro eq
  have member : block % maxBlocks ∈ (s.insert block).blocks := mem_blocks_insert.2 (.inr rfl)
  rw [eq, blocks_empty] at member
  exact absurd member (Finset.notMem_empty _)

/-- An insertion is seen, unless the block was there. -/
theorem insert_eq_self_iff : s.insert block = s ↔ s.contains block = true := by
  constructor
  · intro eq
    rw [← eq, contains_insert]
    simp
  · intro present
    have same : ∀ i, (s.insert block).mask.getLsbD i = s.mask.getLsbD i := by
      intro i
      by_cases hi : i < maxBlocks
      · rw [getLsbD_insert s block hi]
        by_cases here : i = block % maxBlocks
        · subst here
          have bit : s.mask.getLsbD (block % maxBlocks) = true := present
          simp [bit]
        · simp [here]
      · have wide : 64 ≤ i := Nat.not_lt.1 hi
        rw [BitVec.getLsbD_of_ge _ _ wide, BitVec.getLsbD_of_ge _ _ wide]
    have masks : (s.insert block).mask = s.mask := BitVec.eq_of_getLsbD_eq fun i _ => same i
    cases s
    exact congrArg BlockSet.mk masks

end BlockSet

/-! ## Lines -/

namespace Line

variable {l : Line}

/-- The dirty blocks were used, the used ones are present, and the state tells whether one is
dirty. -/
structure Consistent (l : Line) : Prop where
  used : l.dirty.blocks ⊆ l.footprint.blocks
  present : l.footprint.blocks ⊆ l.valid.blocks
  modified : l.state = .modified ↔ l.dirty.blocks.Nonempty

/-- No block is recorded in the line. -/
structure Blank (l : Line) : Prop where
  valid : l.valid = .empty
  dirty : l.dirty = .empty
  footprint : l.footprint = .empty

theorem Blank.consistent (h : l.Blank) (clean : l.state ≠ .modified) : l.Consistent := by
  refine ⟨?_, ?_, ?_⟩
  · rw [h.dirty, h.footprint]
  · rw [h.footprint, h.valid]
  · rw [h.dirty, BlockSet.blocks_empty]
    exact ⟨fun modified => absurd modified clean, fun some => absurd some Finset.not_nonempty_empty⟩

theorem fill_consistent (l : Line) (tag : Nat) (predicted : BlockSet) (trigger : Nat) :
    (l.fill tag predicted trigger).Consistent := by
  refine ⟨?_, ?_, ?_⟩
  · exact Finset.Subset.refl _
  · simp only [fill, BlockSet.blocks_empty]
    exact Finset.empty_subset _
  · simp [fill, BlockSet.blocks_empty]

/-- A block that is accessed is entered wherever it has to be. -/
theorem Consistent.touchBlock (h : l.Consistent) (access : Access) (block : Nat) :
    (l.touchBlock access block).Consistent := by
  have present := BlockSet.blocks_insert_subset h.present block
  cases access with
  | read =>
      refine ⟨?_, present, h.modified⟩
      exact h.used.trans (l.footprint.blocks_subset_insert block)
  | write =>
      refine ⟨BlockSet.blocks_insert_subset h.used block, present, ?_⟩
      have dirtied : (l.dirty.insert block).blocks.Nonempty :=
        ⟨block % maxBlocks, BlockSet.mem_blocks_insert.2 (.inr rfl)⟩
      exact ⟨fun _ => dirtied, fun _ => rfl⟩

theorem Consistent.drop (h : l.Consistent) : l.drop.Consistent := by
  unfold Line.drop
  split
  · exact Blank.consistent ⟨rfl, rfl, rfl⟩ nofun
  · exact h

/-- A line that has been dropped is blank, unless it recorded blocks without a tag. -/
theorem Blank.drop (h : l.tag = none → l.Blank) : l.drop.Blank := by
  unfold Line.drop
  split
  · exact ⟨rfl, rfl, rfl⟩
  · rename_i untagged
    exact h (by simpa [isValid] using untagged)

theorem not_blank_touchBlock (l : Line) (access : Access) (block : Nat) :
    ¬(l.touchBlock access block).Blank := by
  intro blank
  have valid : l.valid.insert block = .empty := by
    have := blank.valid
    cases access <;> exact this
  exact absurd valid (BlockSet.insert_ne_empty l.valid block)

/-- What a blank line gives up when it is filled. -/
theorem Blank.evicted (h : l.Blank) (untagged : l.tag = none) :
    l.evicted = ⟨none, .empty, l.trigger, 0, 0⟩ := by
  rw [Line.evicted, untagged, h.footprint, h.dirty, h.valid, BlockSet.count_empty]

theorem touchBlock_mod (l : Line) (access : Access) (block : Nat) :
    l.touchBlock access (block % maxBlocks) = l.touchBlock access block := by
  cases access <;> simp only [touchBlock, BlockSet.insert_mod]

/-- The blocks present, dirty and used. -/
def bitmaps (l : Line) : BlockSet × BlockSet × BlockSet := (l.valid, l.dirty, l.footprint)

/-- An access leaves no trace in the bitmaps if there has been one like it. -/
theorem Consistent.bitmaps_touchBlock_iff (h : l.Consistent) (access : Access) (block : Nat) :
    (l.touchBlock access block).bitmaps = l.bitmaps ↔
      l.footprint.contains block = true ∧ (access = .write → l.dirty.contains block = true) := by
  have present : l.footprint.contains block = true → l.valid.contains block = true := by
    rw [← BlockSet.mem_blocks_mod, ← BlockSet.mem_blocks_mod]
    exact fun member => h.present member
  cases access with
  | read =>
      have touched : (l.touchBlock .read block).bitmaps =
          (l.valid.insert block, l.dirty, l.footprint.insert block) := rfl
      rw [touched]
      simp only [bitmaps, Prod.mk.injEq, BlockSet.insert_eq_self_iff]
      exact ⟨fun same => ⟨same.2.2, nofun⟩, fun used => ⟨present used.1, trivial, used.1⟩⟩
  | write =>
      have touched : (l.touchBlock .write block).bitmaps =
          (l.valid.insert block, l.dirty.insert block, l.footprint.insert block) := rfl
      rw [touched]
      simp only [bitmaps, Prod.mk.injEq, BlockSet.insert_eq_self_iff]
      exact ⟨fun same => ⟨same.2.2, fun _ => same.2.1⟩,
        fun used => ⟨present used.1, used.2 trivial, used.1⟩⟩

theorem consistent_young : l.young.Consistent ↔ l.Consistent :=
  ⟨fun h => ⟨h.used, h.present, h.modified⟩, fun h => ⟨h.used, h.present, h.modified⟩⟩

theorem blank_young : l.young.Blank ↔ l.Blank :=
  ⟨fun h => ⟨h.valid, h.dirty, h.footprint⟩, fun h => ⟨h.valid, h.dirty, h.footprint⟩⟩

end Line

namespace CacheSet

variable {s : CacheSet} {lines : List Line}

/-! ## Actions -/

/-- Whatever is done with a set: an operation, or a reset of its counts. -/
inductive Action where
  | perform (op : Operation)
  | resetCounts

def act (s : CacheSet) : Action → CacheSet
  | .perform op => s.perform op
  | .resetCounts => s.resetCounts

/-- Does everything in order. -/
def actAll (s : CacheSet) (actions : List Action) : CacheSet := actions.foldl act s

/-! ## What an operation does to the lines -/

/-- What becomes of the content of a set. -/
inductive Effect (s : CacheSet) : Operation → List Line → Prop where
  | missed {access : Access} {tag block : Nat} (missing : s.find? tag = none) :
      Effect s (.lookup access tag block) s.content
  | found {access : Access} {tag block way : Nat} (found : s.find? tag = some way) :
      Effect s (.lookup access tag block)
        (s.content.modify way (·.touchBlock access (s.blockOf block)))
  | chosen : Effect s .chooseVictim s.content
  | blocked {way tag : Nat} {predicted : BlockSet} {trigger : Nat} (blocked : s.Blocked way tag) :
      Effect s (.fill way tag predicted trigger) s.content
  | filled {way tag : Nat} {predicted : BlockSet} {trigger : Nat} (free : ¬s.Blocked way tag) :
      Effect s (.fill way tag predicted trigger)
        (s.content.modify way
          (·.fill tag (if s.kind.tracksBlocks then predicted else .empty) trigger))
  | unmarked {way block : Nat} {access : Access}
      (refused : ¬(s.blockOf block < maxBlocks ∧ way < s.ways)) :
      Effect s (.markBlock way access block) s.content
  | marked {way block : Nat} {access : Access} (within : s.blockOf block < maxBlocks)
      (exists_ : way < s.ways) :
      Effect s (.markBlock way access block)
        (s.content.modify way (·.touchBlock access (s.blockOf block)))
  | touched {tag : Nat} : Effect s (.touch tag) s.content
  | dropped {way : Nat} : Effect s (.dropWay way) (s.content.modify way Line.drop)
  | emptied : Effect s .drop (s.content.map Line.drop)

theorem effect_perform (s : CacheSet) (op : Operation) : Effect s op (s.perform op).content := by
  cases op with
  | lookup access tag block =>
      cases found : s.find? tag with
      | none =>
          rcases access_of_missing found access block with ⟨s₁, done, alike⟩
          have same : (s.perform (.lookup access tag block)).content = s.content := by
            simp only [perform, done]
            exact alike.content
          exact same ▸ .missed found
      | some way =>
          rcases access_of_held found access block with ⟨_, s', _, _, done, _, _, content⟩
          have changed : (s.perform (.lookup access tag block)).content =
              s.content.modify way (·.touchBlock access (s.blockOf block)) := by
            simp only [perform, done]
            exact content
          exact changed ▸ .found found
  | chooseVictim => exact .chosen
  | fill way tag predicted trigger =>
      simp only [perform]
      rcases s.fillWay_cases way tag predicted trigger with
        ⟨blocked, cause, refused⟩ | ⟨free, old, _, done⟩
      · rw [refused]
        exact .blocked blocked
      · rw [done, final, content_touchWay]
        have filled := s.content_modifyLine way (f := (·.fill tag
          (if s.kind.tracksBlocks then predicted else .empty) trigger)) fun _ => rfl
        have content : (s.replaceLine way tag predicted trigger).content =
            s.content.modify way
              (·.fill tag (if s.kind.tracksBlocks then predicted else .empty) trigger) := filled
        exact content ▸ .filled free
  | markBlock way access block =>
      by_cases accepted : s.blockOf block < maxBlocks ∧ way < s.ways
      · have marked : s.perform (.markBlock way access block) =
            s.modifyLine way (·.touchBlock access (s.blockOf block)) := by
          simp only [perform, CacheSet.markBlock, Nat.not_le.2 accepted.1, Nat.not_le.2 accepted.2,
            if_false]
        rw [marked, content_modifyLine _ _ (young_touchBlock access _)]
        exact .marked accepted.1 accepted.2
      · have refused : s.perform (.markBlock way access block) = s := by
          simp only [perform, CacheSet.markBlock]
          by_cases beyond : maxBlocks ≤ s.blockOf block
          · simp only [if_pos beyond]
          · have missing : s.ways ≤ way :=
              Nat.not_lt.1 fun exists_ => accepted ⟨Nat.not_le.1 beyond, exists_⟩
            simp only [if_neg beyond, if_pos missing]
        rw [refused]
        exact .unmarked accepted
  | touch tag =>
      simp only [perform]
      rcases s.touchHolder_cases tag with ⟨_, refused⟩ | ⟨way, _, done⟩
      · rw [refused]
        exact .touched
      · rw [done, final, content_touchWay]
        exact .touched
  | dropWay way =>
      rw [perform_dropWay, content_modifyLine _ _ young_drop]
      exact .dropped
  | drop =>
      simp only [perform, content_drop]
      exact .emptied

/-! ## Ways without a tag -/

/-- Blocks are recorded under tags only. -/
def Tidy (s : CacheSet) : Prop := ∀ l ∈ s.lines, l.tag = none → l.Blank

/-- A block is marked on a way that holds no tag. -/
def Strays (s : CacheSet) : Action → Prop
  | .perform (.markBlock way _ block) =>
      s.blockOf block < maxBlocks ∧ ∃ l, s.lines[way]? = some l ∧ l.tag = none
  | _ => False

/-- Ranks do not matter to this. -/
theorem tidy_iff : s.Tidy ↔ ∀ l ∈ s.content, l.tag = none → l.Blank := by
  simp only [Tidy, content, List.forall_mem_map, Line.blank_young]
  rfl

theorem getElem?_content_cases {way : Nat} {l : Line} (h : s.content[way]? = some l) :
    ∃ ranked, s.lines[way]? = some ranked ∧ l = ranked.young := by
  rw [content, List.getElem?_map, Option.map_eq_some_iff] at h
  rcases h with ⟨ranked, found, rfl⟩
  exact ⟨ranked, found, rfl⟩

/-- A change of a way need only be looked at where that way is. -/
theorem forall_mem_modify {p : Line → Prop} {way : Nat} {g : Line → Line}
    (others : ∀ l ∈ lines, p l) (changed : ∀ l, lines[way]? = some l → p (g l)) :
    ∀ l ∈ lines.modify way g, p l := by
  intro l hl
  rcases List.mem_iff_getElem?.1 hl with ⟨i, hi⟩
  by_cases here : way = i
  · subst here
    rw [List.getElem?_modify_eq] at hi
    rcases Option.map_eq_some_iff.1 hi with ⟨old, found, rfl⟩
    exact changed old found
  · rw [List.getElem?_modify_ne _ _ here] at hi
    exact others l (List.mem_of_getElem? hi)

/-- Of all operations, only a mark on a way without a tag leaves blocks without a tag. -/
theorem Tidy.perform_iff (h : s.Tidy) (op : Operation) :
    (s.perform op).Tidy ↔ ¬s.Strays (.perform op) := by
  rw [tidy_iff] at h ⊢
  have effect := effect_perform s op
  generalize (s.perform op).content = lines at effect ⊢
  have tagged : ∀ {way access block}, (∀ l, s.content[way]? = some l → l.tag ≠ none) →
      ∀ l ∈ s.content.modify way (·.touchBlock access (s.blockOf block)),
        l.tag = none → l.Blank := by
    intro way access block held
    refine forall_mem_modify h fun l found untagged => ?_
    rw [Line.tag_touchBlock] at untagged
    exact absurd untagged (held l found)
  -- A lookup finds its way by the tag, and a fill writes one; only a mark asks for none.
  cases effect with
  | missed | chosen | blocked | touched => exact ⟨fun _ => id, fun _ => h⟩
  | found found =>
      refine ⟨fun _ => id, fun _ => tagged fun l at_ untagged => ?_⟩
      rcases held_of_find? found with ⟨holder, hholder, htag⟩
      rw [getElem?_content hholder] at at_
      cases at_
      rw [show holder.young.tag = holder.tag from rfl, htag] at untagged
      cases untagged
  | filled free =>
      refine ⟨fun _ => id, fun _ => forall_mem_modify h fun l _ untagged => ?_⟩
      cases untagged
  | unmarked refused =>
      refine ⟨fun _ strays => refused ⟨strays.1, ?_⟩, fun _ => h⟩
      rcases strays.2 with ⟨l, found, _⟩
      exact (List.getElem?_eq_some_iff.1 found).1
  | @marked way block access within exists_ =>
      constructor
      · rintro tidy ⟨_, l, found, untagged⟩
        have member : l.young.touchBlock access (s.blockOf block) ∈
            s.content.modify way (·.touchBlock access (s.blockOf block)) := by
          refine List.mem_of_getElem? (i := way) ?_
          rw [List.getElem?_modify_eq, getElem?_content found]
          rfl
        have blank := tidy _ member ((Line.tag_touchBlock l.young _ _).trans untagged)
        exact Line.not_blank_touchBlock _ _ _ blank
      · intro regular
        refine tagged fun l found untagged => regular ⟨within, ?_⟩
        rcases getElem?_content_cases found with ⟨ranked, at_, rfl⟩
        exact ⟨ranked, at_, untagged⟩
  | dropped =>
      refine ⟨fun _ => id, fun _ => forall_mem_modify h fun l found _ => ?_⟩
      exact Line.Blank.drop (h l (List.mem_of_getElem? found))
  | emptied =>
      refine ⟨fun _ => id, fun _ => List.forall_mem_map.2 fun l hl _ => ?_⟩
      exact Line.Blank.drop (h l hl)

theorem Tidy.act_iff (h : s.Tidy) (action : Action) : (s.act action).Tidy ↔ ¬s.Strays action := by
  cases action with
  | perform op => exact h.perform_iff op
  | resetCounts => exact ⟨fun _ => id, fun _ => h⟩

/-- No blocks are left without a tag at any point exactly if none are marked there. -/
theorem Tidy.actAll_iff (h : s.Tidy) (actions : List Action) :
    (∀ n, (s.actAll (actions.take n)).Tidy) ↔
      ∀ n action, actions[n]? = some action → ¬(s.actAll (actions.take n)).Strays action := by
  induction actions generalizing s with
  | nil => simpa [actAll] using h
  | cons action actions ih =>
      -- The first action either strays, or leaves a tidy set to the others.
      by_cases strays : s.Strays action
      · refine ⟨fun tidy => absurd strays ((h.act_iff action).1 (tidy 1)), fun regular => ?_⟩
        exact absurd strays (regular 0 action rfl)
      · have rest := ih ((h.act_iff action).2 strays)
        constructor
        · intro tidy n later at_
          cases n with
          | zero =>
              cases at_
              exact strays
          | succ n => exact rest.1 (fun n => tidy (n + 1)) n later at_
        · intro regular n
          cases n with
          | zero => exact h
          | succ n => exact rest.2 (fun n later at_ => regular (n + 1) later at_) n

theorem ofKind_tidy (kind : SetKind) (ways : Nat) (ageing : Ageing) (placement : Location) :
    (ofKind kind ways ageing placement).Tidy := by
  intro l hl _
  rw [List.eq_of_mem_replicate hl]
  exact ⟨rfl, rfl, rfl⟩

/-! ## Lines of a run -/

theorem consistent_iff :
    (∀ l ∈ s.lines, l.Consistent) ↔ ∀ l ∈ s.content, l.Consistent := by
  simp only [content, List.forall_mem_map, Line.consistent_young]

theorem perform_consistent (h : ∀ l ∈ s.lines, l.Consistent) (op : Operation) :
    ∀ l ∈ (s.perform op).lines, l.Consistent := by
  rw [consistent_iff] at h ⊢
  have effect := effect_perform s op
  generalize (s.perform op).content = lines at effect ⊢
  have before : ∀ {way : Nat} {l : Line}, s.content[way]? = some l → l.Consistent :=
    fun found => h _ (List.mem_of_getElem? found)
  cases effect with
  | missed | chosen | blocked | unmarked | touched => exact h
  | found | marked =>
      exact forall_mem_modify h fun l found => (before found).touchBlock _ _
  | filled => exact forall_mem_modify h fun l _ => l.fill_consistent _ _ _
  | dropped => exact forall_mem_modify h fun l found => (before found).drop
  | emptied => exact List.forall_mem_map.2 fun l hl => (h l hl).drop

theorem actAll_consistent (h : ∀ l ∈ s.lines, l.Consistent) (actions : List Action) :
    ∀ l ∈ (s.actAll actions).lines, l.Consistent := by
  induction actions generalizing s with
  | nil => exact h
  | cons action actions ih =>
      cases action with
      | perform op => exact ih (perform_consistent h op)
      | resetCounts => exact ih (s := s.resetCounts) h

theorem ofKind_consistent (kind : SetKind) (ways : Nat) (ageing : Ageing) (placement : Location) :
    ∀ l ∈ (ofKind kind ways ageing placement).lines, l.Consistent := by
  intro l hl
  rw [List.eq_of_mem_replicate hl]
  exact Line.Blank.consistent ⟨rfl, rfl, rfl⟩ nofun

theorem perform_kind (s : CacheSet) (op : Operation) : (s.perform op).kind = s.kind := by
  cases op with
  | lookup access tag block =>
      simp only [perform, CacheSet.access]
      split
      · rfl
      · split <;> rfl
  | chooseVictim => rfl
  | fill way tag predicted trigger =>
      simp only [perform]
      rcases s.fillWay_cases way tag predicted trigger with ⟨_, _, refused⟩ | ⟨_, _, _, done⟩
      · rw [refused]
        rfl
      · rw [done]
        rfl
  | markBlock way access block =>
      rcases s.perform_markBlock way access block with eq | eq <;> rw [eq]
      rfl
  | touch tag =>
      simp only [perform]
      rcases s.touchHolder_cases tag with ⟨_, refused⟩ | ⟨_, _, done⟩
      · rw [refused]
        rfl
      · rw [done]
        rfl
  | dropWay way =>
      rw [perform_dropWay]
      rfl
  | drop => rfl

theorem actAll_kind (s : CacheSet) (actions : List Action) : (s.actAll actions).kind = s.kind := by
  induction actions generalizing s with
  | nil => rfl
  | cons action actions ih =>
      have kept : (s.act action).kind = s.kind := by
        cases action with
        | perform op => exact s.perform_kind op
        | resetCounts => rfl
      exact (ih (s.act action)).trans kept

/-- Without blocks outside of tags, the sums over all ways are those over the ways with a tag. -/
theorem Tidy.sum_count (h : s.Tidy) (f : Line → BlockSet)
    (blank : ∀ l : Line, l.Blank → f l = .empty) :
    (s.lines.map fun l => (f l).count).sum =
      ((s.lines.filter Line.isValid).map fun l => (f l).count).sum := by
  have tidy : ∀ l ∈ s.lines, l.tag = none → l.Blank := h
  generalize s.lines = lines at tidy
  induction lines with
  | nil => rfl
  | cons l lines ih =>
      have rest := ih fun k hk => tidy k (List.mem_cons_of_mem l hk)
      rw [List.map_cons, List.sum_cons, rest]
      cases valid : l.isValid with
      | true => rw [List.filter_cons_of_pos valid, List.map_cons, List.sum_cons]
      | false =>
          have untagged : l.tag = none := by simpa [Line.isValid] using valid
          have empty := blank l (tidy l List.mem_cons_self untagged)
          rw [List.filter_cons_of_neg (by simp [valid]), empty, BlockSet.count_empty, Nat.zero_add]

/-! ## Block numbers beyond the last one -/

/-- The blocks present, dirty and used in each way. -/
def bitmaps (s : CacheSet) : List (BlockSet × BlockSet × BlockSet) := s.lines.map Line.bitmaps

theorem bitmaps_content (s : CacheSet) : s.bitmaps = s.content.map Line.bitmaps := by
  rw [bitmaps, content, List.map_map]
  rfl

theorem blockOf_eq (tracks : s.kind.tracksBlocks = true) (block : Nat) :
    s.blockOf block = block := by
  rw [blockOf, if_pos tracks]

/-- A lookup takes the remainder of a block number that is too large. -/
theorem access_mod (tracks : s.kind.tracksBlocks = true) (access : Access) (tag block : Nat) :
    s.access access tag (block % maxBlocks) = s.access access tag block := by
  have asked : ∀ s' : CacheSet, s'.kind = s.kind → ∀ block, s'.blockOf block = block := by
    intro s' same
    exact blockOf_eq (same ▸ tracks)
  simp only [CacheSet.access, asked { s with reads := s.reads + 1 } rfl, BlockSet.contains_mod,
    Line.touchBlock_mod]

/-- A view of a list shows a change of an element if it shows one of that element. -/
theorem map_modify_eq_map_iff {α β : Type} {xs : List α} {i : Nat} {x : α} {f : α → β} {g : α → α}
    (found : xs[i]? = some x) : (xs.modify i g).map f = xs.map f ↔ f (g x) = f x := by
  constructor
  · intro same
    have here := congrArg (·[i]?) same
    simpa [found] using here
  · intro same
    refine List.ext_getElem? fun j => ?_
    simp only [List.getElem?_map]
    by_cases apart : i = j
    · subst apart
      rw [List.getElem?_modify_eq, found]
      exact congrArg some same
    · rw [List.getElem?_modify_ne _ _ apart]

/-- A lookup of a tag that is held enters its block, unless that has been done before. -/
theorem bitmaps_lookup_iff (consistent : ∀ l ∈ s.lines, l.Consistent) (access : Access)
    (tag block : Nat) :
    (s.perform (.lookup access tag block)).bitmaps = s.bitmaps ↔
      ∀ way l, s.find? tag = some way → s.lines[way]? = some l →
        l.footprint.contains (s.blockOf block) = true ∧
          (access = .write → l.dirty.contains (s.blockOf block) = true) := by
  have effect := effect_perform s (.lookup access tag block)
  rw [bitmaps_content, bitmaps_content]
  generalize (s.perform (.lookup access tag block)).content = lines at effect ⊢
  cases effect with
  | missed missing =>
      refine ⟨fun _ way l found => ?_, fun _ => rfl⟩
      rw [missing] at found
      cases found
  | @found _ _ _ way found =>
      rcases held_of_find? found with ⟨holder, hholder, _⟩
      have before := consistent holder (List.mem_of_getElem? hholder)
      have touched := (Line.consistent_young.2 before).bitmaps_touchBlock_iff access
        (s.blockOf block)
      rw [map_modify_eq_map_iff (getElem?_content hholder), touched]
      constructor
      · intro used way' l found' at_
        rw [found] at found'
        cases found'
        rw [hholder] at at_
        cases at_
        exact used
      · intro used
        exact used way holder found hholder

/-- A mark of a block beyond the last one is refused. -/
theorem markBlock_beyond (tracks : s.kind.tracksBlocks = true) (way : Nat) (access : Access)
    {block : Nat} (beyond : maxBlocks ≤ block) : s.perform (.markBlock way access block) = s := by
  simp only [perform, CacheSet.markBlock, blockOf_eq tracks, if_pos beyond]

/-- Wherever operations with any arguments lead, the bitmaps of each line agree with each other and
with its state.  Ways without a tag record no blocks at any point exactly if no block is marked on
such a way; then they add nothing to the blocks of the set, and give up nothing when they are
filled.  In a set that tracks blocks, a block number beyond the last one is refused by a mark, and
stands for its remainder in a lookup, which enters that block under a tag that is held. -/
theorem actAll_bitmaps (kind : SetKind) (ways : Nat) (ageing : Ageing) (placement : Location)
    (actions : List Action) :
    let start := ofKind kind ways ageing placement
    let s := start.actAll actions
    (∀ l ∈ s.lines, l.dirty.blocks ⊆ l.footprint.blocks ∧ l.footprint.blocks ⊆ l.valid.blocks ∧
      (l.state = .modified ↔ l.dirty.blocks.Nonempty)) ∧
    ((∀ n, (start.actAll (actions.take n)).Tidy) ↔
      ∀ n action, actions[n]? = some action →
        ¬(start.actAll (actions.take n)).Strays action) ∧
    (s.Tidy →
      s.dirtyBlocks = ((s.lines.filter Line.isValid).map fun l => l.dirty.count).sum ∧
      s.validBlocks = (s.lines.map fun l => l.valid.count).sum ∧
      ∀ l ∈ s.lines, l.tag = none → l.evicted = ⟨none, .empty, l.trigger, 0, 0⟩) ∧
    (kind.tracksBlocks = true → ∀ access tag block way, maxBlocks ≤ block →
      s.perform (.markBlock way access block) = s ∧
      s.access access tag block = s.access access tag (block % maxBlocks) ∧
      ((s.perform (.lookup access tag block)).bitmaps = s.bitmaps ↔
        ∀ way l, s.find? tag = some way → s.lines[way]? = some l →
          l.footprint.contains block = true ∧
            (access = .write → l.dirty.contains block = true))) := by
  intro start s
  have consistent : ∀ l ∈ s.lines, l.Consistent :=
    actAll_consistent (ofKind_consistent kind ways ageing placement) actions
  refine ⟨fun l hl => ?_, (ofKind_tidy kind ways ageing placement).actAll_iff actions,
    fun tidy => ?_, fun tracks access tag block way beyond => ?_⟩
  · have line := consistent l hl
    exact ⟨line.used, line.present, line.modified⟩
  · refine ⟨tidy.sum_count Line.dirty fun l blank => blank.dirty,
      (tidy.sum_count Line.valid fun l blank => blank.valid).symm, fun l hl untagged => ?_⟩
    exact (tidy l hl untagged).evicted untagged
  · have tracks : s.kind.tracksBlocks = true := (actAll_kind start actions).symm ▸ tracks
    refine ⟨markBlock_beyond tracks way access beyond,
      (access_mod tracks access tag block).symm, ?_⟩
    have entered := bitmaps_lookup_iff consistent access tag block
    rwa [blockOf_eq tracks] at entered

/-- A block is marked on an empty way: it is dirty without a tag, and the next fill gives it up.
Then block 65 is looked up: it is entered as block 1. -/
theorem marked_without_tag :
    let empty := ofKind .page 1 .maxAge ⟨0, 0, 0⟩
    let marked := empty.run [.markBlock 0 .write 3]
    let filled := marked.run [.fill 0 5 .empty 0]
    let read := filled.run [.lookup .read 5 65]
    (marked.lines.map fun l => (l.tag, l.valid.contains 3)) = [(none, true)] ∧
      marked.dirtyBlocks = 1 ∧
      (marked.fill 0 5 .empty 0).toOption.map (fun r => (r.1.tag, r.1.dirtyBlocks)) =
        some (none, 1) ∧
      (filled.lines.map fun l => l.valid.contains 1) = [false] ∧
      (read.lines.map fun l => l.valid.contains 1) = [true] := by
  decide +kernel

end CacheSet

end StackedCache
