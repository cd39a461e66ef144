import Mathlib.Data.Finmap
import StackedCache.Proofs.Residency.Exchange

/-!
# Sets as finite maps

What a set holds, apart from the order and the ranks of its ways, is a finite map from tags to the
blocks present: its `Shelf`.  `Shelf.Serves` is a reference for what a request finds on a shelf and
what becomes of the shelf.  Lookups and replacements in coherent sets follow it.
-/

namespace StackedCache

/-! ## Blocks -/

namespace BlockSet

/-- The blocks of the set. -/
def blocks (s : BlockSet) : Finset Nat := (Finset.range maxBlocks).filter fun n => s.contains n = true

theorem mem_blocks {s : BlockSet} {n : Nat} :
    n ∈ s.blocks ↔ n < maxBlocks ∧ s.contains n = true := by
  rw [blocks, Finset.mem_filter, Finset.mem_range]

theorem blocks_empty : empty.blocks = ∅ := by
  refine Finset.filter_eq_empty_iff.2 ?_
  intro n _
  simp [contains_empty]

theorem blocks_insert {s : BlockSet} {n : Nat} (h : n < maxBlocks) :
    (s.insert n).blocks = Insert.insert n s.blocks := by
  ext k
  rw [Finset.mem_insert, mem_blocks, mem_blocks, contains_insert]
  constructor
  · rintro ⟨hk, present⟩
    rw [Nat.mod_eq_of_lt h, Nat.mod_eq_of_lt hk, Bool.or_eq_true, decide_eq_true_iff] at present
    rcases present with present | rfl
    · exact .inr ⟨hk, present⟩
    · exact .inl rfl
  · rintro (rfl | ⟨hk, present⟩)
    · exact ⟨h, by simp⟩
    · exact ⟨hk, by simp [present]⟩

end BlockSet

/-! ## Shelves -/

/-- The blocks present under each tag. -/
abbrev Shelf := Finmap fun _ : Nat => Finset Nat

namespace Shelf

/-- What a request for a block of a tag finds. -/
def find (s : Shelf) (tag block : Nat) : Lookup :=
  match s.lookup tag with
  | none => .miss
  | some blocks => if block ∈ blocks then .hit else .blockMiss

/-- What a request for a block of a tag finds on a shelf for some number of tags, and what becomes of
the shelf.  If the tag is missing, it comes with the blocks predicted and the one requested, and
another tag leaves only if there is no room. -/
inductive Serves (ways tag block : Nat) (predicted : Finset Nat) (s : Shelf) : Lookup → Shelf → Prop
    where
  | hit {blocks : Finset Nat} (held : s.lookup tag = some blocks) (present : block ∈ blocks) :
      Serves ways tag block predicted s .hit s
  | blockMiss {blocks : Finset Nat} (held : s.lookup tag = some blocks) (absent : block ∉ blocks) :
      Serves ways tag block predicted s .blockMiss (s.insert tag (insert block blocks))
  | fill (missing : s.lookup tag = none) (room : s.keys.card < ways) :
      Serves ways tag block predicted s .miss (s.insert tag (insert block predicted))
  | replace (victim : Nat) (missing : s.lookup tag = none) (full : s.keys.card = ways)
      (held : victim ∈ s) :
      Serves ways tag block predicted s .miss
        ((s.erase victim).insert tag (insert block predicted))

variable {s s' : Shelf} {ways tag block : Nat} {predicted : Finset Nat} {found : Lookup}

/-- What a request finds is determined by the shelf. -/
theorem Serves.found_eq (h : s.Serves ways tag block predicted found s') :
    found = s.find tag block := by
  cases h with
  | hit held present => simp only [find, held, if_pos present]
  | blockMiss held absent => simp only [find, held, if_neg absent]
  | fill missing room => simp only [find, missing]
  | replace victim missing full held => simp only [find, missing]

/-- A request finds its block if it comes again. -/
theorem Serves.find_again (h : s.Serves ways tag block predicted found s') :
    s'.find tag block = .hit := by
  cases h with
  | hit held present => simp only [find, held, if_pos present]
  | blockMiss held absent => simp [find, Finmap.lookup_insert]
  | fill missing room => simp [find, Finmap.lookup_insert]
  | replace victim missing full held => simp [find, Finmap.lookup_insert]

end Shelf

/-! ## Lines -/

/-- The shelf of some lines. -/
def shelfOf (lines : List Line) : Shelf :=
  lines.foldr
    (fun l shelf =>
      match l.tag with
      | some tag => shelf.insert tag l.valid.blocks
      | none => shelf) ∅

theorem lookup_shelfOf (lines : List Line) (tag : Nat) :
    (shelfOf lines).lookup tag =
      (lines.find? fun l => l.tag == some tag).map fun l => l.valid.blocks := by
  induction lines with
  | nil => exact Finmap.lookup_empty tag
  | cons l lines ih =>
      unfold shelfOf at ih ⊢
      rw [List.foldr_cons, List.find?_cons]
      cases htag : l.tag with
      | none => simpa [htag] using ih
      | some other =>
          by_cases same : other = tag
          · subst same
            simp [Finmap.lookup_insert]
          · have differs : (other == tag) = false := by simpa using same
            simp only [Finmap.lookup_insert_of_ne _ (Ne.symm same), ih, Option.some_beq_some,
              differs]

theorem keys_shelfOf (lines : List Line) :
    (shelfOf lines).keys = (lines.filterMap Line.tag).toFinset := by
  ext tag
  rw [Finmap.mem_keys, ← Finmap.lookup_isSome, lookup_shelfOf, Option.isSome_map,
    List.find?_isSome, List.mem_toFinset, List.mem_filterMap]
  simp

/-- A line for which the condition neither held nor holds has no part in the search. -/
theorem find?_modify_of_not {lines : List Line} {way : Nat} {old : Line} {g : Line → Line}
    {p : Line → Bool} (hold : lines[way]? = some old) (before : p old = false)
    (after : p (g old) = false) : (lines.modify way g).find? p = lines.find? p := by
  induction lines generalizing way with
  | nil => simp at hold
  | cons l lines ih =>
      cases way with
      | zero =>
          simp only [List.getElem?_cons_zero, Option.some.injEq] at hold
          subst hold
          simp [List.modify_zero_cons, before, after]
      | succ way =>
          simp only [List.getElem?_cons_succ] at hold
          rw [List.modify_succ_cons, List.find?_cons, List.find?_cons, ih hold]

namespace Coherent

variable {kind : SetKind} {lines : List Line} {way tag : Nat} {old : Line} {g : Line → Line}

/-- If a way takes a tag that no other holds, its old tag leaves the shelf and no other does. -/
theorem lookup_shelfOf_modify (h : Coherent kind lines) (hold : lines[way]? = some old)
    (htag : (g old).tag = some tag)
    (only : ∀ (j : Nat) (l : Line), lines[j]? = some l → l.tag = some tag → j = way) (x : Nat) :
    (shelfOf (lines.modify way g)).lookup x =
      if x = tag then some (g old).valid.blocks
      else if old.tag = some x then none
      else (shelfOf lines).lookup x := by
  rw [lookup_shelfOf, lookup_shelfOf]
  have changed : (lines.modify way g)[way]? = some (g old) := by
    rw [List.getElem?_modify_eq, hold]
    rfl
  by_cases new : x = tag
  · subst new
    have alone : ∀ (j : Nat) (l : Line), (lines.modify way g)[j]? = some l → l.tag = some x →
        j = way := by
      intro j l hl hltag
      rcases getElem?_modify_cases hold hl with ⟨here, _⟩ | ⟨_, hl⟩
      · exact here
      · exact only j l hl hltag
    rw [find?_only alone changed, if_pos htag, if_pos rfl]
    rfl
  · have other : ((g old).tag == some x) = false := by
      rw [htag]
      simpa using Ne.symm new
    rw [if_neg new]
    by_cases gone : old.tag = some x
    · rw [if_pos gone, Option.map_eq_none_iff, List.find?_eq_none]
      intro l hl holds
      have holds : l.tag = some x := by simpa using holds
      rcases List.mem_iff_getElem?.1 hl with ⟨j, hj⟩
      -- The tag was in this way only, and the way has taken another one.
      rcases getElem?_modify_cases hold hj with ⟨_, rfl⟩ | ⟨index, hj⟩
      · simp [holds] at other
      · exact index (h.unique way j old l hold hj (by simp [Line.isValid, gone])
          (gone.trans holds.symm)).symm
    · rw [if_neg gone, find?_modify_of_not hold (by simpa using gone) other]

/-- There are as many tags on the shelf as there are lines with a tag. -/
theorem card_keys (h : Coherent kind lines) :
    (shelfOf lines).keys.card = (lines.filterMap Line.tag).length := by
  rw [keys_shelfOf]
  apply List.toFinset_card_of_nodup
  have apart : lines.Pairwise fun l l' => l.isValid = true → l.tag ≠ l'.tag := by
    refine List.pairwise_iff_getElem.2 ?_
    intro i j hi hj hij hvalid same
    have index := h.unique i j lines[i] lines[j] (List.getElem?_eq_getElem hi)
      (List.getElem?_eq_getElem hj) hvalid same
    omega
  refine List.Pairwise.filterMap Line.tag ?_ apart
  intro l l' apart tag htag tag' htag' same
  have held : l.tag = some tag := htag
  have held' : l'.tag = some tag' := htag'
  exact apart (by simp [Line.isValid, held]) (by rw [held, held', same])

theorem card_keys_le (h : Coherent kind lines) : (shelfOf lines).keys.card ≤ lines.length := by
  rw [h.card_keys]
  exact List.length_filterMap_le _ _

/-- A way without a tag leaves room on the shelf. -/
theorem card_keys_lt (h : Coherent kind lines) (hold : lines[way]? = some old)
    (vacant : old.tag = none) : (shelfOf lines).keys.card < lines.length := by
  rw [h.card_keys, List.length_filterMap_lt_length_iff_exists]
  exact ⟨old, List.mem_of_getElem? hold, vacant⟩

/-- If all ways have a tag, the shelf is full. -/
theorem card_keys_eq (h : Coherent kind lines) (full : ∀ l ∈ lines, l.isValid = true) :
    (shelfOf lines).keys.card = lines.length := by
  rw [h.card_keys, List.length_filterMap_eq_countP]
  exact List.countP_eq_length.2 full

end Coherent

/-! ## Sets -/

namespace CacheSet

variable {s s' : CacheSet} {way tag block : Nat} {old : Line} {g : Line → Line} {n : Nat}

/-- What the set holds. -/
def shelf (s : CacheSet) : Shelf := shelfOf s.lines

/-- The ranks of the ways have no part in it. -/
theorem shelf_content (s : CacheSet) : shelfOf s.content = s.shelf := by
  simp only [shelf, shelfOf, content, List.foldr_map]
  rfl

theorem Alike.shelf (h : s.Alike s') : s'.shelf = s.shelf := by
  rw [CacheSet.shelf, h.lines, CacheSet.shelf]

/-- Nothing is on the shelf of a set whose lines are all empty. -/
theorem shelf_eq_empty : s.shelf = ∅ ↔ ∀ l ∈ s.lines, l.isValid = false := by
  have keys : s.shelf = ∅ ↔ s.shelf.keys = ∅ := by
    constructor
    · intro bare
      rw [bare, Finmap.keys_empty]
    · intro none
      refine Finmap.ext_lookup fun tag => ?_
      rw [Finmap.lookup_empty, Finmap.lookup_eq_none, ← Finmap.mem_keys, none]
      exact Finset.notMem_empty tag
  rw [keys, shelf, keys_shelfOf, List.toFinset_eq_empty_iff, List.filterMap_eq_nil_iff]
  simp only [Line.isValid, Option.isSome_eq_false_iff, Option.isNone_iff_eq_none]

theorem shelf_drop (s : CacheSet) : s.drop.shelf = ∅ := by
  rw [shelf_eq_empty]
  intro l hl
  rcases List.mem_map.1 hl with ⟨k, _, rfl⟩
  unfold Line.drop
  cases hk : k.isValid with
  | false => exact hk
  | true => rfl

/-- The sets differ in their lines and counts only, and have as many lines. -/
structure SameBuild (s s' : CacheSet) : Prop where
  kind : s'.kind = s.kind
  placement : s'.placement = s.placement
  ranking : s'.ranking = s.ranking
  ways : s'.ways = s.ways

theorem SameBuild.rfl : s.SameBuild s := ⟨Eq.refl _, Eq.refl _, Eq.refl _, Eq.refl _⟩

theorem SameBuild.trans {s'' : CacheSet} (h : s.SameBuild s') (h' : s'.SameBuild s'') :
    s.SameBuild s'' :=
  ⟨h'.kind.trans h.kind, h'.placement.trans h.placement, h'.ranking.trans h.ranking,
    h'.ways.trans h.ways⟩

/-- The set has the ways and the ranking of its kind. -/
structure Built (cache : CacheSettings) (s : CacheSet) : Prop where
  ways : s.ways = s.kind.ways cache.associativity.toNat
  ranking : s.ranking = s.kind.ranking cache.ageing

theorem SameBuild.built {cache : CacheSettings} (h : s.SameBuild s') (built : s.Built cache) :
    s'.Built cache :=
  ⟨by rw [h.ways, h.kind, built.ways], by rw [h.ranking, h.kind, built.ranking]⟩

theorem ofKind_built (cache : CacheSettings) (kind : SetKind) (placement : Location) :
    (ofKind kind cache.associativity.toNat cache.ageing placement).Built cache :=
  ⟨List.length_replicate, Eq.refl _⟩

/-- By age, a way with a tag is given up only if all ways have one. -/
theorem spares_ageing {by_ : Ageing} (ranking : s.ranking = .ageing by_)
    (hold : s.lines[s.chooseVictim.1]? = some old) (held : old.isValid = true) :
    ∀ l ∈ s.lines, l.isValid = true := by
  simp only [chooseVictim, ranking, Ranking.victim] at hold
  cases vacant : s.lines.findIdx? fun l => !l.isValid with
  | none =>
      intro l hl
      simpa using List.findIdx?_eq_none_iff.1 vacant l hl
  | some way =>
      -- The first way without a tag would be the victim.
      rcases List.findIdx?_eq_some_iff_getElem.1 vacant with ⟨hlt, free, _⟩
      have index : min way (s.ways - 1) = way := by
        unfold CacheSet.ways
        omega
      rw [vacant, Option.getD_some, index, List.getElem?_eq_getElem hlt, Option.some.injEq] at hold
      rw [hold, held] at free
      cases free

/-- A way with a tag is given up only if all ways have one. -/
theorem Built.spares {cache : CacheSettings} (h : s.Built cache)
    (hold : s.lines[s.chooseVictim.1]? = some old) (held : old.isValid = true) :
    ∀ l ∈ s.lines, l.isValid = true := by
  have ranking := h.ranking
  cases kind : s.kind with
  | directBlock =>
      -- There is one way, and the victim is one of the ways.
      have one : s.lines.length = 1 := by
        have ways := h.ways
        rw [kind] at ways
        exact ways
      rcases List.length_eq_one_iff.1 one with ⟨only, lines⟩
      have first : s.chooseVictim.1 = 0 := by
        simp [chooseVictim, CacheSet.ways, one]
      rw [first, lines, List.getElem?_cons_zero, Option.some.injEq] at hold
      intro l hl
      rw [lines, List.mem_singleton] at hl
      rw [hl, hold]
      exact held
  | page => exact spares_ageing (by rw [ranking, kind]; rfl) hold held
  | pageLru => exact spares_ageing (by rw [ranking, kind]; rfl) hold held

/-! ## Lookups and replacements -/

/-- What has been found, and what the set holds afterwards, is as the reference says. -/
structure Answers (tag block : Nat) (predicted : Finset Nat) (found : Lookup)
    (before after : CacheSet) : Prop where
  serves : before.shelf.Serves before.ways tag block predicted found after.shelf
  build : before.SameBuild after

variable {access : Access} {predicted : BlockSet} {trigger : Nat} {found : Lookup}

theorem Alike.sameBuild (h : s.Alike s') (ranking : s'.ranking = s.ranking) : s.SameBuild s' :=
  ⟨h.kind, h.placement, ranking, congrArg List.length h.lines⟩

theorem Answers.of_alike {s₁ : CacheSet} {blocks : Finset Nat} (alike : s.Alike s₁)
    (ranking : s₁.ranking = s.ranking) (h : Answers tag block blocks found s₁ s') :
    Answers tag block blocks found s s' := by
  have build := alike.sameBuild ranking
  refine ⟨?_, build.trans h.build⟩
  rw [← alike.shelf, ← build.ways]
  exact h.serves

theorem access_ranking (s : CacheSet) (access : Access) (tag block : Nat) :
    (s.access access tag block).2.ranking = s.ranking := by
  unfold CacheSet.access
  dsimp only
  split
  · rfl
  · split <;> rfl

theorem chooseVictim_ranking (h : s.chooseVictim = (way, s')) : s'.ranking = s.ranking := by
  have same : s.chooseVictim.2.ranking = s.ranking := rfl
  rwa [h] at same

theorem fill_ranking {evicted : Eviction} (h : s.fill way tag predicted trigger = .ok (evicted, s')) :
    s'.ranking = s.ranking := by
  rw [fill_eq, touchTag_eq] at h
  split at h
  · cases h
  · split at h
    · cases h
    · split at h
      · cases h
      · split at h
        · cases h
          rfl
        · cases h

theorem markBlock_ranking (h : s.markBlock way access block = .ok s') : s'.ranking = s.ranking := by
  unfold markBlock at h
  dsimp only at h
  split at h
  · cases h
  · split at h
    · cases h
    · cases h
      rfl

/-- One way takes a tag, and the blocks that go with it. -/
theorem Coherent.lookup_shelf (h : s.Coherent) (content : s'.content = s.content.modify way g)
    (hold : s.content[way]? = some old) (htag : (g old).tag = some tag)
    (only : ∀ (j : Nat) (l : Line), s.content[j]? = some l → l.tag = some tag → j = way) (x : Nat) :
    s'.shelf.lookup x =
      if x = tag then some (g old).valid.blocks
      else if old.tag = some x then none
      else s.shelf.lookup x := by
  rw [← shelf_content, content, ← shelf_content]
  exact StackedCache.Coherent.lookup_shelfOf_modify h hold htag only x

theorem lookup_shelf_of_find? (missing : s.find? tag = none) : s.shelf.lookup tag = none := by
  rw [← shelf_content, lookup_shelfOf, Option.map_eq_none_iff, List.find?_eq_none]
  intro l hl
  simpa using not_held_of_find? missing l hl

theorem blockOf_zero (s : CacheSet) : s.blockOf 0 = 0 := by simp [blockOf]

/-- There are no more tags on the shelf than ways. -/
theorem Coherent.card_shelf_le (h : s.Coherent) : s.shelf.keys.card ≤ s.ways := by
  rw [← shelf_content, ← content_length]
  exact StackedCache.Coherent.card_keys_le h

/-- In a direct-mapped set a tag is never held without its block. -/
theorem Coherent.mem_of_direct {blocks : Finset Nat} (h : s.Coherent) (kind : s.kind = .directBlock)
    (held : s.shelf.lookup tag = some blocks) : 0 ∈ blocks := by
  rw [← shelf_content, lookup_shelfOf, Option.map_eq_some_iff] at held
  rcases held with ⟨l, hl, rfl⟩
  have tagged : l.tag = some tag := by simpa using List.find?_some hl
  have present := h.direct kind l (List.mem_of_find?_eq_some hl) (by simp [Line.isValid, tagged])
  exact BlockSet.mem_blocks.2 ⟨by decide, present⟩

/-- So it is never asked for a block that is missing from its tag. -/
theorem Coherent.not_blockMiss {ways : Nat} {blocks : Finset Nat} {shelf : Shelf} (h : s.Coherent)
    (kind : s.kind = .directBlock) (serves : s.shelf.Serves ways tag 0 blocks found shelf) :
    found ≠ .blockMiss := by
  rintro rfl
  rcases serves with _ | ⟨held, absent⟩
  exact absent (h.mem_of_direct kind held)

/-- A lookup of a tag that is held. -/
theorem Coherent.access_answers (h : s.Coherent) (held : s.find? tag = some way)
    (hblock : s.blockOf block < maxBlocks) (access : Access) (blocks : Finset Nat) :
    ∃ found s', s.access access tag block = (found, s') ∧ found ≠ .miss ∧
      Answers tag (s.blockOf block) blocks found s s' := by
  rcases access_of_held held access block with
    ⟨old, s', hold, htag, accessed, kind, placement, content⟩
  have member := List.mem_of_getElem? hold
  have only : ∀ (j : Nat) (l : Line), s.content[j]? = some l → l.tag = some tag → j = way :=
    fun j l hl hltag =>
      (h.unique way j old l hold hl (by simp [Line.isValid, htag]) (htag.trans hltag.symm)).symm
  have build : s.SameBuild s' := by
    refine ⟨kind, placement, ?_, ?_⟩
    · rw [← access_ranking s access tag block, accessed]
    · rw [← content_length, content, List.length_modify, content_length]
  have found : s.shelf.lookup tag = some old.valid.blocks := by
    rw [← shelf_content, lookup_shelfOf, StackedCache.Coherent.find?_only only hold, if_pos htag]
    rfl
  have tag_same : (old.touchBlock access (s.blockOf block)).tag = some tag := by
    cases access <;> exact htag
  have valid_new : (old.touchBlock access (s.blockOf block)).valid.blocks =
      insert (s.blockOf block) old.valid.blocks := by
    rw [← BlockSet.blocks_insert hblock]
    cases access <;> rfl
  have shelf : s'.shelf = s.shelf.insert tag (insert (s.blockOf block) old.valid.blocks) := by
    refine Finmap.ext_lookup ?_
    intro x
    rw [h.lookup_shelf content hold tag_same only, valid_new]
    by_cases same : x = tag
    · rw [if_pos same, same, Finmap.lookup_insert]
    · rw [if_neg same, Finmap.lookup_insert_of_ne _ same, htag,
        if_neg fun heq => same (Option.some.inj heq).symm]
  by_cases present : old.valid.contains (s.blockOf block) = true
  · refine ⟨.hit, s', by rw [accessed, if_pos present], by simp, ?_, build⟩
    have has : s.blockOf block ∈ old.valid.blocks := BlockSet.mem_blocks.2 ⟨hblock, present⟩
    -- The block is there already, and so the shelf stays.
    have same : s'.shelf = s.shelf := by
      rw [shelf, Finset.insert_eq_of_mem has]
      refine Finmap.ext_lookup ?_
      intro x
      by_cases hx : x = tag
      · rw [hx, Finmap.lookup_insert, found]
      · rw [Finmap.lookup_insert_of_ne _ hx]
    rw [same]
    exact .hit found has
  · refine ⟨.blockMiss, s', by rw [accessed, if_neg present], by simp, ?_, build⟩
    rw [shelf]
    exact .blockMiss found fun has => present (BlockSet.mem_blocks.1 has).2

/-- A way takes a missing tag.  If it gives one up, all ways had one. -/
theorem Coherent.serves_fill (h : s.Coherent)
    (content : s'.content = s.content.modify way fun l =>
      (l.fill tag predicted trigger).touchBlock access block)
    (hold : s.content[way]? = some old) (missing : s.find? tag = none) (hblock : block < maxBlocks)
    (spares : old.isValid = true → ∀ l ∈ s.content, l.isValid = true) :
    s.shelf.Serves s.ways tag block predicted.blocks .miss s'.shelf := by
  have absent := not_held_of_find? missing
  have taken : ((old.fill tag predicted trigger).touchBlock access block).tag = some tag := by
    cases access <;> rfl
  have lookup := h.lookup_shelf content hold taken fun j l hl hltag =>
    absurd hltag (absent l (List.mem_of_getElem? hl))
  have valid_new : ((old.fill tag predicted trigger).touchBlock access block).valid.blocks =
      insert block predicted.blocks := by
    rw [← BlockSet.blocks_insert hblock]
    cases access <;> rfl
  rw [valid_new] at lookup
  have missing := lookup_shelf_of_find? missing
  cases vacated : old.tag with
  | none =>
      have room := StackedCache.Coherent.card_keys_lt h hold vacated
      rw [shelf_content, content_length] at room
      have shelf : s'.shelf = s.shelf.insert tag (insert block predicted.blocks) := by
        refine Finmap.ext_lookup ?_
        intro x
        rw [lookup, vacated]
        by_cases same : x = tag
        · rw [if_pos same, same, Finmap.lookup_insert]
        · rw [if_neg same, if_neg nofun, Finmap.lookup_insert_of_ne _ same]
      rw [shelf]
      exact .fill missing room
  | some victim =>
      have holds : old.isValid = true := by simp [Line.isValid, vacated]
      have full := StackedCache.Coherent.card_keys_eq h (spares holds)
      rw [shelf_content, content_length] at full
      have held : victim ∈ s.shelf := by
        rw [← shelf_content, ← Finmap.mem_keys, keys_shelfOf, List.mem_toFinset,
          List.mem_filterMap]
        exact ⟨old, List.mem_of_getElem? hold, vacated⟩
      have shelf : s'.shelf =
          (s.shelf.erase victim).insert tag (insert block predicted.blocks) := by
        refine Finmap.ext_lookup ?_
        intro x
        rw [lookup, vacated]
        by_cases same : x = tag
        · rw [if_pos same, same, Finmap.lookup_insert]
        · rw [if_neg same, Finmap.lookup_insert_of_ne _ same]
          by_cases gone : victim = x
          · rw [if_pos (congrArg some gone), gone, Finmap.lookup_erase]
          · rw [if_neg fun heq => gone (Option.some.inj heq),
              Finmap.lookup_erase_ne (Ne.symm gone)]
      rw [shelf]
      exact .replace victim missing full held

/-- The replacement of a way after a lookup that has missed. -/
theorem Coherent.replacement_answers {cache : CacheSettings} (h : s.Coherent) (built : s.Built cache)
    (missing : s.find? tag = none) (proper : tag ≠ noTag) (hblock : s.blockOf block < maxBlocks)
    (access : Access) (predicted : BlockSet) (trigger : Nat) :
    ∃ evicted s₁ s₂,
      s.chooseVictim.2.fill s.chooseVictim.1 tag predicted trigger = .ok (evicted, s₁) ∧
      s₁.markBlock s.chooseVictim.1 access block = .ok s₂ ∧
      Answers tag (s.blockOf block) (if s.kind.tracksBlocks then predicted else .empty).blocks .miss
        s s₂ := by
  rcases chooseVictim_of_coherent h with ⟨way, s₀, chosen, hway, alike⟩
  have ranking₀ := chooseVictim_ranking chosen
  have missing₀ := (alike.find? tag).trans missing
  have coherent₀ := alike.coherent h
  have asked : s₀.blockOf block = s.blockOf block := by rw [blockOf, alike.kind, blockOf]
  rcases replace_of_missing hway proper missing₀ (asked ▸ hblock) access predicted trigger with
    ⟨old, s₁, s₂, hold, filled, marked, kind, placement, content⟩
  rw [chosen]
  refine ⟨old.evicted, s₁, s₂, filled, marked, .of_alike alike ranking₀ ⟨?_, ?_⟩⟩
  · rw [alike.kind, asked] at content
    refine coherent₀.serves_fill content hold missing₀ hblock ?_
    intro holds l hl
    -- Ranks are no part of the content, so the line itself is the victim's.
    rw [CacheSet.content, List.getElem?_map, Option.map_eq_some_iff, alike.lines] at hold
    rcases hold with ⟨k, hk, rfl⟩
    rcases List.mem_map.1 hl with ⟨k', hk', rfl⟩
    rw [alike.lines] at hk'
    have given : s.lines[s.chooseVictim.1]? = some k := by
      rw [chosen]
      exact hk
    exact built.spares given holds k' hk'
  · refine ⟨kind, placement, (markBlock_ranking marked).trans (fill_ranking filled), ?_⟩
    rw [← content_length, content, List.length_modify, content_length]

end CacheSet

end StackedCache
