import StackedCache.Proofs.Residency.Shelf
import StackedCache.Proofs.Service.Arrival

/-!
# What a request finds

A design of sets asks one set for a block.  The set answers as the reference of shelves says, the
answer is what is counted, and no other set changes.
-/

namespace StackedCache

/-- How an answer is counted: as going past the cache, as a miss, as one of a tag, and as one of a
block. -/
def Lookup.classes : Lookup → Nat × Nat × Nat × Nat
  | .hit => (0, 0, 0, 0)
  | .miss => (0, 1, 1, 0)
  | .blockMiss => (0, 1, 0, 1)

namespace Organisation

/-- The block that a request for an offset in a line asks for. -/
def wanted (blockSize offset : Nat) : Organisation → Nat
  | .pages _ => offset / blockSize
  | _ => 0

/-- The blocks predicted for a line that is filled because of a block. -/
def predicted (block : Nat) : Organisation → BlockSet
  | .pages history => history.peek (history.key block)
  | _ => .empty

end Organisation

namespace Controller

variable {c c' c₁ : Controller} {i tag block : Nat} {predicted : Finset Nat} {set set₁ : CacheSet}
  {found : Lookup}

/-- Nothing has happened to the sets, to what is predicted, or to what is counted. -/
structure Aside (c c' : Controller) : Prop where
  sets : c'.sets = c.sets
  organisation : c'.organisation = c.organisation
  counts : c'.counts = c.counts

theorem Aside.classes (h : c.Aside c') : c'.counts.classes = c.counts.classes :=
  congrArg CacheCounts.classes h.counts

/-- The set at an index has answered. -/
def Answered (i tag block : Nat) (predicted : Finset Nat) (set : CacheSet) (found : Lookup)
    (c c' : Controller) : Prop :=
  ∃ set', CacheSet.Answers tag block predicted found set set' ∧
    c'.sets = c.sets.setIfInBounds i set'

/-- The answer has been counted. -/
structure Counted (i tag block : Nat) (predicted : Finset Nat) (set : CacheSet) (found : Lookup)
    (c c' : Controller) : Prop where
  answered : c.Answered i tag block predicted set found c'
  classes : c'.counts.classes = c.counts.classes + found.classes

/-- The request has failed, and the set holds what it held, or has answered before. -/
def Abandoned (i tag block : Nat) (predicted : Finset Nat) (set : CacheSet)
    (c c' : Controller) : Prop :=
  ∃ set', set.SameBuild set' ∧ c'.sets = c.sets.setIfInBounds i set' ∧
    (set'.shelf = set.shelf ∨
      ∃ found, set.shelf.Serves set.ways tag block predicted found set'.shelf)

theorem Answered.abandoned (h : c.Answered i tag block predicted set found c') :
    c.Abandoned i tag block predicted set c' := by
  rcases h with ⟨set', answers, sets⟩
  exact ⟨set', answers.build, sets, .inr ⟨found, answers.serves⟩⟩

/-- A set that differs in ranks and counts only has been stored before. -/
theorem Answered.of_alike (alike : set.Alike set₁) (ranking : set₁.ranking = set.ranking)
    (sets : c₁.sets = c.sets.setIfInBounds i set₁)
    (h : c₁.Answered i tag block predicted set₁ found c') :
    c.Answered i tag block predicted set found c' := by
  rcases h with ⟨set', answers, sets'⟩
  refine ⟨set', .of_alike alike ranking answers, ?_⟩
  rw [sets', sets, Array.setIfInBounds_setIfInBounds]

theorem Abandoned.of_alike_left (alike : set.Alike set₁) (ranking : set₁.ranking = set.ranking)
    (sets : c₁.sets = c.sets.setIfInBounds i set₁)
    (h : c₁.Abandoned i tag block predicted set₁ c') :
    c.Abandoned i tag block predicted set c' := by
  rcases h with ⟨set', build, sets', shelf⟩
  have same := alike.sameBuild ranking
  rw [alike.shelf, same.ways] at shelf
  refine ⟨set', same.trans build, ?_, shelf⟩
  rw [sets', sets, Array.setIfInBounds_setIfInBounds]

theorem Abandoned.of_alike (alike : set.Alike set₁) (ranking : set₁.ranking = set.ranking)
    (sets : c'.sets = c.sets.setIfInBounds i set₁) :
    c.Abandoned i tag block predicted set c' :=
  ⟨set₁, alike.sameBuild ranking, sets, .inl alike.shelf⟩

theorem Abandoned.of_aside (held : c.sets[i]? = some set) (aside : c.Aside c') :
    c.Abandoned i tag block predicted set c' := by
  rcases Array.getElem?_eq_some_iff.1 held with ⟨hlt, rfl⟩
  refine ⟨c.sets[i], .rfl, ?_, .inl rfl⟩
  rw [aside.sets, Array.setIfInBounds_def, dif_pos hlt, Array.set_getElem_self]

end Controller

namespace Service

open Controller (Answered Counted Abandoned)

variable {c c₁ : Controller} {s : Settings} {split : SplitAddress} {set : CacheSet}
  {access : Access}

theorem onStack_aside {α : Type} (step : StackStep α) :
    Does (onStack step) c (fun _ c' => c.Aside c') fun _ c' => c.Aside c' := by
  intro elapsed
  simp only [onStack]
  cases step c.stack <;> exact ⟨rfl, rfl, rfl⟩

/-- A transfer, whether it succeeds or not. -/
theorem transfer_aside (arrival : Time) (direction : Access) (bytes : Nat) (row : Location) :
    Does (transfer arrival direction bytes row) c (fun _ c' => c.Aside c') fun _ c' => c.Aside c' := by
  refine .get_bind ?_
  intro elapsed
  cases c.layer.physicalLocation row with
  | error cause => exact .refused_bind ⟨rfl, rfl, rfl⟩
  | ok physical =>
      refine .attempt_bind (.bind (onStack_aside _) ?_)
      intro done c₁ aside
      refine .theController_bind ?_
      cases c₁.layer.recordAccess row done.requests with
      | error cause => exact .refused_bind aside
      | ok layer =>
          exact .attempt_bind (.modifyController_bind (.charge
            ⟨aside.sets, aside.organisation, aside.counts⟩))

/-- A transfer before the set is asked. -/
theorem transfer_before (held : c.sets[split.set]? = some set) (arrival : Time) (direction : Access)
    (bytes : Nat) (row : Location) {block : Nat} {predicted : Finset Nat} :
    Does (transfer arrival direction bytes row) c (fun _ c' => c.Aside c') fun _ c' =>
      c.Abandoned split.set split.tag block predicted set c' :=
  (transfer_aside arrival direction bytes row).mono (fun _ _ aside => aside) fun _ _ aside =>
    .of_aside held aside

/-- A transfer after the answer has been counted. -/
theorem transfer_after {tag block : Nat} {predicted : Finset Nat} {found : Lookup} {i : Nat}
    (h : c.Counted i tag block predicted set found c₁) (arrival : Time) (direction : Access)
    (bytes : Nat) (row : Location) :
    Does (transfer arrival direction bytes row) c₁
      (fun _ c' => c.Counted i tag block predicted set found c') fun _ c' =>
      c.Abandoned i tag block predicted set c' := by
  have kept : ∀ c', c₁.Aside c' → c.Counted i tag block predicted set found c' := by
    intro c' aside
    rcases h.answered with ⟨set', answers, sets⟩
    exact ⟨⟨set', answers, aside.sets.trans sets⟩, aside.classes.trans h.classes⟩
  exact (transfer_aside arrival direction bytes row).mono (fun _ c' aside => kept c' aside)
    fun _ c' aside => (kept c' aside).answered.abandoned

/-! ## Blocks with their tags -/

/-- A missing block is filled in, unless no line can hold its tag. -/
theorem replaceBlock_answers {cache : CacheSettings} (coherent : set.Coherent)
    (built : set.Built cache) (kind : set.kind = .directBlock)
    (missing : set.find? split.tag = none) (access : Access) :
    Does (replaceBlock access split set) c
      (fun _ c' => c.Answered split.set split.tag 0 ∅ set .miss c' ∧
        c'.counts.classes = c.counts.classes)
      (fun _ c' => c.Abandoned split.set split.tag 0 ∅ set c') := by
  have asked := set.blockOf_zero
  have small : set.blockOf 0 < maxBlocks := by
    rw [asked]
    decide
  have untracked : set.kind.tracksBlocks = false := by
    rw [kind]
    rfl
  rcases CacheSet.chooseVictim_of_coherent coherent with ⟨way, set₁, chosen, hway, alike⟩
  have ranking := CacheSet.chooseVictim_ranking chosen
  unfold replaceBlock
  rw [chosen]
  refine .storeSet_bind ?_
  by_cases htag : split.tag = noTag
  · rw [htag, CacheSet.fill_noTag hway]
    exact .refused_bind (.of_alike alike ranking rfl)
  · obtain ⟨evicted, set₂, set₃, filled, marked, answers⟩ :=
      coherent.replacement_answers built missing htag small access .empty 0
    rw [chosen] at filled marked
    rw [asked, untracked] at answers
    simp only [Bool.false_eq_true, if_false, BlockSet.blocks_empty] at answers
    rw [filled]
    refine .attempt_bind (.storeSet_bind ?_)
    rw [marked]
    refine .attempt_bind (.storeSet_bind (.pure ⟨⟨set₃, answers, ?_⟩, rfl⟩))
    simp only [Array.setIfInBounds_setIfInBounds]

/-- A request for a block is served as the shelf says. -/
theorem serveBlock_counts {cache : CacheSettings} (held : c.sets[split.set]? = some set)
    (coherent : set.Coherent) (built : set.Built cache) (kind : set.kind = .directBlock)
    (arrival : Time) (size : Nat) (access : Access) :
    Does (serveBlock arrival size split access) c
      (fun _ c' => ∃ found, c.Counted split.set split.tag 0 ∅ set found c')
      (fun _ c' => c.Abandoned split.set split.tag 0 ∅ set c') := by
  have asked := set.blockOf_zero
  have small : set.blockOf 0 < maxBlocks := by
    rw [asked]
    decide
  unfold serveBlock
  refine .setAt_bind held (.bind (transfer_before held _ _ _ _) ?_)
  intro _ c₁ aside
  refine .setAt_bind (aside.sets ▸ held) ?_
  cases lookup : set.find? split.tag with
  | some way =>
      obtain ⟨found, set₁, accessed, here, answers⟩ :=
        coherent.access_answers lookup small access ∅
      rw [asked] at answers
      -- A way that holds a tag holds its only block.
      have hit : found = .hit := by
        have never := coherent.not_blockMiss kind answers.serves
        cases found with
        | hit => rfl
        | miss => exact absurd rfl here
        | blockMiss => exact absurd rfl never
      rw [accessed]
      refine .storeSet_bind ?_
      rw [if_neg here]
      have counted : c.Counted split.set split.tag 0 ∅ set found
          { c₁ with sets := c₁.sets.setIfInBounds split.set set₁ } := by
        refine ⟨⟨set₁, answers, by rw [aside.sets]⟩, ?_⟩
        rw [hit]
        exact aside.classes
      exact (transfer_after counted arrival access size _).mono (fun _ _ done => ⟨found, done⟩)
        fun _ _ failed => failed
  | none =>
      rcases CacheSet.access_of_missing lookup access 0 with ⟨set₁, accessed, alike⟩
      have ranking := CacheSet.access_ranking set access split.tag 0
      rw [accessed] at ranking ⊢
      have build := alike.sameBuild ranking
      have stored : ({ c₁ with sets := c₁.sets.setIfInBounds split.set set₁ } : Controller).sets =
          c.sets.setIfInBounds split.set set₁ := by rw [← aside.sets]
      refine .storeSet_bind ?_
      rw [if_pos rfl]
      refine .bind (.mono (replaceBlock_answers (alike.coherent coherent) (build.built built)
        (alike.kind.trans kind) ((alike.find? _).trans lookup) access)
        (fun _ _ done => done) fun _ _ failed => failed.of_alike_left alike ranking stored) ?_
      rintro dirty c₂ ⟨answered, classes⟩
      refine .count_bind (.theController_bind ?_)
      have counted : c.Counted split.set split.tag 0 ∅ set .miss (c₂.modifyCounts fun n =>
          { n with
            misses := n.misses + 1
            pageMisses := n.pageMisses + 1
            loadedBlocks := n.loadedBlocks + 1
            writebackBlocks := n.writebackBlocks + dirty }) := by
        refine ⟨answered.of_alike alike ranking stored, ?_⟩
        rw [← aside.classes, ← classes]
        rfl
      refine .bind (transfer_after counted _ _ _ _) fun _ c₃ counted => ?_
      refine .load_bind (.stream_bind ?_)
      exact (transfer_after counted _ _ _ _).mono (fun _ _ done => ⟨.miss, done⟩)
        fun _ _ failed => failed

/-! ## Pages with predicted footprints -/

/-- What is predicted; the history alone notices. -/
theorem predict_predicts {E : Fault → Controller → Prop} (block : Nat) :
    Does (predict block) c
      (fun p c' => p.2 = c.organisation.predicted block ∧ c'.sets = c.sets ∧ c'.counts = c.counts)
      E := by
  unfold predict
  refine .theController_bind ?_
  cases c.organisation with
  | pages history => exact .modifyController_bind (.pure ⟨rfl, rfl, rfl⟩)
  | blocks => exact .pure ⟨rfl, rfl, rfl⟩
  | segments _ => exact .pure ⟨rfl, rfl, rfl⟩

theorem learn_learns {E : Fault → Controller → Prop} (evicted : Eviction) :
    Does (learn evicted) c (fun _ c' => c'.sets = c.sets ∧ c'.counts = c.counts) E := by
  unfold learn
  refine .theController_bind ?_
  cases c.organisation with
  | pages history =>
      exact .ite (fun _ => .modifyController ⟨rfl, rfl⟩) fun _ => .pure ⟨rfl, rfl⟩
  | blocks => exact .pure ⟨rfl, rfl⟩
  | segments _ => exact .pure ⟨rfl, rfl⟩

/-- A missing page is filled in, as far as predicted, unless no line can hold its tag. -/
theorem replacePage_answers {cache : CacheSettings} {block : Nat} {o : Organisation}
    (held : c.sets[split.set]? = some set) (organised : c.organisation = o)
    (coherent : set.Coherent) (built : set.Built cache) (kind : set.kind = .page)
    (missing : set.find? split.tag = none) (hblock : block < maxBlocks) (access : Access) :
    Does (replacePage access split block) c
      (fun _ c' => c.Answered split.set split.tag block (o.predicted block).blocks set .miss c' ∧
        c'.counts.classes = c.counts.classes)
      (fun _ c' => c.Abandoned split.set split.tag block (o.predicted block).blocks set c') := by
  subst organised
  have tracked : set.kind.tracksBlocks = true := by
    rw [kind]
    rfl
  have asked : set.blockOf block = block := by rw [CacheSet.blockOf, if_pos tracked]
  rcases CacheSet.chooseVictim_of_coherent coherent with ⟨way, set₁, chosen, hway, alike⟩
  have ranking := CacheSet.chooseVictim_ranking chosen
  unfold replacePage
  refine .bind (predict_predicts block) ?_
  rintro ⟨key, prediction⟩ c₁ ⟨rfl, sets, counts⟩
  refine .setAt_bind (sets ▸ held) ?_
  rw [chosen]
  refine .storeSet_bind ?_
  by_cases htag : split.tag = noTag
  · rw [htag, CacheSet.fill_noTag hway]
    exact .refused_bind (.of_alike alike ranking (by rw [sets]))
  · obtain ⟨evicted, set₂, set₃, filled, marked, answers⟩ :=
      coherent.replacement_answers built missing htag (asked.symm ▸ hblock) access
        (c.organisation.predicted block) key
    rw [chosen] at filled marked
    rw [asked, if_pos tracked] at answers
    rw [filled]
    refine .attempt_bind (.storeSet_bind ?_)
    rw [marked]
    refine .attempt_bind (.storeSet_bind ?_)
    refine .bind (learn_learns evicted) ?_
    rintro _ c₂ ⟨sets₂, counts₂⟩
    refine .pure ⟨⟨set₃, answers, ?_⟩, ?_⟩
    · rw [sets₂]
      simp only [sets, Array.setIfInBounds_setIfInBounds]
    · rw [counts₂]
      exact congrArg CacheCounts.classes counts

/-- A request for a block of a page is served as the shelf says. -/
theorem servePage_counts {cache : CacheSettings} (held : c.sets[split.set]? = some set)
    (coherent : set.Coherent) (built : set.Built cache) (kind : set.kind = .page)
    (hblock : split.offset / c.blockSize < maxBlocks) (arrival : Time) (access : Access) :
    Does (servePage arrival split access) c
      (fun _ c' => ∃ found, c.Counted split.set split.tag (split.offset / c.blockSize)
        (c.organisation.predicted (split.offset / c.blockSize)).blocks set found c')
      (fun _ c' => c.Abandoned split.set split.tag (split.offset / c.blockSize)
        (c.organisation.predicted (split.offset / c.blockSize)).blocks set c') := by
  have asked : set.blockOf (split.offset / c.blockSize) = split.offset / c.blockSize := by
    simp [CacheSet.blockOf, kind, SetKind.tracksBlocks]
  unfold servePage
  refine .theController_bind (.setAt_bind held (.bind (transfer_before held _ _ _ _) ?_))
  intro _ c₁ aside
  refine .setAt_bind (aside.sets ▸ held) ?_
  cases lookup : set.find? split.tag with
  | some way =>
      obtain ⟨found, set₁, accessed, here, answers⟩ :=
        coherent.access_answers lookup (asked.symm ▸ hblock) access
          (c.organisation.predicted (split.offset / c.blockSize)).blocks
      rw [asked] at answers
      rw [accessed]
      refine .storeSet_bind ?_
      have answered : ∀ c₂ : Controller, c₂.sets = c₁.sets.setIfInBounds split.set set₁ →
          c.Answered split.set split.tag (split.offset / c.blockSize)
            (c.organisation.predicted (split.offset / c.blockSize)).blocks set found c₂ :=
        fun c₂ stored => ⟨set₁, answers, by rw [stored, aside.sets]⟩
      cases found with
      | miss => exact absurd rfl here
      | hit =>
          have counted := Counted.mk (answered
            { c₁ with sets := c₁.sets.setIfInBounds split.set set₁ } rfl) aside.classes
          exact (transfer_after counted _ _ _ _).mono (fun _ _ done => ⟨.hit, done⟩)
            fun _ _ failed => failed
      | blockMiss =>
          refine .count_bind (.load_bind ?_)
          have counted : c.Counted split.set split.tag (split.offset / c.blockSize)
              (c.organisation.predicted (split.offset / c.blockSize)).blocks set .blockMiss
              (Controller.modifyCounts { c₁ with sets := c₁.sets.setIfInBounds split.set set₁ }
                fun n =>
                  { n with
                    misses := n.misses + 1
                    blockMisses := n.blockMisses + 1
                    loadedBlocks := n.loadedBlocks + 1 }) := by
            refine ⟨answered _ rfl, ?_⟩
            rw [← aside.classes]
            rfl
          exact (transfer_after counted _ _ _ _).mono (fun _ _ done => ⟨.blockMiss, done⟩)
            fun _ _ failed => failed
  | none =>
      rcases CacheSet.access_of_missing lookup access (split.offset / c.blockSize) with
        ⟨set₁, accessed, alike⟩
      have ranking := CacheSet.access_ranking set access split.tag (split.offset / c.blockSize)
      rw [accessed] at ranking ⊢
      have build := alike.sameBuild ranking
      have stored : ({ c₁ with sets := c₁.sets.setIfInBounds split.set set₁ } : Controller).sets =
          c.sets.setIfInBounds split.set set₁ := by rw [← aside.sets]
      have kept : ({ c₁ with sets := c₁.sets.setIfInBounds split.set set₁ } :
          Controller).sets[split.set]? = some set₁ := by
        rw [stored, getElem?_setIfInBounds_of_some held]
      have replaced := replacePage_answers kept aside.organisation (alike.coherent coherent)
        (build.built built) (alike.kind.trans kind) ((alike.find? _).trans lookup) hblock access
      refine .storeSet_bind (.bind (replaced.mono (fun _ _ done => done)
        fun _ _ failed => failed.of_alike_left alike ranking stored) ?_)
      rintro ⟨blocks, dirty⟩ c₂ ⟨answered, classes⟩
      refine .count_bind (.load_bind (.stream_bind ?_))
      have counted : c.Counted split.set split.tag (split.offset / c.blockSize)
          (c.organisation.predicted (split.offset / c.blockSize)).blocks set .miss
          (c₂.modifyCounts fun n =>
            { n with
              misses := n.misses + 1
              pageMisses := n.pageMisses + 1
              loadedBlocks := n.loadedBlocks + blocks
              writebackBlocks := n.writebackBlocks + dirty }) := by
        refine ⟨answered.of_alike alike ranking stored, ?_⟩
        rw [← aside.classes, ← classes]
        rfl
      exact (transfer_after counted _ _ _ _).mono (fun _ _ done => ⟨.miss, done⟩)
        fun _ _ failed => failed

/-- A request to a set is served as the shelf says. -/
theorem serveSet_counts (h : c.Sound s) (design : s.cache.design ≠ .constant)
    (held : c.sets[split.set]? = some set) (built : set.Built s.cache)
    (small : s.cache.design = .unison → split.offset / c.blockSize < maxBlocks) (arrival : Time)
    (size : Nat) (access : Access) :
    let block := c.organisation.wanted c.blockSize split.offset
    let predicted := (c.organisation.predicted block).blocks
    Does (serveSet c.organisation arrival size split access) c
      (fun _ c' => ∃ found, c.Counted split.set split.tag block predicted set found c')
      (fun _ c' => c.Abandoned split.set split.tag block predicted set c') := by
  intro block predicted
  have fits := h.stored.fits split.set set held
  have kind := fits.kind
  cases organised : c.organisation with
  | segments _ => exact absurd (by rw [← h.design, organised]; rfl) design
  | blocks =>
      have alloy : s.cache.design = .alloy := by rw [← h.design, organised]; rfl
      rw [if_pos alloy] at kind
      have first : block = 0 := by simp only [block, organised, Organisation.wanted]
      have nothing : predicted = ∅ := by
        simp only [predicted, organised, Organisation.predicted, BlockSet.blocks_empty]
      rw [nothing, first]
      exact serveBlock_counts held fits.coherent built kind arrival size access
  | pages history =>
      have unison : s.cache.design = .unison := by rw [← h.design, organised]; rfl
      rw [unison, if_neg nofun] at kind
      have offset : block = split.offset / c.blockSize := by
        simp only [block, organised, Organisation.wanted]
      simp only [predicted, offset]
      exact servePage_counts held fits.coherent built kind (small unison) arrival access

end Service

namespace Controller

variable {c : Controller} {s : Settings} {addr : Nat} {set : CacheSet}

/-- The block that a request for an address asks for. -/
def wanted (c : Controller) (addr : Nat) : Nat :=
  c.organisation.wanted c.blockSize (c.splitOf addr).offset

/-- The blocks that come with the one asked for, if its tag is missing. -/
def predicted (c : Controller) (addr : Nat) : Finset Nat :=
  (c.organisation.predicted (c.wanted addr)).blocks

/-- A request that does not go past the cache is answered by its set. -/
theorem Sound.request_counts (valid : s.Valid) (h : c.Sound s) (design : s.cache.design ≠ .constant)
    (small : addr < 2 ^ addressBits) (held : c.settled.sets[(c.splitOf addr).set]? = some set)
    (built : set.Built s.cache) (used : c.layer.disabled set.placement.place = false) (time : Time)
    (size : Nat) (access : Access) :
    match (c.request time size addr access).1.fault with
    | none => ∃ found, c.settled.Counted (c.splitOf addr).set (c.splitOf addr).tag (c.wanted addr)
        (c.predicted addr) set found (c.request time size addr access).2
    | some _ => c.settled.Abandoned (c.splitOf addr).set (c.splitOf addr).tag (c.wanted addr)
        (c.predicted addr) set (c.request time size addr access).2 := by
  refine h.request_sets
    (Q := fun c' => ∃ found, c.settled.Counted (c.splitOf addr).set (c.splitOf addr).tag
      (c.wanted addr) (c.predicted addr) set found c')
    (E := fun _ c' => c.settled.Abandoned (c.splitOf addr).set (c.splitOf addr).tag (c.wanted addr)
      (c.predicted addr) set c')
    design small held time size access (fun gone => absurd gone (by simp [used])) ?_
  intro _ c₁ enters sound
  have split : c₁.splitter.split (c.address addr) = c.splitOf addr := by
    rw [enters.splitter, splitOf]
  have found : c₁.sets[(c.splitOf addr).set]? = some set := by
    rw [enters.sets]
    exact held
  have served := Service.serveSet_counts sound design found built
    (fun unison => split ▸ sound.block_lt valid unison (c.address addr)) (c.order time).1 size access
  simp only [enters.organisation, enters.blockSize] at served
  refine served.mono ?_ ?_
  · rintro _ c' ⟨found, ⟨set', answers, sets⟩, classes⟩
    refine ⟨found, ⟨set', answers, ?_⟩, ?_⟩
    · rw [sets, enters.sets]
    · rw [classes, enters.classes, settled_classes]
  · rintro _ c' ⟨set', build, sets, shelf⟩
    refine ⟨set', build, ?_, shelf⟩
    rw [sets, enters.sets]

end Controller

end StackedCache
