import StackedCache.Proofs.Service.Balance

/-!
# Requests served by design

Each design serves a request so that the controller stays sound and the balance of blocks is kept.
If banks and rows of the stack were counted exactly, the only fault is that of a tag that no line
can hold.
-/

namespace StackedCache

namespace Controller

variable {c c' c₁ : Controller} {s : Settings} {access : Access} {row : Location} {refused : Prop}

/-- A request, or a part of it, has been served. -/
structure Served (s : Settings) (access : Access) (c c' : Controller) : Prop where
  sound : c'.Sound s
  balanced : c.Balanced access c'

/-- A request has failed: the stack is not what the settings say, or the tag has been refused. -/
def Failed (s : Settings) (access : Access) (c : Controller) (refused : Prop) (fault : Fault)
    (c' : Controller) : Prop :=
  c.Served s access c' ∧
    (¬s.stack.CountsFit ∨ fault = .cache (.lookupMiss noTag) ∧ refused)

theorem Sound.served (h : c.Sound s) (framed : c'.Framed s) (beside : c.Beside c') :
    c.Served s access c' :=
  ⟨⟨framed, beside.sets ▸ h.stored⟩, .of_beside h.stored beside⟩

theorem Served.beside (h : c.Served s access c₁) (framed : c'.Framed s) (beside : c₁.Beside c') :
    c.Served s access c' :=
  ⟨⟨framed, beside.sets ▸ h.sound.stored⟩, h.balanced.beside beside⟩

/-- Some blocks of a set have been exchanged and counted. -/
theorem Sound.exchanged {i loaded writeback : Nat} {set set' : CacheSet} (h : c.Sound s)
    (found : c.sets[i]? = some set) (exchange : set.Exchange access set' loaded writeback)
    (framed : c'.Framed s) (sets : c'.sets = c.sets.setIfInBounds i set')
    (writebacks : c'.counts.writebackBlocks = c.counts.writebackBlocks + writeback)
    (loads : c'.counts.loadedBlocks = c.counts.loadedBlocks + loaded)
    (invalidated : c'.counts.invalidatedBlocks = c.counts.invalidatedBlocks) :
    c.Served s access c' :=
  ⟨⟨framed, sets ▸ h.stored.withSet (exchange.fits (h.stored.fits i set found))⟩,
    .of_exchange h.stored found exchange sets writebacks loads invalidated⟩

/-- A block that was there has been accessed. -/
theorem Sound.touched {i : Nat} {set set' : CacheSet} (h : c.Sound s)
    (found : c.sets[i]? = some set) (exchange : set.Exchange access set' 0 0)
    (framed : c₁.Framed s) (beside : c.Beside c₁) :
    c.Served s access { c₁ with sets := c₁.sets.setIfInBounds i set' } :=
  h.exchanged found exchange (framed.withSets _) (by rw [beside.sets]) beside.writebackBlocks
    beside.loadedBlocks beside.invalidatedBlocks

/-- Some blocks of a set have been exchanged and not counted yet. -/
structure Exchanged (s : Settings) (access : Access) (i : Nat) (set : CacheSet)
    (loaded writeback : Nat) (c c' : Controller) : Prop where
  framed : c'.Framed s
  counts : c'.counts = c.counts
  sets : ∃ set', set.Exchange access set' loaded writeback ∧
    c'.sets = c.sets.setIfInBounds i set'

/-- An exchange after a lookup that has missed is balanced once it is counted. -/
theorem Exchanged.served {i loaded writeback : Nat} {set set₁ : CacheSet}
    {f : CacheCounts → CacheCounts} (h : c.Sound s) (found : c.sets[i]? = some set)
    (alike : set.Alike set₁) (beside : c.Beside c₁)
    (exchanged : Exchanged s access i set₁ loaded writeback
      { c₁ with sets := c₁.sets.setIfInBounds i set₁ } c')
    (writebacks : ∀ n, (f n).writebackBlocks = n.writebackBlocks + writeback)
    (loads : ∀ n, (f n).loadedBlocks = n.loadedBlocks + loaded)
    (invalidated : ∀ n, (f n).invalidatedBlocks = n.invalidatedBlocks) :
    c.Served s access (c'.modifyCounts f) := by
  rcases exchanged with ⟨framed, counts, set₂, exchange, sets⟩
  have counts : c'.counts = c₁.counts := counts
  refine h.exchanged found (.of_alike alike exchange) (framed.modifyCounts f) ?_ ?_ ?_ ?_
  · simp only [modifyCounts, sets, beside.sets, Array.setIfInBounds_setIfInBounds]
  · rw [modifyCounts, writebacks, counts, beside.writebackBlocks]
  · rw [modifyCounts, loads, counts, beside.loadedBlocks]
  · rw [modifyCounts, invalidated, counts, beside.invalidatedBlocks]

/-- If the tag is refused, nothing has been exchanged. -/
theorem Exchanged.failed {i : Nat} {set set₁ : CacheSet} (h : c.Sound s)
    (found : c.sets[i]? = some set) (alike : set.Alike set₁) (beside : c.Beside c₁)
    (exchanged : Exchanged s access i set₁ 0 0
      { c₁ with sets := c₁.sets.setIfInBounds i set₁ } c') (yes : refused) :
    c.Failed s access refused (.cache (.lookupMiss noTag)) c' :=
  ⟨exchanged.served (f := id) h found alike beside (fun _ => rfl) (fun _ => rfl) fun _ => rfl,
    .inr ⟨rfl, yes⟩⟩

/-- A transfer before anything has happened to the sets. -/
theorem Sound.transfer (h : c.Sound s) (has : HasRow s row) (arrival : Time) (direction : Access)
    (bytes : Nat) :
    Does (Service.transfer arrival direction bytes row) c (fun _ c' => c'.Framed s ∧ c.Beside c')
      (c.Failed s access refused) :=
  (h.toFramed.transfer has arrival direction bytes).mono (fun _ _ kept => kept)
    fun _ _ ⟨framed, beside, unfit⟩ => ⟨h.served framed beside, .inl unfit⟩

/-- A transfer after all has happened to the sets. -/
theorem Served.transfer (h : c.Served s access c₁) (has : HasRow s row) (arrival : Time)
    (direction : Access) (bytes : Nat) :
    Does (Service.transfer arrival direction bytes row) c₁ (fun _ c' => c.Served s access c')
      (c.Failed s access refused) :=
  (h.sound.toFramed.transfer has arrival direction bytes).mono
    (fun _ _ ⟨framed, beside⟩ => h.beside framed beside)
    fun _ _ ⟨framed, beside, unfit⟩ => ⟨h.beside framed beside, .inl unfit⟩

/-- The last transfer of a request whose tag was not refused. -/
theorem Served.finish {accepted : Prop} (h : c.Served s access c₁) (has : HasRow s row)
    (yes : accepted) (arrival : Time) (direction : Access) (bytes : Nat) :
    Does (Service.transfer arrival direction bytes row) c₁
      (fun _ c' => c.Served s access c' ∧ accepted) (c.Failed s access refused) :=
  (h.transfer has arrival direction bytes).mono (fun _ _ done => ⟨done, yes⟩)
    fun _ _ failed => failed

end Controller

namespace Service

open Controller (Exchanged)

variable {c : Controller} {s : Settings} {split : SplitAddress} {set : CacheSet}

/-! ## Blocks with their tags -/

/-- A missing block is loaded, unless no line can hold its tag. -/
theorem replaceBlock_does (h : c.Framed s) (coherent : set.Coherent)
    (missing : set.find? split.tag = none) (access : Access) :
    Does (replaceBlock access split set) c
      (fun dirty c' => split.tag ≠ noTag ∧ Exchanged s access split.set set 1 dirty c c')
      (fun fault c' => fault = .cache (.lookupMiss noTag) ∧ split.tag = noTag ∧
        Exchanged s access split.set set 0 0 c c') := by
  rcases CacheSet.chooseVictim_of_coherent coherent with ⟨way, set₁, chosen, hway, alike⟩
  have coherent₁ := alike.coherent coherent
  unfold replaceBlock
  rw [chosen]
  refine .storeSet_bind ?_
  -- The fill refuses the tag before it writes, so the set keeps its content.
  by_cases htag : split.tag = noTag
  · rw [htag, CacheSet.fill_noTag hway]
    have same := coherent.exchange_alike alike access
    exact .refused_bind ⟨rfl, rfl, h.withSets _, rfl, set₁, same, rfl⟩
  · have hblock : set₁.blockOf 0 < maxBlocks := by
      unfold CacheSet.blockOf
      split <;> decide
    obtain ⟨evicted, set₂, set₃, filled, marked, exchange⟩ :=
      coherent₁.exchange_replace hway ((alike.find? _).trans missing) htag hblock access .empty 0
    -- Nothing is predicted for a block, so the block itself is all that is loaded.
    have one : ((if set₁.kind.tracksBlocks then BlockSet.empty else .empty).insert
        (set₁.blockOf 0)).count = 1 := by
      rw [ite_self, BlockSet.count_insert, BlockSet.count_empty, BlockSet.contains_empty]
      rfl
    rw [one] at exchange
    rw [filled]
    refine .attempt_bind (.storeSet_bind ?_)
    rw [marked]
    refine .attempt_bind (.storeSet_bind (.pure ⟨htag, ?_⟩))
    refine ⟨((h.withSets _).withSets _).withSets _, rfl, set₃, .of_alike alike exchange, ?_⟩
    simp only [Array.setIfInBounds_setIfInBounds]

theorem serveBlock_does (h : c.Sound s) (design : s.cache.design = .alloy)
    (found : c.sets[split.set]? = some set) (arrival : Time) (size : Nat) (access : Access) :
    Does (serveBlock arrival size split access) c
      (fun _ c' => c.Served s access c' ∧ split.tag ≠ noTag)
      (c.Failed s access (split.tag = noTag)) := by
  have fits := h.stored.fits split.set set found
  unfold serveBlock
  -- The tag is read from the stack before the set is asked.
  refine .setAt_bind found (.bind (h.transfer fits.placed _ _ _) ?_)
  rintro _ c₁ ⟨framed, beside⟩
  refine .setAt_bind (beside.sets ▸ found) ?_
  cases lookup : set.find? split.tag with
  | some way =>
      rcases CacheSet.access_of_held lookup access 0 with
        ⟨old, set₁, hold, htag, accessed, kind, placement, content⟩
      have proper : split.tag ≠ noTag := fun heq =>
        fits.coherent.proper old (List.mem_of_getElem? hold) (heq ▸ htag)
      have direct : set.kind = .directBlock := by rw [fits.kind, design, if_pos rfl]
      -- A line of one block that has a tag has its block, so a lookup cannot miss the block alone.
      have present : old.valid.contains (set.blockOf 0) = true := by
        have asked : set.blockOf 0 = 0 := by simp [CacheSet.blockOf]
        rw [asked]
        exact fits.coherent.direct direct old (List.mem_of_getElem? hold)
          (by simp [Line.isValid, htag])
      have exchange := fits.coherent.exchange_touch kind placement content hold htag
      rw [if_pos present] at exchange
      rw [accessed]
      simp only [present, if_true]
      refine .storeSet_bind ?_
      simp only [reduceCtorEq, if_false]
      have served := h.touched found exchange framed beside
      exact served.finish fits.placed proper arrival access size
  | none =>
      rcases CacheSet.access_of_missing lookup access 0 with ⟨set₁, accessed, alike⟩
      rw [accessed]
      refine .storeSet_bind ?_
      simp only [if_true]
      refine .bind (.mono (replaceBlock_does (framed.withSets _) (alike.coherent fits.coherent)
        ((alike.find? _).trans lookup) access) (fun _ _ done => done) ?_) ?_
      · rintro fault c₂ ⟨rfl, htag, exchanged⟩
        exact exchanged.failed h found alike beside htag
      · rintro dirty c₂ ⟨proper, exchanged⟩
        refine .count_bind (.theController_bind ?_)
        have served := exchanged.served h found alike beside (f := fun n =>
          { n with
            misses := n.misses + 1
            pageMisses := n.pageMisses + 1
            loadedBlocks := n.loadedBlocks + 1
            writebackBlocks := n.writebackBlocks + dirty })
          (fun _ => rfl) (fun _ => rfl) fun _ => rfl
        refine .bind (served.transfer fits.placed arrival .write _) ?_
        intro _ c₄ served
        refine .load_bind (.stream_bind ?_)
        exact served.finish fits.placed proper arrival access size

/-! ## Pages with predicted footprints -/

variable {access : Access} {block : Nat} {E : Fault → Controller → Prop}

/-- A prediction changes the history only. -/
theorem predict_does (h : c.Framed s) (block : Nat) :
    Does (predict block) c
      (fun _ c' => c'.Framed s ∧ c'.sets = c.sets ∧ c'.counts = c.counts) E := by
  unfold predict
  refine .theController_bind ?_
  cases organised : c.organisation with
  | pages history =>
      refine .modifyController_bind (.pure ⟨h.withOrganisation ?_, rfl, rfl⟩)
      rw [organised]
      rfl
  | blocks => exact .pure ⟨h, rfl, rfl⟩
  | segments _ => exact .pure ⟨h, rfl, rfl⟩

/-- What is learnt changes the history only. -/
theorem learn_does (h : c.Framed s) (evicted : Eviction) :
    Does (learn evicted) c
      (fun _ c' => c'.Framed s ∧ c'.sets = c.sets ∧ c'.counts = c.counts) E := by
  unfold learn
  refine .theController_bind ?_
  cases organised : c.organisation with
  | pages history =>
      refine .ite (fun _ => .modifyController ⟨h.withOrganisation ?_, rfl, rfl⟩) fun _ => ?_
      · rw [organised]
        rfl
      · exact .pure ⟨h, rfl, rfl⟩
  | blocks => exact .pure ⟨h, rfl, rfl⟩
  | segments _ => exact .pure ⟨h, rfl, rfl⟩

/-- A missing page is loaded, as far as predicted, unless no line can hold its tag. -/
theorem replacePage_does (h : c.Framed s) (found : c.sets[split.set]? = some set)
    (coherent : set.Coherent) (kind : set.kind = .page) (missing : set.find? split.tag = none)
    (hblock : block < maxBlocks) (access : Access) :
    Does (replacePage access split block) c
      (fun moved c' => split.tag ≠ noTag ∧
        Exchanged s access split.set set moved.1 moved.2 c c')
      (fun fault c' => fault = .cache (.lookupMiss noTag) ∧ split.tag = noTag ∧
        Exchanged s access split.set set 0 0 c c') := by
  rcases CacheSet.chooseVictim_of_coherent coherent with ⟨way, set₁, chosen, hway, alike⟩
  have coherent₁ := alike.coherent coherent
  have kind₁ : set₁.kind = .page := alike.kind.trans kind
  unfold replacePage
  refine .bind (predict_does h block) ?_
  rintro ⟨key, prediction⟩ c₁ ⟨framed, sets, counts⟩
  refine .setAt_bind (sets ▸ found) ?_
  rw [chosen]
  refine .storeSet_bind ?_
  -- As for blocks, but the history has already been asked for a prediction.
  by_cases htag : split.tag = noTag
  · rw [htag, CacheSet.fill_noTag hway]
    have same := coherent.exchange_alike alike access
    refine .refused_bind ⟨rfl, rfl, framed.withSets _, counts, set₁, same, ?_⟩
    rw [sets]
  · have asked : set₁.blockOf block = block := by
      simp [CacheSet.blockOf, kind₁, SetKind.tracksBlocks]
    obtain ⟨evicted, set₂, set₃, filled, marked, exchange⟩ :=
      coherent₁.exchange_replace hway ((alike.find? _).trans missing) htag (asked.symm ▸ hblock)
        access prediction key
    have tracked : set₁.kind.tracksBlocks = true := by
      rw [kind₁]
      rfl
    rw [asked, if_pos tracked] at exchange
    rw [filled]
    refine .attempt_bind (.storeSet_bind ?_)
    rw [marked]
    refine .attempt_bind (.storeSet_bind ?_)
    refine .bind (learn_does (((framed.withSets _).withSets _).withSets _) evicted) ?_
    rintro _ c₂ ⟨framed₂, sets₂, counts₂⟩
    refine .pure ⟨htag, framed₂, counts₂.trans counts, set₃, .of_alike alike exchange, ?_⟩
    rw [sets₂]
    simp only [sets, Array.setIfInBounds_setIfInBounds]

theorem servePage_does (h : c.Sound s) (design : s.cache.design = .unison)
    (found : c.sets[split.set]? = some set) (hblock : split.offset / c.blockSize < maxBlocks)
    (arrival : Time) (access : Access) :
    Does (servePage arrival split access) c
      (fun _ c' => c.Served s access c' ∧ split.tag ≠ noTag)
      (c.Failed s access (split.tag = noTag)) := by
  have fits := h.stored.fits split.set set found
  have kind : set.kind = .page := by
    rw [fits.kind, design]
    rfl
  unfold servePage
  refine .theController_bind (.setAt_bind found (.bind (h.transfer fits.placed _ _ _) ?_))
  rintro _ c₁ ⟨framed, beside⟩
  refine .setAt_bind (beside.sets ▸ found) ?_
  cases lookup : set.find? split.tag with
  | some way =>
      rcases CacheSet.access_of_held lookup access (split.offset / c.blockSize) with
        ⟨old, set₁, hold, htag, accessed, kind₁, placement, content⟩
      have proper : split.tag ≠ noTag := fun heq =>
        fits.coherent.proper old (List.mem_of_getElem? hold) (heq ▸ htag)
      have exchange := fits.coherent.exchange_touch kind₁ placement content hold htag
      rw [accessed]
      refine .storeSet_bind ?_
      -- The page is there; its block may not have been predicted.
      by_cases present : old.valid.contains (set.blockOf (split.offset / c.blockSize)) = true
      · rw [if_pos present] at exchange
        simp only [if_pos present]
        have served := h.touched found exchange framed beside
        exact served.finish fits.placed proper arrival access _
      · rw [if_neg present] at exchange
        simp only [if_neg present]
        refine .count_bind (.load_bind ?_)
        have served := h.exchanged found exchange
          ((framed.withSets (c₁.sets.setIfInBounds split.set set₁)).modifyCounts fun n =>
            { n with
              misses := n.misses + 1
              blockMisses := n.blockMisses + 1
              loadedBlocks := n.loadedBlocks + 1 })
          (by rw [Controller.modifyCounts, beside.sets]) beside.writebackBlocks
          (congrArg (· + 1) beside.loadedBlocks) beside.invalidatedBlocks
        exact served.finish fits.placed proper arrival .write _
  | none =>
      rcases CacheSet.access_of_missing lookup access (split.offset / c.blockSize) with
        ⟨set₁, accessed, alike⟩
      -- The missed lookup has been stored, so the replacement finds this set and not the old one.
      have kept : (c₁.sets.setIfInBounds split.set set₁)[split.set]? = some set₁ := by
        rcases Array.getElem?_eq_some_iff.1 found with ⟨hlt, _⟩
        rw [Array.getElem?_setIfInBounds_self, if_pos (beside.sets ▸ hlt)]
      rw [accessed]
      refine .storeSet_bind ?_
      refine .bind (.mono (replacePage_does (framed.withSets _) kept
        (alike.coherent fits.coherent) (alike.kind.trans kind) ((alike.find? _).trans lookup)
        hblock access) (fun _ _ done => done) ?_) ?_
      · rintro fault c₂ ⟨rfl, htag, exchanged⟩
        exact exchanged.failed h found alike beside htag
      · rintro ⟨blocks, dirty⟩ c₂ ⟨proper, exchanged⟩
        refine .count_bind (.load_bind (.stream_bind ?_))
        have served := exchanged.served h found alike beside (f := fun n =>
          { n with
            misses := n.misses + 1
            pageMisses := n.pageMisses + 1
            loadedBlocks := n.loadedBlocks + blocks
            writebackBlocks := n.writebackBlocks + dirty })
          (fun _ => rfl) (fun _ => rfl) fun _ => rfl
        exact served.finish fits.placed proper arrival .write _

/-! ## Segments -/

/-- The step keeps the frame, does not touch the sets, and fails only if banks or rows were not
counted exactly. -/
def Keeps {α : Type} (s : Settings) (m : Serving α) (c : Controller) : Prop :=
  Does m c (fun _ c' => c'.Framed s ∧ c.Beside c')
    fun _ c' => c'.Framed s ∧ c.Beside c' ∧ ¬s.stack.CountsFit

namespace Keeps

variable {α β : Type} {m : Serving α} {f : α → Serving β}

theorem pure {a : α} (h : c.Framed s) : Keeps s (Pure.pure a : Serving α) c :=
  Does.pure (a := a) ⟨h, .rfl⟩

theorem bind (first : Keeps s m c) (rest : ∀ a c', c'.Framed s → Keeps s (f a) c') :
    Keeps s (m >>= f) c := by
  refine Does.bind first fun a c₁ ⟨framed, beside⟩ => ?_
  refine (rest a c₁ framed).mono (fun _ _ kept => ⟨kept.1, beside.trans kept.2⟩) ?_
  exact fun _ _ failed => ⟨failed.1, beside.trans failed.2.1, failed.2.2⟩

theorem theController_bind {f : Controller → Serving β} (h : Keeps s (f c) c) :
    Keeps s (theController >>= f) c := h

theorem ite {p : Prop} [Decidable p] {m' : Serving α} (yes : Keeps s m c) (no : Keeps s m' c) :
    Keeps s (if p then m else m') c :=
  Does.ite (fun _ => yes) fun _ => no

theorem count {g : CacheCounts → CacheCounts} (h : c.Framed s)
    (writebacks : (g c.counts).writebackBlocks = c.counts.writebackBlocks)
    (loads : (g c.counts).loadedBlocks = c.counts.loadedBlocks)
    (invalidated : (g c.counts).invalidatedBlocks = c.counts.invalidatedBlocks) :
    Keeps s (count g) c :=
  .modifyController ⟨h.modifyCounts g, rfl, writebacks, loads, invalidated⟩

theorem stream {bytes : Nat} (h : c.Framed s) : Keeps s (stream bytes) c :=
  fun _ => ⟨h, .rfl⟩

end Keeps

/-- Every address is in a row of the stack. -/
theorem hasRow_locate (valid : s.Valid) (h : c.Framed s) (addr : Nat) :
    Controller.HasRow s (c.stack.locate addr) := by
  intro fits
  unfold Stack.locate
  -- Fields of an address are cut out by masks, so no address is beyond the stack.
  rw [(h.stack fits).geometry]
  exact Geometry.locateAddress_held (valid.stack.regular fits) addr _

theorem accessSegment_keeps (h : c.Framed s) (index slot : Nat) :
    Keeps s (accessSegment index slot) c := by
  unfold accessSegment
  refine .theController_bind ?_
  -- The other designs have no segments and do not get here.
  cases organised : c.organisation with
  | segments segments =>
      dsimp only
      cases segments[index]? with
      | none => exact .pure h
      | some segment =>
          refine .modifyController_bind (.pure ⟨h.withOrganisation ?_, rfl, rfl, rfl, rfl⟩)
          rw [organised]
          rfl
  | blocks => exact .pure h
  | pages _ => exact .pure h

theorem copyRows_keeps (valid : s.Valid) (arrival : Time) (base rowSize n row : Nat)
    (h : c.Framed s) : Keeps s (copyRows arrival base rowSize n row) c := by
  -- Each row is read and written by transfers, after which the frame is as before.
  induction n generalizing c row with
  | zero => exact .pure h
  | succ n ih =>
      have has := hasRow_locate valid h (base + row * rowSize)
      refine .theController_bind (.bind (h.transfer has arrival .read rowSize) ?_)
      intro _ c₁ framed₁
      refine .bind (framed₁.transfer has arrival .write rowSize) ?_
      intro _ c₂ framed₂
      exact ih (row + 1) framed₂

theorem swapSegment_keeps (valid : s.Valid) (arrival : Time) (index : Nat) (h : c.Framed s) :
    Keeps s (swapSegment arrival index) c := by
  refine .theController_bind (.bind (.count h rfl rfl rfl) fun _ c₁ framed₁ => ?_)
  refine .bind (copyRows_keeps valid arrival _ _ _ _ framed₁) ?_
  intro _ c₂ framed₂
  exact .stream framed₂

theorem serveSegment_keeps (valid : s.Valid) (arrival : Time) (size addr : Nat) (access : Access)
    (h : c.Framed s) : Keeps s (serveSegment arrival size addr access) c := by
  unfold serveSegment
  refine .theController_bind ?_
  cases organised : c.organisation with
  | blocks => exact .pure h
  | pages _ => exact .pure h
  | segments segments =>
      refine .bind (accessSegment_keeps h _ _) ?_
      intro found c₁ framed₁
      -- The block ends alike in all its branches, so the endings are proved first.
      have data : ∀ c₂ : Controller, c₂.Framed s → Keeps s (do
          transfer arrival access size ((← theController).stack.locate addr)) c₂ :=
        fun c₂ framed₂ => .theController_bind
          (framed₂.transfer (hasRow_locate valid framed₂ addr) arrival access size)
      have counted : ∀ c₂ : Controller, c₂.Framed s → Keeps s (do
          if found.hit then
            count fun n => { n with segmentHits := n.segmentHits + 1 }
          else
            count fun n => { n with misses := n.misses + 1 }
            stream size
          transfer arrival access size ((← theController).stack.locate addr)) c₂ := by
        intro c₂ framed₂
        refine .ite (.bind (.count framed₂ rfl rfl rfl) fun _ => data) ?_
        refine .bind (.count framed₂ rfl rfl rfl) ?_
        intro _ c₃ framed₃
        exact .bind (.stream framed₃) fun _ => data
      refine .ite (.bind (swapSegment_keeps valid arrival _ framed₁) fun _ => ?_) ?_
      · exact counted
      · exact counted c₁ framed₁

end Service

end StackedCache
