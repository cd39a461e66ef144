import StackedCache.Proofs.Service.Forgetting
import StackedCache.Proofs.Service.Repeat

/-!
# What a request does to a page

A request for a block of a page does two things that later requests depend on: it changes one line of
its set, and it may teach the history what the line that had to go was used for.  `Visited` says
which, whatever the time and the transfers that the request has taken.  A request that fails has done
neither: after the first transfer, all others are to the same row and succeed as well.
-/

namespace StackedCache

namespace Organisation

variable {o : Organisation} {old : Line}

/-- The key kept with a page that is filled because of a block. -/
def key (block : Nat) : Organisation → Nat
  | pages history => history.key block
  | _ => 0

/-- The organisation once a line has been displaced. -/
def taught (old : Line) : Organisation → Organisation
  | pages history =>
      pages (if old.isValid then history.record old.trigger old.footprint else history)
  | o => o

theorem taught_resetCounts (o : Organisation) (old : Line) :
    (o.resetCounts.taught old).resetCounts = (o.taught old).resetCounts := by
  cases o with
  | pages history => cases valid : old.isValid <;> simp [taught, resetCounts, valid] <;> rfl
  | blocks => rfl
  | segments _ => rfl

end Organisation

/-- A request for a block of a tag has turned a set and what is predicted into others, and has loaded
some blocks. -/
inductive Visited (access : Access) (tag block : Nat) (set : CacheSet) (o : Organisation) :
    CacheSet → Organisation → Nat → Prop where
  /-- The tag was there, and the block is afterwards. -/
  | demand {set' : CacheSet} {o' : Organisation} {loaded way : Nat} {old : Line}
      (hold : set.content[way]? = some old) (held : old.tag = some tag)
      (content : set'.content = set.content.modify way (·.touchBlock access block))
      (same : o'.resetCounts = o.resetCounts) (few : loaded ≤ 1) :
      Visited access tag block set o set' o' loaded
  /-- The tag has taken the place of another one, or of none, with all blocks predicted. -/
  | fill {set' : CacheSet} {o' : Organisation} {way : Nat} {old : Line}
      (hold : set.content[way]? = some old) (missing : set.find? tag = none)
      (content : set'.content = set.content.modify way fun l =>
        (l.fill tag (o.predicted block) (o.key block)).touchBlock access block)
      (taught : o'.resetCounts = (o.taught old).resetCounts) :
      Visited access tag block set o set' o' ((o.predicted block).insert block).count

/-- Ranks and counts of the set have no part in it. -/
theorem Visited.of_alike {access : Access} {tag block loaded : Nat} {set set₁ set' : CacheSet}
    {o o' : Organisation} (alike : set.Alike set₁)
    (h : Visited access tag block set₁ o set' o' loaded) :
    Visited access tag block set o set' o' loaded := by
  cases h with
  | demand hold held content same few =>
      rw [alike.content] at hold content
      exact .demand hold held content same few
  | fill hold missing content taught =>
      rw [alike.content] at hold content
      exact .fill hold ((alike.find? tag).symm.trans missing) content taught

namespace Controller

variable {c c' c₁ : Controller} {i tag block : Nat} {access : Access} {set set₁ : CacheSet}

/-- The set at an index has been visited. -/
structure ServesPage (access : Access) (i tag block : Nat) (set : CacheSet) (c c' : Controller) : Prop
    where
  visited : ∃ set' loaded, Visited access tag block set c.organisation set' c'.organisation loaded ∧
    c'.sets = c.sets.setIfInBounds i set' ∧
    c'.counts.loadedBlocks = c.counts.loadedBlocks + loaded

/-- The set holds what it held, and nothing has been learnt or loaded. -/
structure KeepsPage (i : Nat) (set : CacheSet) (c c' : Controller) : Prop where
  kept : ∃ set', set'.content = set.content ∧ c'.sets = c.sets.setIfInBounds i set'
  same : c'.organisation.resetCounts = c.organisation.resetCounts
  loadedBlocks : c'.counts.loadedBlocks = c.counts.loadedBlocks

theorem KeepsPage.of_aside (held : c.sets[i]? = some set) (aside : c.Aside c') :
    c.KeepsPage i set c' := by
  rcases Array.getElem?_eq_some_iff.1 held with ⟨hlt, rfl⟩
  refine ⟨⟨c.sets[i], rfl, ?_⟩, congrArg _ aside.organisation, congrArg _ aside.counts⟩
  rw [aside.sets, Array.setIfInBounds_def, dif_pos hlt, Array.set_getElem_self]

theorem ServesPage.aside (h : c.ServesPage access i tag block set c₁) (aside : c₁.Aside c') :
    c.ServesPage access i tag block set c' := by
  rcases h.visited with ⟨set', loaded, visited, sets, loads⟩
  refine ⟨set', loaded, ?_, aside.sets.trans sets, ?_⟩
  · rw [aside.organisation]
    exact visited
  · rw [aside.counts, loads]

end Controller

namespace Service

open Controller (ServesPage KeepsPage)

variable {c c₁ : Controller} {split : SplitAddress} {set : CacheSet} {access : Access} {block : Nat}
  {E : Fault → Controller → Prop}

theorem predict_history (block : Nat) :
    Does (predict block) c
      (fun p c' => p = (c.organisation.key block, c.organisation.predicted block) ∧
        ∃ o, c' = { c with organisation := o } ∧ o.resetCounts = c.organisation.resetCounts) E := by
  unfold predict
  refine .theController_bind ?_
  cases organised : c.organisation with
  | pages history => exact .modifyController_bind (.pure ⟨rfl, _, rfl, rfl⟩)
  | blocks => exact .pure ⟨rfl, .blocks, by rw [← organised], rfl⟩
  | segments segments => exact .pure ⟨rfl, .segments segments, by rw [← organised], rfl⟩

/-- A line that holds no tag teaches nothing. -/
theorem learn_history (old : Line) :
    Does (learn old.evicted) c
      (fun _ c' => c' = { c with organisation := c.organisation.taught old }) E := by
  unfold learn
  refine .theController_bind ?_
  cases organised : c.organisation with
  | pages history =>
      have valid : old.evicted.tag.isSome = old.isValid := rfl
      rw [valid]
      refine .ite (fun held => .modifyController ?_) fun vacant => .pure ?_
      · simp only [Organisation.taught, held, if_true]
        rfl
      · simp only [Organisation.taught, vacant, Bool.false_eq_true, if_false, ← organised]
  | blocks =>
      refine .pure ?_
      simp only [Organisation.taught, ← organised]
  | segments _ =>
      refine .pure ?_
      simp only [Organisation.taught, ← organised]

/-- A missing page is filled in, unless no line can hold its tag. -/
theorem replacePage_serves (held : c.sets[split.set]? = some set) (coherent : set.Coherent)
    (kind : set.kind = .page) (missing : set.find? split.tag = none) (hblock : block < maxBlocks)
    (access : Access) :
    Does (replacePage access split block) c
      (fun moved c' => c'.layer = c.layer ∧ c'.stack = c.stack ∧ c'.counts = c.counts ∧
        ∃ set', Visited access split.tag block set c.organisation set' c'.organisation moved.1 ∧
          c'.sets = c.sets.setIfInBounds split.set set')
      (fun _ c' => c.KeepsPage split.set set c') := by
  have tracked : set.kind.tracksBlocks = true := by
    rw [kind]
    rfl
  rcases CacheSet.chooseVictim_of_coherent coherent with ⟨way, set₁, chosen, hway, alike⟩
  have asked : set₁.blockOf block = block := by
    rw [CacheSet.blockOf, alike.kind, if_pos tracked]
  unfold replacePage
  refine .bind (predict_history block) ?_
  rintro _ _ ⟨rfl, o, rfl, same⟩
  refine .setAt_bind held ?_
  rw [chosen]
  refine .storeSet_bind ?_
  by_cases htag : split.tag = noTag
  · rw [htag, CacheSet.fill_noTag hway]
    exact .refused_bind ⟨⟨set₁, alike.content, rfl⟩, same, rfl⟩
  · obtain ⟨old, set₂, set₃, hold, filled, marked, _, _, content⟩ :=
      CacheSet.replace_of_missing hway htag ((alike.find? _).trans missing) (asked.symm ▸ hblock)
        access (c.organisation.predicted block) (c.organisation.key block)
    rw [alike.content] at hold
    rw [alike.content, asked, alike.kind, if_pos tracked] at content
    rw [filled]
    refine .attempt_bind (.storeSet_bind ?_)
    rw [marked]
    refine .attempt_bind (.storeSet_bind (.bind (learn_history old) ?_))
    rintro _ _ rfl
    have taught : (o.taught old).resetCounts = (c.organisation.taught old).resetCounts := by
      rw [← o.taught_resetCounts, same, Organisation.taught_resetCounts]
    refine .pure ⟨rfl, rfl, rfl, set₃, .fill hold missing content taught, ?_⟩
    simp only [Array.setIfInBounds_setIfInBounds]

/-- After a transfer that was served, all others to the same row are. -/
theorem transfer_serves {c₂ : Controller} {i tag : Nat} {row : Location}
    (visits : c.ServesPage access i tag block set c₂) (reaches : c₂.Reaches row) (arrival : Time)
    (direction : Access) (bytes : Nat) :
    Does (transfer arrival direction bytes row) c₂
      (fun _ c' => c.ServesPage access i tag block set c') (fun _ c' => c.KeepsPage i set c') :=
  (transfer_again reaches arrival direction bytes).mono (fun _ _ done => visits.aside done.1)
    fun _ _ failed => failed.elim

/-- A request for a block of a page visits its set, or it fails without having done so. -/
theorem servePage_serves (held : c.sets[split.set]? = some set) (coherent : set.Coherent)
    (kind : set.kind = .page) (hblock : split.offset / c.blockSize < maxBlocks) (arrival : Time)
    (access : Access) :
    Does (servePage arrival split access) c
      (fun _ c' => c.ServesPage access split.set split.tag (split.offset / c.blockSize) set c')
      (fun _ c' => c.KeepsPage split.set set c') := by
  have asked : set.blockOf (split.offset / c.blockSize) = split.offset / c.blockSize := by
    simp [CacheSet.blockOf, kind, SetKind.tracksBlocks]
  unfold servePage
  refine .theController_bind (.setAt_bind held ?_)
  refine .bind (P := fun _ c' => c.Aside c' ∧ c'.Reaches set.placement)
    (((transfer_aside _ _ _ _).and (transfer_reaches _ _ _ _)).mono (fun _ _ both => both) ?_) ?_
  · exact fun _ c' both => .of_aside held both.1
  rintro _ c₁ ⟨aside, reaches⟩
  refine .setAt_bind (aside.sets ▸ held) ?_
  cases lookup : set.find? split.tag with
  | some way =>
      rcases CacheSet.access_of_held lookup access (split.offset / c.blockSize) with
        ⟨old, set₁, hold, htag, accessed, _, _, content⟩
      rw [asked] at accessed content
      rw [accessed]
      refine .storeSet_bind ?_
      have visits : ∀ (loaded : Nat) (counts : CacheCounts), loaded ≤ 1 →
          counts.loadedBlocks = c.counts.loadedBlocks + loaded →
          c.ServesPage access split.set split.tag (split.offset / c.blockSize) set
            { c₁ with sets := c₁.sets.setIfInBounds split.set set₁, counts := counts } :=
        fun loaded counts few loads => ⟨set₁, loaded,
          .demand hold htag content (congrArg _ aside.organisation) few, by rw [aside.sets], loads⟩
      by_cases present : old.valid.contains (split.offset / c.blockSize) = true
      · rw [if_pos present]
        have counts := congrArg CacheCounts.loadedBlocks aside.counts
        exact transfer_serves (visits 0 c₁.counts (Nat.zero_le 1) counts) reaches _ _ _
      · rw [if_neg present]
        refine .count_bind (.load_bind
          (transfer_serves (visits 1 _ (Nat.le_refl 1) ?_) reaches _ _ _))
        rw [← aside.counts]
  | none =>
      rcases CacheSet.access_of_missing lookup access (split.offset / c.blockSize) with
        ⟨set₁, accessed, alike⟩
      rw [accessed]
      have kept : ({ c₁ with sets := c₁.sets.setIfInBounds split.set set₁ } :
          Controller).sets[split.set]? = some set₁ := by
        rw [aside.sets, getElem?_setIfInBounds_of_some held]
      have replaced := replacePage_serves kept (alike.coherent coherent) (alike.kind.trans kind)
        ((alike.find? _).trans lookup) hblock access
      have stored : ∀ {c₂ : Controller} {set₂ : CacheSet},
          c₂.sets = (c₁.sets.setIfInBounds split.set set₁).setIfInBounds split.set set₂ →
          c₂.sets = c.sets.setIfInBounds split.set set₂ := by
        intro c₂ set₂ sets
        rw [sets, Array.setIfInBounds_setIfInBounds, aside.sets]
      refine .storeSet_bind (.bind (replaced.mono (fun _ _ done => done) ?_) ?_)
      · rintro fault c₂ ⟨⟨set₂, content, sets⟩, same, loadedBlocks⟩
        refine ⟨⟨set₂, content.trans alike.content, stored sets⟩, ?_, ?_⟩
        · rw [same, ← aside.organisation]
        · rw [loadedBlocks, ← aside.counts]
      · rintro ⟨blocks, dirty⟩ c₂ ⟨layer, stack, counts, set₂, visited, sets⟩
        refine .count_bind (.load_bind (.stream_bind ?_))
        refine transfer_serves ?_ ?_ _ _ _
        · refine ⟨set₂, blocks, .of_alike alike ?_, stored sets, ?_⟩
          · rw [← aside.organisation]
            exact visited
          · rw [← aside.counts]
            exact congrArg (fun n : CacheCounts => n.loadedBlocks + blocks) counts
        · rcases reaches with ⟨physical, located, offers⟩
          refine ⟨physical, ?_, ?_⟩
          · rw [← located, ← layer]
            rfl
          · rw [← stack] at offers
            exact offers

end Service

namespace Controller

variable {c : Controller} {s : Settings} {addr : Nat} {set : CacheSet}

theorem Sound.exists_history (h : c.Sound s) (design : s.cache.design = .unison) :
    ∃ history, c.organisation = .pages history := by
  have same := h.design.trans design
  cases organised : c.organisation with
  | pages history => exact ⟨history, rfl⟩
  | blocks =>
      rw [organised] at same
      cases same
  | segments _ =>
      rw [organised] at same
      cases same

/-- A request that does not go past the cache visits its set, or it fails without having done so. -/
theorem Sound.request_servesPage (valid : s.Valid) (h : c.Sound s) (design : s.cache.design = .unison)
    (small : addr < 2 ^ addressBits) (held : c.settled.sets[(c.splitOf addr).set]? = some set)
    (used : c.layer.disabled set.placement.place = false) (time : Time) (size : Nat)
    (access : Access) :
    match (c.request time size addr access).1.fault with
    | none => c.settled.ServesPage access (c.splitOf addr).set (c.splitOf addr).tag (c.wanted addr)
        set (c.request time size addr access).2
    | some _ => c.settled.KeepsPage (c.splitOf addr).set set (c.request time size addr access).2 := by
  have sets : s.cache.design ≠ .constant := by simp [design]
  have fits := h.settled.stored.fits _ set held
  have kind := fits.kind
  rw [design, if_neg nofun] at kind
  rcases h.exists_history design with ⟨history, organised⟩
  refine h.request_sets
    (Q := fun c' => c.settled.ServesPage access (c.splitOf addr).set (c.splitOf addr).tag
      (c.wanted addr) set c')
    (E := fun _ c' => c.settled.KeepsPage (c.splitOf addr).set set c')
    sets small held time size access (fun gone => absurd gone (by simp [used])) ?_
  intro _ c₁ enters sound
  have split : c₁.splitter.split (c.address addr) = c.splitOf addr := by
    rw [enters.splitter, splitOf]
  have block := sound.block_lt valid design (c.address addr)
  rw [split] at block
  have found : c₁.sets[(c.splitOf addr).set]? = some set := by
    rw [enters.sets]
    exact held
  have wanted : (c.splitOf addr).offset / c₁.blockSize = c.wanted addr := by
    rw [enters.blockSize, Controller.wanted, organised]
    rfl
  have served := Service.servePage_serves found fits.coherent kind block (c.order time).1 access
  rw [wanted] at served
  have organisation : c₁.organisation = c.settled.organisation := by
    rw [enters.organisation, settled_organisation]
  have loaded : c₁.counts.loadedBlocks = c.settled.counts.loadedBlocks := by
    rw [enters.loadedBlocks, settled_loadedBlocks]
  rw [organised]
  refine served.mono ?_ ?_
  · rintro _ c' ⟨set', loads, visited, sets, loadedBlocks⟩
    rw [organisation] at visited
    exact ⟨set', loads, visited, by rw [sets, enters.sets], by rw [loadedBlocks, loaded]⟩
  · rintro _ c' ⟨⟨set', content, sets⟩, same, loadedBlocks⟩
    exact ⟨⟨set', content, by rw [sets, enters.sets]⟩, by rw [same, organisation],
      by rw [loadedBlocks, loaded]⟩

end Controller

end StackedCache
