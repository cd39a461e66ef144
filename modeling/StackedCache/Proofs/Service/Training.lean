import StackedCache.Proofs.Residency.Footprint
import StackedCache.Proofs.Residency.Tags
import StackedCache.Proofs.Service.Pages
import StackedCache.Proofs.Service.Reference

/-!
# What footprints are predicted from

Requests leave a log of visits: blocks demanded of pages that are there, and pages filled, each
because of a block and perhaps in the place of another page.  What a page that goes has been used for
can be read off the log, and so can what is predicted for the next page to be filled: `lastUsed`.

A cache of pages never reads the log.  It keeps a key and a footprint with each line and takes them
into its history when a fill displaces the line: `Remembers` ties both to the log.  Every request
keeps that, and pages that relocation has dropped are never learnt from.
-/

namespace StackedCache

/-! ## Visits -/

/-- What a request has done to a page of a set. -/
inductive PageVisit where
  /-- The page was there. -/
  | demand (set tag block : Nat)
  /-- The page was filled because of the block, in the place of another one if one had to go. -/
  | fill (set tag block : Nat) (evicted : Option Nat)

namespace PageVisit

def block : PageVisit → Nat
  | demand _ _ block => block
  | fill _ _ block _ => block

/-- The block because of which a page was filled last; the log is latest first. -/
def filledBy (set tag : Nat) : List PageVisit → Option Nat
  | [] => none
  | demand .. :: log => filledBy set tag log
  | fill set' tag' block _ :: log =>
      if set' = set ∧ tag' = tag then some block else filledBy set tag log

/-- The blocks demanded of a page since it was filled last. -/
def demanded (set tag : Nat) : List PageVisit → Finset Nat
  | [] => ∅
  | demand set' tag' block :: log =>
      if set' = set ∧ tag' = tag then insert block (demanded set tag log) else demanded set tag log
  | fill set' tag' block _ :: log =>
      if set' = set ∧ tag' = tag then {block} else demanded set tag log

/-- The blocks demanded of the page that a fill evicted last, among those that were filled because of
a block with the same remainder. -/
def lastUsed (entries block : Nat) : List PageVisit → Finset Nat
  | [] => ∅
  | fill set _ _ (some evicted) :: log =>
      if (filledBy set evicted log).any fun other => other % entries = block % entries then
        demanded set evicted log
      else lastUsed entries block log
  | _ :: log => lastUsed entries block log

variable {log : List PageVisit} {blocks : Nat}

theorem lt_of_mem_demanded (small : ∀ visit ∈ log, visit.block < blocks) (set tag : Nat) :
    ∀ n ∈ demanded set tag log, n < blocks := by
  induction log with
  | nil => exact fun n hn => absurd hn (Finset.notMem_empty n)
  | cons visit log ih =>
      have rest := ih fun visit hvisit => small visit (List.mem_cons_of_mem _ hvisit)
      have first := small visit List.mem_cons_self
      intro n hn
      cases visit with
      | demand set' tag' block =>
          rw [demanded] at hn
          split at hn
          · rcases Finset.mem_insert.1 hn with rfl | hn
            · exact first
            · exact rest n hn
          · exact rest n hn
      | fill set' tag' block evicted =>
          rw [demanded] at hn
          split at hn
          · rw [Finset.mem_singleton.1 hn]
            exact first
          · exact rest n hn

theorem lt_of_mem_lastUsed (small : ∀ visit ∈ log, visit.block < blocks) (entries block : Nat) :
    ∀ n ∈ lastUsed entries block log, n < blocks := by
  induction log with
  | nil => exact fun n hn => absurd hn (Finset.notMem_empty n)
  | cons visit log ih =>
      have earlier : ∀ visit ∈ log, visit.block < blocks := fun visit hvisit =>
        small visit (List.mem_cons_of_mem _ hvisit)
      cases visit with
      | demand set tag block => exact ih earlier
      | fill set tag block evicted =>
          cases evicted with
          | none => exact ih earlier
          | some evicted =>
              rw [lastUsed]
              split
              · exact lt_of_mem_demanded earlier set evicted
              · exact ih earlier

end PageVisit

/-! ## What is predicted -/

namespace Organisation

variable {o o' : Organisation} {n blocks : Nat} {log : List PageVisit} {old : Line}

/-- The history has as many entries as the settings say, and predicts what the log says. -/
structure Predicts (n blocks : Nat) (log : List PageVisit) (o : Organisation) : Prop where
  history : ∃ history, o = .pages history ∧ history.entries.size = n ∧ history.page = .below blocks
  predicted : ∀ block, (o.predicted block).blocks = PageVisit.lastUsed n block log

/-- Counts have no part in it. -/
theorem Predicts.same (h : o.Predicts n blocks log) (same : o'.resetCounts = o.resetCounts) :
    o'.Predicts n blocks log := by
  rcases h.history with ⟨history, rfl, size, page⟩
  cases Organisation.alike same.symm with
  | pages _ lookups updates => exact ⟨⟨_, rfl, size, page⟩, h.predicted⟩

/-- What the history learns from a line is what the log says of its page. -/
theorem Predicts.taught (h : o.Predicts n blocks log) (positive : 0 < n) (le : blocks ≤ maxBlocks)
    (small : ∀ visit ∈ log, visit.block < blocks) (set tag block : Nat)
    (kept : ∀ evicted, old.tag = some evicted →
      ∃ cause, PageVisit.filledBy set evicted log = some cause ∧ old.trigger = cause % n ∧
        old.footprint.blocks = PageVisit.demanded set evicted log) :
    (o.taught old).Predicts n blocks (.fill set tag block old.tag :: log) := by
  rcases h.history with ⟨history, rfl, size, page⟩
  cases held : old.tag with
  | none =>
      have vacant : old.isValid = false := by simp [Line.isValid, held]
      refine ⟨⟨history, by simp [Organisation.taught, vacant], size, page⟩, fun b => ?_⟩
      simp only [Organisation.taught, vacant, Bool.false_eq_true, if_false]
      exact h.predicted b
  | some evicted =>
      have valid : old.isValid = true := by simp [Line.isValid, held]
      rcases kept evicted held with ⟨cause, filled, trigger, footprint⟩
      refine ⟨⟨history.record old.trigger old.footprint, by simp [Organisation.taught, valid], ?_,
        page⟩, fun b => ?_⟩
      · rw [← size]
        exact Array.size_setIfInBounds
      · have within : ∀ n ∈ old.footprint.blocks, n < blocks := by
          rw [footprint]
          exact PageVisit.lt_of_mem_demanded small set evicted
        simp only [Organisation.taught, valid, if_true, Organisation.predicted]
        rw [FootprintHistory.peek_record _ _ _ _ (size ▸ positive), size, trigger, Nat.mod_mod,
          PageVisit.lastUsed, filled, page]
        simp only [Option.any_some, decide_eq_true_eq]
        by_cases same : b % n = cause % n
        · rw [if_pos same, if_pos same.symm, BlockSet.blocks_inter_below le within, footprint]
        · rw [if_neg same, if_neg (Ne.symm same)]
          exact h.predicted b

end Organisation

/-! ## Lines -/

namespace CacheSet

variable {set set' : CacheSet} {n i tag block way : Nat} {log : List PageVisit} {old : Line}
  {access : Access}

/-- The tags that the ways hold. -/
def residents (set : CacheSet) : List Nat := set.lines.filterMap Line.tag

theorem mem_residents :
    tag ∈ set.residents ↔ ∃ (way : Nat) (l : Line), set.content[way]? = some l ∧ l.tag = some tag := by
  have same : set.residents = set.content.filterMap Line.tag := by
    rw [residents, content, List.filterMap_map]
    rfl
  rw [same, List.mem_filterMap]
  constructor
  · rintro ⟨l, hl, htag⟩
    rcases List.mem_iff_getElem?.1 hl with ⟨way, hway⟩
    exact ⟨way, l, hway, htag⟩
  · rintro ⟨way, l, hway, htag⟩
    exact ⟨l, List.mem_of_getElem? hway, htag⟩

theorem find?_eq_none_iff_residents : set.find? tag = none ↔ tag ∉ set.residents := by
  rw [find?_eq_none_iff, residents, List.mem_filterMap]
  constructor
  · rintro missing ⟨l, hl, htag⟩
    rcases List.mem_iff_getElem?.1 hl with ⟨way, hway⟩
    exact missing way (holds_iff.2 ⟨l, hway, htag⟩)
  · intro missing way held
    rcases holds_iff.1 held with ⟨l, hl, htag⟩
    exact missing ⟨l, List.mem_of_getElem? hl, htag⟩

/-- The page that leaves when a way takes another tag is the one that the way has held. -/
theorem Coherent.find?_residents {g : Line → Line} (coherent : set.Coherent)
    (hold : set.content[way]? = some old) (missing : tag ∉ set.residents)
    (htag : (g old).tag = some tag) (content : set'.content = set.content.modify way g) :
    (set.residents.find? fun other => other ∉ set'.residents) = old.tag := by
  -- Only the way that has changed can have given up a tag.
  have gone : ∀ other, other ∈ set.residents → other ∉ set'.residents → old.tag = some other := by
    intro other resident left
    rcases mem_residents.1 resident with ⟨j, l, hl, hother⟩
    by_cases here : way = j
    · subst here
      rw [hold] at hl
      cases hl
      exact hother
    · refine absurd (mem_residents.2 ⟨j, l, ?_, hother⟩) left
      rw [content, List.getElem?_modify_ne _ _ here, hl]
  cases search : set.residents.find? fun other => other ∉ set'.residents with
  | some other =>
      have left : other ∉ set'.residents := by simpa using List.find?_some search
      exact (gone other (List.mem_of_find?_eq_some search) left).symm
  | none =>
      cases held : old.tag with
      | none => rfl
      | some evicted =>
          have stays := List.find?_eq_none.1 search evicted (mem_residents.2 ⟨way, old, hold, held⟩)
          have stays : evicted ∈ set'.residents := by simpa using stays
          rcases mem_residents.1 stays with ⟨j, l, hl, hevicted⟩
          rw [content] at hl
          rcases getElem?_modify_cases hold hl with ⟨_, rfl⟩ | ⟨here, hl⟩
          · rw [htag] at hevicted
            cases hevicted
            exact absurd (mem_residents.2 ⟨way, old, hold, held⟩) missing
          · exact absurd (coherent.unique way j old l hold hl (by simp [Line.isValid, held])
              (held.trans hevicted.symm)).symm here

/-- Each line has the key and the footprint that the log says of its page. -/
def Remembers (n i : Nat) (log : List PageVisit) (set : CacheSet) : Prop :=
  ∀ l ∈ set.content, ∀ tag, l.tag = some tag →
    ∃ cause, PageVisit.filledBy i tag log = some cause ∧ l.trigger = cause % n ∧
      l.footprint.blocks = PageVisit.demanded i tag log

theorem Remembers.drop (h : set.Remembers n i log) : set.drop.Remembers n i log := by
  intro l hl tag htag
  rw [content_drop] at hl
  rcases List.mem_map.1 hl with ⟨k, hk, rfl⟩
  unfold Line.drop at htag ⊢
  cases valid : k.isValid with
  | false =>
      simp only [valid, Bool.false_eq_true, if_false] at htag ⊢
      exact h k hk tag htag
  | true =>
      simp only [valid, if_true] at htag
      cases htag

/-- A block of a page that is there has been demanded. -/
theorem Remembers.demand (h : set.Remembers n i log) (coherent : set.Coherent)
    (hold : set.content[way]? = some old) (held : old.tag = some tag) (hblock : block < maxBlocks)
    (content : set'.content = set.content.modify way (·.touchBlock access block)) :
    set'.Remembers n i (.demand i tag block :: log) := by
  intro l hl other hother
  rw [content] at hl
  rcases List.mem_iff_getElem?.1 hl with ⟨j, hj⟩
  rcases getElem?_modify_cases hold hj with ⟨_, rfl⟩ | ⟨here, hj⟩
  · rw [Line.tag_touchBlock, held] at hother
    cases hother
    rcases h old (List.mem_of_getElem? hold) tag held with ⟨cause, filled, trigger, footprint⟩
    refine ⟨cause, filled, ?_, ?_⟩
    · rw [← trigger]
      cases access <;> rfl
    · rw [PageVisit.demanded, if_pos ⟨rfl, rfl⟩, ← footprint, ← BlockSet.blocks_insert hblock]
      cases access <;> rfl
  · have apart : tag ≠ other := by
      rintro rfl
      exact here (coherent.unique way j old l hold hj (by simp [Line.isValid, held])
        (held.trans hother.symm)).symm
    rcases h l (List.mem_of_getElem? hj) other hother with ⟨cause, filled, trigger, footprint⟩
    refine ⟨cause, filled, trigger, ?_⟩
    rw [PageVisit.demanded, if_neg fun same => apart same.2, footprint]

/-- A page has been filled because of a block. -/
theorem Remembers.fill {predicted : BlockSet} {trigger : Nat} (h : set.Remembers n i log)
    (hold : set.content[way]? = some old) (missing : tag ∉ set.residents) (hblock : block < maxBlocks)
    (key : trigger = block % n) (evicted : Option Nat)
    (content : set'.content = set.content.modify way fun l =>
      (l.fill tag predicted trigger).touchBlock access block) :
    set'.Remembers n i (.fill i tag block evicted :: log) := by
  intro l hl other hother
  rw [content] at hl
  rcases List.mem_iff_getElem?.1 hl with ⟨j, hj⟩
  rcases getElem?_modify_cases hold hj with ⟨_, rfl⟩ | ⟨_, hj⟩
  · rw [Line.tag_touchBlock] at hother
    cases hother
    refine ⟨block, by rw [PageVisit.filledBy, if_pos ⟨rfl, rfl⟩], ?_, ?_⟩
    · rw [← key]
      cases access <;> rfl
    · have first : ((BlockSet.empty).insert block).blocks = {block} := by
        rw [BlockSet.blocks_insert hblock, BlockSet.blocks_empty]
        rfl
      rw [PageVisit.demanded, if_pos ⟨rfl, rfl⟩, ← first]
      cases access <;> rfl
  · have apart : tag ≠ other := by
      rintro rfl
      exact missing (mem_residents.2 ⟨j, l, hj, hother⟩)
    rcases h l (List.mem_of_getElem? hj) other hother with ⟨cause, filled, trigger, footprint⟩
    refine ⟨cause, ?_, trigger, ?_⟩
    · rw [PageVisit.filledBy, if_neg fun same => apart same.2, filled]
    · rw [PageVisit.demanded, if_neg fun same => apart same.2, footprint]

/-- Visits to other sets have no part in it. -/
theorem Remembers.elsewhere {j : Nat} (h : set.Remembers n i log) (other : j ≠ i) :
    (∀ tag block, set.Remembers n i (.demand j tag block :: log)) ∧
      ∀ tag block evicted, set.Remembers n i (.fill j tag block evicted :: log) := by
  refine ⟨fun tag block l hl mine hmine => ?_, fun tag block evicted l hl mine hmine => ?_⟩
  · rw [PageVisit.filledBy, PageVisit.demanded, if_neg fun same => other same.1]
    exact h l hl mine hmine
  · rw [PageVisit.filledBy, PageVisit.demanded, if_neg fun same => other same.1,
      if_neg fun same => other same.1]
    exact h l hl mine hmine

end CacheSet

namespace Controller

variable {c c' : Controller} {s : Settings} {log : List PageVisit} {addr : Nat}

/-- The tags of the pages of a set. -/
def residents (c : Controller) (i : Nat) : List Nat := (c.sets[i]?).elim [] CacheSet.residents

/-- What a request has done to a page, judged by the pages before and after it.  A request that fails
or goes past the cache has not visited any. -/
def pageVisit? (c : Controller) (addr : Nat) (r : Outcome × Controller) : Option PageVisit :=
  let split := c.splitOf addr
  let before := c.settled.residents split.set
  if r.1.fault.isSome || c.passesBy addr then none
  else if split.tag ∈ before then some (.demand split.set split.tag (c.wanted addr))
  else
    let evicted := before.find? fun tag => tag ∉ r.2.residents split.set
    some (.fill split.set split.tag (c.wanted addr) evicted)

theorem pageVisit?_eq_none {r : Outcome × Controller}
    (unvisited : r.1.fault ≠ none ∨ c.passesBy addr = true) : c.pageVisit? addr r = none := by
  rw [pageVisit?, if_pos]
  simpa [Option.isSome_iff_ne_none] using unvisited

theorem pageVisit?_demand {r : Outcome × Controller} (served : r.1.fault = none)
    (used : c.passesBy addr = false)
    (resident : (c.splitOf addr).tag ∈ c.settled.residents (c.splitOf addr).set) :
    c.pageVisit? addr r =
      some (.demand (c.splitOf addr).set (c.splitOf addr).tag (c.wanted addr)) := by
  simp [pageVisit?, served, used, resident]

theorem pageVisit?_fill {r : Outcome × Controller} {evicted : Option Nat}
    (served : r.1.fault = none) (used : c.passesBy addr = false)
    (missing : (c.splitOf addr).tag ∉ c.settled.residents (c.splitOf addr).set)
    (left : ((c.settled.residents (c.splitOf addr).set).find? fun tag =>
      tag ∉ r.2.residents (c.splitOf addr).set) = evicted) :
    c.pageVisit? addr r =
      some (.fill (c.splitOf addr).set (c.splitOf addr).tag (c.wanted addr) evicted) := by
  simp only [pageVisit?, served, used, missing, left, Option.isSome_none, Bool.or_self,
    Bool.false_eq_true, if_false]

/-- The visit of an operation, if it is a request. -/
def pageVisitOf (c : Controller) : Operation → Option PageVisit
  | .request time size addr access =>
      c.pageVisit? addr.toNat (c.request time size addr.toNat access)
  | _ => none

/-- The visits before and by operations, latest first. -/
def pageVisits (c : Controller) : List Operation → List PageVisit → List PageVisit
  | [], log => log
  | op :: ops, log => (c.perform op).pageVisits ops ((c.pageVisitOf op).toList ++ log)

/-- All that is kept for predictions is what the log says. -/
structure Remembers (s : Settings) (log : List PageVisit) (c : Controller) : Prop where
  predicts : c.organisation.Predicts s.cache.footprintEntries.toNat s.cache.blocksPerPage log
  lines : ∀ (i : Nat) (set : CacheSet), c.sets[i]? = some set →
    set.Remembers s.cache.footprintEntries.toNat i log
  small : ∀ visit ∈ log, visit.block < s.cache.blocksPerPage

theorem ofSettings_remembers (valid : s.Valid) (design : s.cache.design = .unison) :
    (ofSettings s).Remembers s [] := by
  have organised : (ofSettings s).organisation =
      .pages (.ofSize s.cache.footprintEntries.toNat s.cache.blocksPerPage) := by
    simp only [ofSettings, organise, design]
  have entries : max s.cache.footprintEntries.toNat 1 = s.cache.footprintEntries.toNat :=
    Nat.max_eq_left (Nat.one_le_iff_ne_zero.2 valid.cache.footprintEntries)
  have blocks : min s.cache.blocksPerPage maxBlocks = s.cache.blocksPerPage :=
    Nat.min_eq_left valid.cache.blocks_le
  refine ⟨⟨⟨_, organised, ?_, ?_⟩, fun block => ?_⟩, fun i set held l hl tag htag => ?_, ?_⟩
  · rw [FootprintHistory.ofSize, Array.size_replicate, entries]
  · rw [FootprintHistory.ofSize, blocks]
  · rw [organised, Organisation.predicted, FootprintHistory.peek_key]
    have nothing : ∀ n k : Nat, ((Array.replicate n BlockSet.empty)[k]?).getD .empty = .empty := by
      intro n k
      rw [Array.getElem?_replicate]
      split <;> rfl
    exact congrArg BlockSet.blocks (nothing _ _) |>.trans BlockSet.blocks_empty
  · rcases organise_sets s _ held with ⟨unit, rfl⟩
    simp only [CacheSet.content, CacheSet.ofKind, List.map_replicate] at hl
    rw [List.eq_of_mem_replicate hl] at htag
    cases htag
  · intro visit hvisit
    exact absurd hvisit List.not_mem_nil

/-- Drawing the consequences of relocation leaves what is predicted. -/
theorem settled_predicted (c : Controller) (addr : Nat) :
    c.settled.predicted addr = c.predicted addr := by
  simp only [predicted, wanted, splitOf, address, settled_organisation, settled_blockSize,
    settled_splitter, settled_pageTable]

/-- Pages that are dropped teach nothing. -/
theorem Remembers.settled (h : c.Remembers s log) : c.settled.Remembers s log := by
  refine ⟨by rw [settled_organisation]; exact h.predicts, fun i set held => ?_, h.small⟩
  rw [settled_sets] at held
  split at held
  · rw [Array.getElem?_map, Option.map_eq_some_iff] at held
    rcases held with ⟨old, found, rfl⟩
    unfold settleSet
    split
    · exact (h.lines i old found).drop
    · exact h.lines i old found
  · exact h.lines i set held

theorem residents_of_set {i : Nat} {set : CacheSet} (held : c.sets[i]? = some set) :
    c.residents i = set.residents := by
  rw [residents, held]
  rfl

/-- A request asks for a block of its page. -/
theorem Sound.wanted_lt (valid : s.Valid) (h : c.Sound s) (design : s.cache.design = .unison)
    (addr : Nat) : c.wanted addr < s.cache.blocksPerPage := by
  rcases h.exists_history design with ⟨history, organised⟩
  rw [wanted, organised]
  exact h.block_lt_page valid design (c.address addr)

/-- A block of a page that is there has been demanded. -/
theorem Remembers.demand {i way tag block : Nat} {set set' : CacheSet} {old : Line}
    {access : Access} (h : c.Remembers s log) (held : c.sets[i]? = some set) (coherent : set.Coherent)
    (hold : set.content[way]? = some old) (resident : old.tag = some tag)
    (within : block < s.cache.blocksPerPage) (le : s.cache.blocksPerPage ≤ maxBlocks)
    (content : set'.content = set.content.modify way (·.touchBlock access block))
    (same : c'.organisation.resetCounts = c.organisation.resetCounts)
    (sets : c'.sets = c.sets.setIfInBounds i set') :
    c'.Remembers s (.demand i tag block :: log) := by
  have predicts := h.predicts.same same
  refine ⟨⟨predicts.history, predicts.predicted⟩, ?_, List.forall_mem_cons.2 ⟨within, h.small⟩⟩
  rw [sets]
  refine forall_setIfInBounds_of_ne (fun j other apart found => ?_) ?_
  · exact ((h.lines j other found).elsewhere (Ne.symm apart)).1 tag block
  · exact (h.lines i set held).demand coherent hold resident (Nat.lt_of_lt_of_le within le) content

/-- A page has been filled, and what it displaces has been learnt from. -/
theorem Remembers.fill {i way tag block : Nat} {set set' : CacheSet} {old : Line} {access : Access}
    (valid : s.Valid) (h : c.Remembers s log) (held : c.sets[i]? = some set)
    (hold : set.content[way]? = some old) (missing : tag ∉ set.residents)
    (within : block < s.cache.blocksPerPage)
    (content : set'.content = set.content.modify way fun l =>
      (l.fill tag (c.organisation.predicted block) (c.organisation.key block)).touchBlock access block)
    (taught : c'.organisation.resetCounts = (c.organisation.taught old).resetCounts)
    (sets : c'.sets = c.sets.setIfInBounds i set') :
    c'.Remembers s (.fill i tag block old.tag :: log) := by
  have lines := h.lines i set held
  have le := valid.cache.blocks_le
  have key : c.organisation.key block = block % s.cache.footprintEntries.toNat := by
    rcases h.predicts.history with ⟨history, organised, size, _⟩
    rw [organised, Organisation.key, FootprintHistory.key, size]
  have predicts := h.predicts.taught
    (Nat.pos_of_ne_zero valid.cache.footprintEntries) le h.small i tag block
    (lines old (List.mem_of_getElem? hold))
  refine ⟨predicts.same taught, ?_, List.forall_mem_cons.2 ⟨within, h.small⟩⟩
  rw [sets]
  refine forall_setIfInBounds_of_ne (fun j other apart found => ?_) ?_
  · exact ((h.lines j other found).elsewhere (Ne.symm apart)).2 tag block old.tag
  · exact lines.fill hold missing (Nat.lt_of_lt_of_le within le) key old.tag content

theorem Remembers.predicted_subset (h : c.Remembers s log) (addr : Nat) :
    c.predicted addr ⊆ Finset.range s.cache.blocksPerPage := by
  intro n hn
  rw [predicted, h.predicts.predicted] at hn
  exact Finset.mem_range.2 (PageVisit.lt_of_mem_lastUsed h.small _ _ n hn)

/-- A request loads no more than a page.  A missing page is filled with the block asked for and all
blocks predicted, and these are what is loaded. -/
theorem Remembers.request_loads (valid : s.Valid) (design : s.cache.design = .unison)
    (sound : c.Sound s) (h : c.Remembers s log) (small : addr < 2 ^ addressBits) {time : Time}
    {size : Nat} {access : Access} (served : (c.request time size addr access).1.fault = none)
    (used : c.passesBy addr = false) :
    ∃ loaded, (c.request time size addr access).2.counts.loadedBlocks =
        c.counts.loadedBlocks + loaded ∧
      loaded ≤ s.cache.blocksPerPage ∧
      ((c.splitOf addr).tag ∉ c.settled.residents (c.splitOf addr).set →
        ((c.request time size addr access).2.shelf (c.splitOf addr).set).lookup (c.splitOf addr).tag =
            some (insert (c.wanted addr) (c.predicted addr)) ∧
          loaded = (insert (c.wanted addr) (c.predicted addr)).card) := by
  have sets : s.cache.design ≠ .constant := by simp [design]
  rcases sound.exists_settled valid sets addr with ⟨set, held⟩
  rw [passesBy_eq held] at used
  rw [residents_of_set held]
  have within := sound.wanted_lt valid design addr
  have done := sound.request_servesPage valid design small held used time size access
  rw [served] at done
  rcases done with ⟨set', loaded, visited, sets, loads⟩
  rw [settled_loadedBlocks] at loads
  refine ⟨loaded, loads, ?_⟩
  cases visited with
  | demand hold resident content same few =>
      refine ⟨Nat.le_trans few (Nat.zero_lt_of_lt within), fun missing => ?_⟩
      exact absurd (CacheSet.mem_residents.2 ⟨_, _, hold, resident⟩) missing
  | @fill way old hold missing content taught =>
      have filled : ((c.settled.organisation.predicted (c.wanted addr)).insert
          (c.wanted addr)).blocks = insert (c.wanted addr) (c.predicted addr) := by
        rw [BlockSet.blocks_insert (Nat.lt_of_lt_of_le within valid.cache.blocks_le),
          settled_organisation]
        rfl
      rw [BlockSet.count_eq_card, filled]
      refine ⟨?_, fun absent => ⟨?_, rfl⟩⟩
      · have page : insert (c.wanted addr) (c.predicted addr) ⊆
            Finset.range s.cache.blocksPerPage :=
          Finset.insert_subset (Finset.mem_range.2 within) (h.predicted_subset addr)
        exact (Finset.card_le_card page).trans_eq (Finset.card_range _)
      · have lookup := (sound.settled.stored.fits _ set held).coherent.lookup_shelf content hold
          (Line.tag_touchBlock _ access _) (fun j l hl tagged =>
            absurd (CacheSet.mem_residents.2 ⟨j, l, hl, tagged⟩) absent) (c.splitOf addr).tag
        rw [shelf_of_setIfInBounds held sets, if_pos rfl, lookup, if_pos rfl, ← filled]
        cases access <;> rfl

/-- Every request adds its visit to the log. -/
theorem Remembers.request (valid : s.Valid) (design : s.cache.design = .unison) (sound : c.Sound s)
    (h : c.Remembers s log) (small : addr < 2 ^ addressBits) (time : Time) (size : Nat)
    (access : Access) :
    (c.request time size addr access).2.Remembers s
      ((c.pageVisit? addr (c.request time size addr access)).toList ++ log) := by
  have sets : s.cache.design ≠ .constant := by simp [design]
  rcases sound.exists_settled valid sets addr with ⟨set, held⟩
  have settled := h.settled
  have fits := sound.settled.stored.fits _ set held
  have passes := passesBy_eq held
  have within := sound.wanted_lt valid design addr
  cases used : c.layer.disabled set.placement.place with
  | true =>
      rcases sound.request_passes sets small held used time size access with ⟨_, past⟩
      rw [pageVisit?_eq_none (.inr (passes.trans used))]
      refine ⟨by rw [past.organisation]; exact h.predicts, ?_, h.small⟩
      rw [past.sets]
      exact settled.lines
  | false =>
      have done := sound.request_servesPage valid design small held used time size access
      cases failed : (c.request time size addr access).1.fault with
      | some fault =>
          rw [failed] at done
          rcases done with ⟨⟨set', content, sets⟩, same, _⟩
          rw [pageVisit?_eq_none (.inl (by simp [failed]))]
          refine ⟨settled.predicts.same same, ?_, h.small⟩
          rw [sets]
          refine forall_setIfInBounds_of_ne (fun i other _ => settled.lines i other) ?_
          intro l hl
          rw [content] at hl
          exact settled.lines _ set held l hl
      | none =>
          rw [failed] at done
          rcases done with ⟨set', loaded, visited, sets, _⟩
          have stored : (c.request time size addr access).2.residents (c.splitOf addr).set =
              set'.residents := by
            refine residents_of_set ?_
            rw [sets, getElem?_setIfInBounds_of_some held]
          cases visited with
          | demand hold resident content same few =>
              have here : (c.splitOf addr).tag ∈ c.settled.residents (c.splitOf addr).set := by
                rw [residents_of_set held]
                exact CacheSet.mem_residents.2 ⟨_, _, hold, resident⟩
              rw [pageVisit?_demand failed (passes.trans used) here]
              exact settled.demand held fits.coherent hold resident within valid.cache.blocks_le
                content same sets
          | @fill way old hold missing content taught =>
              have absent := CacheSet.find?_eq_none_iff_residents.1 missing
              have here : (c.splitOf addr).tag ∉ c.settled.residents (c.splitOf addr).set := by
                rw [residents_of_set held]
                exact absent
              have evicted := fits.coherent.find?_residents hold absent
                (Line.tag_touchBlock _ access _) content
              rw [← stored, ← residents_of_set held] at evicted
              rw [pageVisit?_fill failed (passes.trans used) here evicted]
              exact settled.fill valid held hold absent within content taught sets

theorem Remembers.perform (valid : s.Valid) (design : s.cache.design = .unison) (sound : c.Sound s)
    (h : c.Remembers s log) (op : Operation) :
    (c.perform op).Remembers s ((c.pageVisitOf op).toList ++ log) := by
  cases op with
  | request time size addr access => exact h.request valid design sound addr.toNat_lt time size access
  | setTemperature p t => exact ⟨h.predicts, h.lines, h.small⟩
  | setHot p hot =>
      rcases c.perform_setHot p hot with ⟨stack, marked⟩
      rw [marked]
      exact ⟨h.predicts, h.lines, h.small⟩
  | runEpoch => exact ⟨h.predicts, h.lines, h.small⟩
  | resetCounts =>
      refine ⟨h.predicts.same ?_, fun i set held => ?_, h.small⟩
      · simp only [Controller.perform, Controller.resetCounts]
        cases c.organisation <;> rfl
      · simp only [Controller.perform, Controller.resetCounts, Array.getElem?_map] at held
        rcases Option.map_eq_some_iff.1 held with ⟨old, found, rfl⟩
        exact h.lines i old found

/-- Wherever operations lead, all that is kept for predictions is what the log says. -/
theorem Remembers.run (valid : s.Valid) (design : s.cache.design = .unison) (sound : c.Sound s)
    (h : c.Remembers s log) (ops : List Operation) :
    (c.run ops).Remembers s (c.pageVisits ops log) := by
  induction ops generalizing c log with
  | nil => exact h
  | cons op ops ih => exact ih (sound.perform valid op) (h.perform valid design sound op)

end Controller

end StackedCache
