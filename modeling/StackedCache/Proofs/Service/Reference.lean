import StackedCache.Proofs.Service.Frames
import StackedCache.Proofs.Service.Reach
import StackedCache.Proofs.Service.Repeat

/-!
# The reference cache

Each set of a cache is a shelf, and a request follows the reference of shelves: `Follows` says so of
any request, whether it goes past the cache, is served or fails.  Beside requests nothing changes a
shelf, except that relocation may have dropped it before the next request.
-/

namespace StackedCache

namespace PageTable

variable {t : PageTable} {addr page : Nat}

theorem frameOf_again (t : PageTable) (page : Nat) :
    (t.frameOf page).2.frameOf page = t.frameOf page := by
  rcases (t.frameOf page).2.frameOf_cases page with ⟨frame, has, kept⟩ | ⟨missing, _⟩
  · rw [frame?_frameOf] at has
    cases has
    exact kept
  · rw [frame?_frameOf] at missing
    cases missing

/-- A page keeps its frame. -/
theorem renumber_again (t : PageTable) (addr : Nat) :
    (t.renumber addr).2.renumber addr = t.renumber addr := by
  have again := t.frameOf_again (addr / frameSize)
  simp only [renumber, again]

end PageTable

/-- The ways of the sets. -/
def CacheSettings.ways (s : CacheSettings) : Nat :=
  (if s.design = .alloy then SetKind.directBlock else .page).ways s.associativity.toNat

theorem CacheSet.Built.ways_eq {s : Settings} {set : CacheSet} (h : set.Built s.cache)
    (fits : set.Fits s) : set.ways = s.cache.ways := by
  rw [h.ways, fits.kind, CacheSettings.ways]

theorem CacheSet.drop_sameBuild (set : CacheSet) : set.SameBuild set.drop :=
  ⟨rfl, rfl, rfl, by simp [CacheSet.ways, CacheSet.drop]⟩

namespace Controller

variable {c c' : Controller} {s : Settings} {addr i : Nat} {set : CacheSet} {access : Access}

/-! ## Shelves -/

/-- What a set holds. -/
def shelf (c : Controller) (i : Nat) : Shelf := (c.sets[i]?).elim ∅ CacheSet.shelf

theorem ofSettings_shelf (s : Settings) (i : Nat) : (ofSettings s).shelf i = ∅ := by
  unfold shelf
  cases held : (ofSettings s).sets[i]? with
  | none => rfl
  | some set =>
      rcases organise_sets s _ held with ⟨unit, rfl⟩
      refine CacheSet.shelf_eq_empty.2 ?_
      intro l hl
      rw [List.eq_of_mem_replicate hl]
      rfl

/-- Relocation has dropped the content of the bank that has the set. -/
def gone (c : Controller) (i : Nat) : Bool :=
  (c.sets[i]?).any fun set => !c.layer.contentValid set.placement.place

/-- What the next request finds of a set. -/
def remaining (c : Controller) (i : Nat) : Shelf := if c.gone i then ∅ else c.shelf i

/-- A request for an address goes past the cache: the bank of its set is out of use. -/
def passesBy (c : Controller) (addr : Nat) : Bool :=
  (c.sets[(c.splitOf addr).set]?).any fun set => c.layer.disabled set.placement.place

theorem shelf_of_set (held : c.sets[i]? = some set) : c.shelf i = set.shelf := by
  rw [shelf, held]
  rfl

/-- Dropped or not, a set remains what it is. -/
theorem exists_of_settled (held : c.settled.sets[i]? = some set) :
    ∃ old, c.sets[i]? = some old ∧ old.SameBuild set := by
  rw [settled_sets] at held
  split at held
  · rw [Array.getElem?_map, Option.map_eq_some_iff] at held
    rcases held with ⟨old, found, rfl⟩
    refine ⟨old, found, ?_⟩
    unfold settleSet
    split
    · exact old.drop_sameBuild
    · exact .rfl
  · exact ⟨set, held, .rfl⟩

theorem settleSet_shelf (c : Controller) (set : CacheSet) :
    (c.settleSet set).shelf =
      if c.layer.contentValid set.placement.place then set.shelf else ∅ := by
  unfold settleSet Layer.consequence
  cases valid : c.layer.contentValid set.placement.place with
  | false => exact set.shelf_drop
  | true => cases migrated : c.layer.rowMigrated set.placement <;> simp

/-- Drawing the consequences of relocation leaves what remains. -/
theorem settled_shelf (c : Controller) (i : Nat) : c.settled.shelf i = c.remaining i := by
  unfold remaining gone shelf
  cases found : c.sets[i]? with
  | none =>
      have absent : c.settled.sets[i]? = none := by
        rw [settled_sets]
        split
        · rw [Array.getElem?_map, found]
          rfl
        · exact found
      rw [absent]
      rfl
  | some set =>
      cases pending : c.layer.pending with
      | false =>
          -- No content is invalid if nothing is pending.
          have valid := c.settled_contentValid set.placement.place
          rw [settled_layer, pending] at valid
          simp only [Bool.false_eq_true, if_false] at valid
          rw [settled_sets, pending]
          simp [found, valid]
      | true =>
          rw [settled_sets, pending]
          simp only [if_true, Array.getElem?_map, found, Option.map_some, Option.elim_some,
            Option.any_some, settleSet_shelf]
          by_cases valid : c.layer.contentValid set.placement.place = true
          · simp [valid]
          · simp [valid]

/-- One set has become another one. -/
theorem shelf_of_setIfInBounds {set' : CacheSet} (held : c.sets[i]? = some set)
    (sets : c'.sets = c.sets.setIfInBounds i set') (j : Nat) :
    c'.shelf j = if j = i then set'.shelf else c.shelf j := by
  by_cases same : j = i
  · subst same
    refine (if_pos rfl).symm ▸ shelf_of_set ?_
    rw [sets, getElem?_setIfInBounds_of_some held]
  · rw [if_neg same, shelf, shelf, sets, Array.getElem?_setIfInBounds_ne (Ne.symm same)]

/-! ## Ways -/

/-- All sets have the ways and the ranking that the settings ask for. -/
def Built (s : Settings) (c : Controller) : Prop :=
  ∀ (i : Nat) (set : CacheSet), c.sets[i]? = some set → set.Built s.cache

theorem ofSettings_built (s : Settings) : (ofSettings s).Built s := by
  intro i set held
  rcases organise_sets s _ held with ⟨unit, rfl⟩
  exact CacheSet.ofKind_built s.cache _ _

theorem Built.settled (h : c.Built s) : c.settled.Built s := by
  intro i set held
  rcases exists_of_settled held with ⟨old, found, build⟩
  exact build.built (h i old found)

/-! ## Requests -/

/-- A request follows the reference, which has a shelf for `ways` tags in each set. -/
structure Follows (ways addr : Nat) (c : Controller) (r : Outcome × Controller) : Prop where
  /-- The request concerns one set. -/
  others : ∀ i, i ≠ (c.splitOf addr).set → r.2.shelf i = c.remaining i
  past : c.passesBy addr = true → r.1.fault = none ∧
    r.2.counts.bypasses = c.counts.bypasses + 1 ∧ ∀ i, r.2.shelf i = c.remaining i
  served : c.passesBy addr = false → r.1.fault = none →
    let shelf := c.remaining (c.splitOf addr).set
    let found := shelf.find (c.splitOf addr).tag (c.wanted addr)
    r.2.counts.classes = c.counts.classes + found.classes ∧
      shelf.Serves ways (c.splitOf addr).tag (c.wanted addr) (c.predicted addr) found
        (r.2.shelf (c.splitOf addr).set)
  failed : c.passesBy addr = false → r.1.fault ≠ none →
    let shelf := c.remaining (c.splitOf addr).set
    r.2.shelf (c.splitOf addr).set = shelf ∨
      ∃ found, shelf.Serves ways (c.splitOf addr).tag (c.wanted addr) (c.predicted addr) found
        (r.2.shelf (c.splitOf addr).set)

theorem passesBy_eq (held : c.settled.sets[(c.splitOf addr).set]? = some set) :
    c.passesBy addr = c.layer.disabled set.placement.place := by
  rcases exists_of_settled held with ⟨old, found, build⟩
  rw [passesBy, found, build.placement]
  rfl

theorem Sound.request_follows (valid : s.Valid) (h : c.Sound s) (built : c.Built s)
    (design : s.cache.design ≠ .constant) (small : addr < 2 ^ addressBits) (time : Time)
    (size : Nat) (access : Access) :
    c.Follows s.cache.ways addr (c.request time size addr access) := by
  rcases h.exists_settled valid design addr with ⟨set, held⟩
  have built' := built.settled _ set held
  have ways := built'.ways_eq (h.settled.stored.fits _ set held)
  have passes := passesBy_eq held
  have before := (c.settled_shelf _).symm.trans (shelf_of_set held)
  cases used : c.layer.disabled set.placement.place with
  | true =>
      rcases h.request_passes design small held used time size access with ⟨fault, past⟩
      have kept : ∀ i, (c.request time size addr access).2.shelf i = c.remaining i := by
        intro i
        rw [shelf, past.sets, ← c.settled_shelf i, shelf]
      refine ⟨fun i _ => kept i, fun _ => ⟨fault, past.bypasses, kept⟩, fun stays => ?_,
        fun stays => ?_⟩
      · rw [passes, used] at stays
        cases stays
      · rw [passes, used] at stays
        cases stays
  | false =>
      have counted := h.request_counts valid design small held built' used time size access
      have stays : c.passesBy addr = false := passes.trans used
      -- Whether it fails or not, the request has replaced one set.
      have replaced : ∀ set', (c.request time size addr access).2.sets =
          c.settled.sets.setIfInBounds (c.splitOf addr).set set' →
          (∀ i, i ≠ (c.splitOf addr).set →
            (c.request time size addr access).2.shelf i = c.remaining i) ∧
          (c.request time size addr access).2.shelf (c.splitOf addr).set = set'.shelf := by
        intro set' sets
        have after := shelf_of_setIfInBounds held sets
        refine ⟨fun i other => ?_, ?_⟩
        · rw [after, if_neg other, settled_shelf]
        · rw [after, if_pos rfl]
      cases failed : (c.request time size addr access).1.fault with
      | none =>
          rw [failed] at counted
          rcases counted with ⟨found, ⟨set', answers, sets⟩, classes⟩
          rcases replaced set' sets with ⟨others, here⟩
          refine ⟨others, fun past => absurd past (by simp [stays]), fun _ _ => ?_,
            fun _ fault => absurd failed fault⟩
          have serves := answers.serves
          rw [ways, ← before, ← here] at serves
          rw [settled_classes] at classes
          intro shelf found'
          have same : found = found' := serves.found_eq
          exact same ▸ ⟨classes, serves⟩
      | some fault =>
          rw [failed] at counted
          rcases counted with ⟨set', _, sets, content⟩
          rcases replaced set' sets with ⟨others, here⟩
          refine ⟨others, fun past => absurd past (by simp [stays]),
            fun _ fine => absurd (failed.symm.trans fine) nofun, fun _ _ => ?_⟩
          rw [← before, ways, ← here] at content
          exact content

/-! ## Runs -/

/-- A request has put one set in the place of another, or it has gone past the cache. -/
theorem Sound.request_replaces (valid : s.Valid) (h : c.Sound s) (built : c.Built s)
    (design : s.cache.design ≠ .constant) (small : addr < 2 ^ addressBits) (time : Time)
    (size : Nat) (access : Access) :
    (c.request time size addr access).2.sets = c.settled.sets ∨
      ∃ set set', c.settled.sets[(c.splitOf addr).set]? = some set ∧ set.SameBuild set' ∧
        (c.request time size addr access).2.sets =
          c.settled.sets.setIfInBounds (c.splitOf addr).set set' := by
  rcases h.exists_settled valid design addr with ⟨set, held⟩
  have built' := built.settled _ set held
  cases used : c.layer.disabled set.placement.place with
  | true => exact .inl (h.request_passes design small held used time size access).2.sets
  | false =>
      right
      have counted := h.request_counts valid design small held built' used time size access
      cases failed : (c.request time size addr access).1.fault with
      | none =>
          rw [failed] at counted
          rcases counted with ⟨found, ⟨set', answers, sets⟩, _⟩
          exact ⟨set, set', held, answers.build, sets⟩
      | some fault =>
          rw [failed] at counted
          rcases counted with ⟨set', build, sets, _⟩
          exact ⟨set, set', held, build, sets⟩

theorem Sound.request_built (valid : s.Valid) (h : c.Sound s) (built : c.Built s)
    (design : s.cache.design ≠ .constant) (small : addr < 2 ^ addressBits) (time : Time)
    (size : Nat) (access : Access) : (c.request time size addr access).2.Built s := by
  rcases h.request_replaces valid built design small time size access with
    same | ⟨set, set', held, build, sets⟩
  · intro i other found
    exact built.settled i other (same ▸ found)
  · rw [Built, sets]
    exact forall_setIfInBounds built.settled (build.built (built.settled _ set held))

/-- Requests apart, operations leave the sets alone or forget their counts. -/
theorem perform_sets (c : Controller) {op : Operation}
    (idle : ∀ time size addr access, op ≠ .request time size addr access) :
    (c.perform op).sets = c.sets ∨ (c.perform op).sets = c.sets.map CacheSet.resetCounts := by
  cases op with
  | request time size addr access => exact absurd rfl (idle time size addr access)
  | setTemperature p t => exact .inl rfl
  | setHot p hot =>
      rcases c.perform_setHot p hot with ⟨stack, marked⟩
      rw [marked]
      exact .inl rfl
  | runEpoch => exact .inl rfl
  | resetCounts => exact .inr rfl

theorem perform_shelf (c : Controller) {op : Operation}
    (idle : ∀ time size addr access, op ≠ .request time size addr access) (i : Nat) :
    (c.perform op).shelf i = c.shelf i := by
  unfold shelf
  rcases c.perform_sets idle with same | reset
  · rw [same]
  · rw [reset, Array.getElem?_map]
    cases c.sets[i]? <;> rfl

theorem Sound.perform_built (valid : s.Valid) (h : c.Sound s) (built : c.Built s)
    (design : s.cache.design ≠ .constant) (op : Operation) : (c.perform op).Built s := by
  have reset : ∀ set : CacheSet, set.Built s.cache → set.resetCounts.Built s.cache :=
    fun set fits => ⟨fits.ways, fits.ranking⟩
  by_cases request : ∃ time size addr access, op = .request time size addr access
  · rcases request with ⟨time, size, addr, access, rfl⟩
    exact h.request_built valid built design addr.toNat_lt time size access
  · have idle : ∀ time size addr access, op ≠ .request time size addr access :=
      fun time size addr access same => request ⟨time, size, addr, access, same⟩
    rw [Built]
    rcases c.perform_sets idle with same | forgotten
    · rw [same]
      exact built
    · rw [forgotten]
      exact forall_map built reset

theorem Sound.run_built (valid : s.Valid) (h : c.Sound s) (built : c.Built s)
    (design : s.cache.design ≠ .constant) (ops : List Operation) : (c.run ops).Built s := by
  induction ops generalizing c with
  | nil => exact built
  | cons op ops ih => exact ih (h.perform valid op) (h.perform_built valid built design op)

/-! ## Rest -/

/-- The operation is neither a request nor an epoch. -/
def Operation.rests : Operation → Bool
  | .request .. => false
  | .runEpoch => false
  | _ => true

/-- Nothing has happened that a request could notice. -/
structure Rests (c c' : Controller) : Prop where
  layer : c.layer.Steady c'.layer
  pageTable : c'.pageTable = c.pageTable
  sets : ∀ i : Nat, c'.sets[i]?.map CacheSet.resetCounts = c.sets[i]?.map CacheSet.resetCounts
  reaches : ∀ row, c.Reaches row → c'.Reaches row

instance : IsPreorder Controller Rests where
  refl _ := ⟨refl _, rfl, fun _ => rfl, fun _ reaches => reaches⟩
  trans _ _ _ h h' := ⟨IsTrans.trans _ _ _ h.layer h'.layer, h'.pageTable.trans h.pageTable,
    fun i => (h'.sets i).trans (h.sets i), fun row reaches => h'.reaches row (h.reaches row reaches)⟩

theorem perform_rests (c : Controller) {op : Operation} (rests : op.rests = true) :
    c.Rests (c.perform op) := by
  have steady : ∀ layer, c.layer.Steady layer → ∀ stack, (∀ l, c.stack.Offers l → stack.Offers l) →
      ∀ row, c.Reaches row → Reaches row { c with layer := layer, stack := stack } := by
    rintro layer steady stack offers row ⟨physical, located, offered⟩
    exact ⟨physical, (steady.physicalLocation row).trans located, offers physical offered⟩
  cases op with
  | request _ _ _ _ => cases rests
  | runEpoch => cases rests
  | setTemperature p t =>
      have layer := c.layer.steady_setTemperature p t
      exact ⟨layer, rfl, fun _ => rfl, steady _ layer _ fun _ offers => offers⟩
  | setHot p hot =>
      simp only [perform]
      cases marked : c.setHot p hot with
      | error cause => exact refl c
      | ok c' =>
          rcases setHot_ok marked with ⟨u, stack, done, rfl⟩
          exact ⟨refl c.layer, rfl, fun _ => rfl, steady _ (refl c.layer) _ fun _ =>
            Stack.setHot_offers p hot c.stack u stack done⟩
  | resetCounts =>
      have layer := c.layer.steady_resetCounts
      refine ⟨layer, rfl, fun i => ?_, fun row reaches => ?_⟩
      · simp only [perform, resetCounts, Array.getElem?_map, Option.map_map]
        rfl
      · exact steady _ layer _ (fun _ offers => offers.resetActivity) row reaches

theorem run_rests (c : Controller) {ops : List Operation} (rests : ∀ op ∈ ops, op.rests = true) :
    c.Rests (c.run ops) := by
  induction ops generalizing c with
  | nil => exact refl c
  | cons op ops ih =>
      have first := c.perform_rests (rests op List.mem_cons_self)
      exact IsTrans.trans _ _ _ first (ih _ fun op hop => rests op (List.mem_cons_of_mem _ hop))

/-! ## Requests that come again -/

/-- The address of a page that has its frame. -/
theorem address_again (paged : c'.pageTable = c.pageTable.map fun t => (t.renumber addr).2) :
    c'.address addr = c.address addr := by
  unfold address
  rw [paged]
  cases c.pageTable with
  | none => rfl
  | some t => exact congrArg Prod.fst (t.renumber_again addr)

/-- Where an address falls, and what it asks for, depends on the settings and the page table. -/
theorem Sound.asks (h : c.Sound s) (h' : c'.Sound s) (same : c'.address addr = c.address addr) :
    c'.splitOf addr = c.splitOf addr ∧ c'.wanted addr = c.wanted addr := by
  have split : c'.splitOf addr = c.splitOf addr := by
    rw [splitOf, splitOf, same, h.splitter, h'.splitter]
  refine ⟨split, ?_⟩
  have design : c'.organisation.design = c.organisation.design := h'.design.trans h.design.symm
  rw [wanted, wanted, split, h.blockSize, h'.blockSize]
  cases organised : c.organisation <;> cases organised' : c'.organisation <;>
    simp [organised, organised', Organisation.design, Organisation.wanted] at design ⊢

/-- What an address finds if its set rests: the bank stays in use, and the block is there. -/
theorem Sound.repeats (valid : s.Valid) (h : c.Sound s) (built : c.Built s)
    (design : s.cache.design ≠ .constant) (small : addr < 2 ^ addressBits)
    (stays : c.passesBy addr = false) {time : Time} {size : Nat} {access : Access}
    (served : (c.request time size addr access).1.fault = none) (sound' : c'.Sound s)
    (rests : (c.request time size addr access).2.Rests c') :
    c'.passesBy addr = false ∧
      (c'.remaining (c'.splitOf addr).set).find (c'.splitOf addr).tag (c'.wanted addr) = .hit ∧
      ∀ time size access, (c'.request time size addr access).1.fault = none := by
  rcases h.exists_settled valid design addr with ⟨set, held⟩
  have used : c.layer.disabled set.placement.place = false := (passesBy_eq held) ▸ stays
  have visits := h.request_visits design small held used time size access
  have reaches := h.request_reaches design small held used served
  have counted := h.request_counts valid design small held (built.settled _ set held) used time size
    access
  rw [served] at counted
  rcases counted with ⟨found, ⟨set₁, answers, sets⟩, _⟩
  have layer := IsTrans.trans _ _ _ visits.layer rests.layer
  rcases h.asks sound' (address_again (rests.pageTable.trans visits.pageTable)) with
    ⟨split, wanted⟩
  -- The set that has answered is still there, up to its counts.
  have answered : (c.request time size addr access).2.sets[(c.splitOf addr).set]? = some set₁ := by
    rw [sets, getElem?_setIfInBounds_of_some held]
  have same := rests.sets (c.splitOf addr).set
  rw [answered, Option.map_some, Option.map_eq_some_iff] at same
  rcases same with ⟨set₂, found₂, alike⟩
  have placement : set₂.placement = set.placement :=
    (congrArg CacheSet.placement alike).trans answers.build.placement
  have lines := congrArg CacheSet.lines alike
  have shelf : set₂.shelf = set₁.shelf := congrArg shelfOf lines
  have stays' : c'.passesBy addr = false := by
    rw [passesBy, split, found₂, Option.any_some, placement, layer.disabled, settled_disabled]
    exact used
  have remains : c'.remaining (c'.splitOf addr).set = set₁.shelf := by
    have kept : c'.gone (c'.splitOf addr).set = false := by
      rw [gone, split, found₂, Option.any_some, layer.contentValid, settled_contentValid]
      rfl
    rw [remaining, kept, if_neg Bool.false_ne_true, split, shelf_of_set found₂, shelf]
  have hit : (c'.remaining (c'.splitOf addr).set).find (c'.splitOf addr).tag (c'.wanted addr) =
      .hit := by
    rw [remains, split, wanted]
    exact answers.serves.find_again
  refine ⟨stays', hit, fun time size access => ?_⟩
  rcases sound'.exists_settled valid design addr with ⟨set', held'⟩
  rcases exists_of_settled held' with ⟨old, found', build⟩
  have here : old = set₂ := by
    rw [split, found₂] at found'
    exact (Option.some.inj found').symm
  refine sound'.request_again valid design small held' ?_ ?_ time size access
  · rw [build.placement, here, placement]
    exact rests.reaches _ reaches
  · rw [← shelf_of_set held', settled_shelf]
    exact hit

/-! ## Refinement -/

/-- All that comes next is as in the reference cache. -/
structure Refines (s : Settings) (c : Controller) : Prop where
  /-- No set holds more tags than it has ways. -/
  room : ∀ i, (c.shelf i).keys.card ≤ s.cache.ways
  /-- A cache of blocks holds no tag without its block. -/
  whole : s.cache.design = .alloy → ∀ i tag blocks,
    (c.shelf i).lookup tag = some blocks → 0 ∈ blocks
  follows : ∀ time size (addr : UInt64) access,
    c.Follows s.cache.ways addr.toNat (c.request time size addr.toNat access)
  /-- Nothing else changes what a set holds. -/
  idle : ∀ op : Operation, (∀ time size addr access, op ≠ .request time size addr access) →
    ∀ i, (c.perform op).shelf i = c.shelf i
  /-- A request that has been served is a hit if it comes again. -/
  repeats : ∀ time size (addr : UInt64) access (ops : List Operation),
    c.passesBy addr.toNat = false → (c.request time size addr.toNat access).1.fault = none →
    (∀ op ∈ ops, op.rests = true) →
    let c' := (c.request time size addr.toNat access).2.run ops
    c'.passesBy addr.toNat = false ∧
      (c'.remaining (c'.splitOf addr.toNat).set).find (c'.splitOf addr.toNat).tag
        (c'.wanted addr.toNat) = .hit ∧
      ∀ time size access, (c'.request time size addr.toNat access).1.fault = none

theorem Sound.refines (valid : s.Valid) (h : c.Sound s) (built : c.Built s)
    (design : s.cache.design ≠ .constant) : c.Refines s := by
  refine ⟨fun i => ?_, fun alloy i tag blocks held => ?_, fun time size addr access => ?_,
    fun op idle => c.perform_shelf idle, fun time size addr access ops stays served rests => ?_⟩
  · cases found : c.sets[i]? with
    | none => simp [shelf, found]
    | some set =>
        have fits := h.stored.fits i set found
        rw [shelf_of_set found, ← (built i set found).ways_eq fits]
        exact fits.coherent.card_shelf_le
  · cases found : c.sets[i]? with
    | none => simp [shelf, found] at held
    | some set =>
        have fits := h.stored.fits i set found
        have kind := fits.kind
        rw [if_pos alloy] at kind
        rw [shelf_of_set found] at held
        exact fits.coherent.mem_of_direct kind held
  · exact h.request_follows valid built design addr.toNat_lt time size access
  · have sound := h.perform valid (.request time size addr access)
    exact h.repeats valid built design addr.toNat_lt stays served (sound.run valid ops)
      (run_rests _ rests)

end Controller

end StackedCache
