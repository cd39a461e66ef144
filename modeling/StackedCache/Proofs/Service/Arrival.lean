import StackedCache.Proofs.Service.Request

/-!
# The way of a request to its design

Before a design serves a request, the request is counted, the consequences of relocation are drawn
and the address is renumbered.  `Enters` says what the design then finds, in terms of the controller
before the request, and `request_does` that nothing happens to the controller after the design.
-/

namespace StackedCache

/-- The counters by which a request is classified. -/
def CacheCounts.classes (n : CacheCounts) : Nat × Nat × Nat × Nat :=
  (n.bypasses, n.misses, n.pageMisses, n.blockMisses)

namespace Controller

variable {c c₁ : Controller} {s : Settings} {addr : Nat}

/-! ## Drawn consequences -/

theorem settled_organisation (c : Controller) : c.settled.organisation = c.organisation := by
  unfold settled drawConsequences
  cases c.layer.pending <;> rfl

theorem settled_stack (c : Controller) : c.settled.stack = c.stack := by
  unfold settled drawConsequences
  cases c.layer.pending <;> rfl

theorem settled_pageTable (c : Controller) : c.settled.pageTable = c.pageTable := by
  unfold settled drawConsequences
  cases c.layer.pending <;> rfl

theorem settled_splitter (c : Controller) : c.settled.splitter = c.splitter := by
  unfold settled drawConsequences
  cases c.layer.pending <;> rfl

theorem settled_blockSize (c : Controller) : c.settled.blockSize = c.blockSize := by
  unfold settled drawConsequences
  cases c.layer.pending <;> rfl

theorem settled_layer (c : Controller) :
    c.settled.layer = if c.layer.pending then c.layer.settle else c.layer := by
  unfold settled drawConsequences
  cases c.layer.pending <;> rfl

theorem settled_mapping (c : Controller) : c.settled.layer.mapping = c.layer.mapping := by
  rw [settled_layer]
  split <;> rfl

/-- All data may be used afterwards. -/
theorem settled_contentValid (c : Controller) (p : BankPlace) :
    c.settled.layer.contentValid p = true := by
  rw [settled_layer]
  unfold Layer.contentValid Layer.entry?
  cases pending : c.layer.pending with
  | true =>
      simp only [if_true, Layer.bank?_settle]
      split
      · cases c.layer.bank? _ <;> rfl
      · rfl
  | false =>
      have clean : ∀ e ∈ c.layer.banks, e.contentValid = true := by
        intro e he
        have idle := Array.any_eq_false.1 pending
        rcases Array.mem_iff_getElem.1 he with ⟨i, hi, rfl⟩
        have := idle i hi
        simp only [Entry.pending, Bool.or_eq_true, Bool.not_eq_true', not_or] at this
        simpa using this.1
      simp only [Bool.false_eq_true, if_false]
      split
      · cases found : c.layer.bank? (c.layer.geometry.bankId p) with
        | none => rfl
        | some e => exact clean e (Array.mem_of_getElem? found)
      · rfl

theorem settled_disabled (c : Controller) (p : BankPlace) :
    c.settled.layer.disabled p = c.layer.disabled p := by
  rw [settled_layer]
  split
  · exact c.layer.disabled_settle p
  · rfl

/-- The toll counts blocks, so it keeps what depends on other counters only. -/
theorem toll_keeps {α : Type} (f : CacheCounts → α) (c : Controller)
    (dirty : ∀ (n : CacheCounts) (blocks : Nat), f { n with writebackBlocks := blocks } = f n)
    (dropped : ∀ (n : CacheCounts) (sets blocks : Nat),
      f { n with invalidations := sets, invalidatedBlocks := blocks } = f n)
    (moved : ∀ (n : CacheCounts) (sets blocks : Nat),
      f { n with migrations := sets, migratedBlocks := blocks } = f n) :
    f c.toll.counts = f c.counts := by
  have add : ∀ (t : Toll) (set : CacheSet), f (t.add c set).counts = f t.counts := by
    intro t set
    unfold Toll.add
    split
    · rfl
    · unfold Toll.addDropped
      dsimp only
      split
      · exact dirty t.counts _
      · exact (dirty _ _).trans (dropped t.counts _ _)
    · unfold Toll.addMoved
      dsimp only
      split
      · rfl
      · exact moved t.counts _ _
  have all : ∀ (sets : List CacheSet) (t : Toll),
      f (sets.foldl (Toll.add c) t).counts = f t.counts := by
    intro sets
    induction sets with
    | nil => exact fun _ => rfl
    | cons set sets ih => exact fun t => (ih _).trans (add t set)
  unfold toll
  rw [← Array.foldl_toList]
  exact all c.sets.toList _

theorem settled_keeps {α : Type} (f : CacheCounts → α) (c : Controller)
    (dirty : ∀ (n : CacheCounts) (blocks : Nat), f { n with writebackBlocks := blocks } = f n)
    (dropped : ∀ (n : CacheCounts) (sets blocks : Nat),
      f { n with invalidations := sets, invalidatedBlocks := blocks } = f n)
    (moved : ∀ (n : CacheCounts) (sets blocks : Nat),
      f { n with migrations := sets, migratedBlocks := blocks } = f n) :
    f c.settled.counts = f c.counts := by
  unfold settled drawConsequences
  cases c.layer.pending with
  | false => rfl
  | true => exact c.toll_keeps f dirty dropped moved

theorem settled_classes (c : Controller) : c.settled.counts.classes = c.counts.classes :=
  c.settled_keeps CacheCounts.classes (fun _ _ => rfl) (fun _ _ _ => rfl) fun _ _ _ => rfl

theorem settled_loadedBlocks (c : Controller) :
    c.settled.counts.loadedBlocks = c.counts.loadedBlocks :=
  c.settled_keeps CacheCounts.loadedBlocks (fun _ _ => rfl) (fun _ _ _ => rfl) fun _ _ _ => rfl

/-! ## Arrival -/

/-- The consequences of relocation are drawn, and requests may have been counted. -/
structure Drawn (c c₁ : Controller) : Prop where
  sets : c₁.sets = c.settled.sets
  organisation : c₁.organisation = c.organisation
  stack : c₁.stack = c.stack
  layer : c₁.layer = c.settled.layer
  splitter : c₁.splitter = c.splitter
  blockSize : c₁.blockSize = c.blockSize
  classes : c₁.counts.classes = c.counts.classes
  loadedBlocks : c₁.counts.loadedBlocks = c.counts.loadedBlocks

/-- What a design finds when it is to serve a request for an address: the page of the address has
its frame. -/
structure Enters (addr : Nat) (c c₁ : Controller) : Prop extends c.Drawn c₁ where
  pageTable : c₁.pageTable = c.pageTable.map fun t => (t.renumber addr).2

theorem drawn_settled (c : Controller) : c.Drawn c.settled :=
  ⟨rfl, c.settled_organisation, c.settled_stack, rfl, c.settled_splitter, c.settled_blockSize,
    c.settled_classes, c.settled_loadedBlocks⟩

/-- It makes no difference that the request is counted before the consequences are drawn. -/
theorem drawn_arrived (c : Controller) (time : Time) (access : Access) :
    c.Drawn (c.arrived time access).settled := by
  have classes : (c.arrived time access).counts.classes = c.counts.classes := by
    unfold arrived order countRequest
    split <;> cases access <;> rfl
  have drawn := (c.arrived time access).drawn_settled
  rcases c.arrived_eq time access with ⟨counts, lastTime, arrived, _, loaded, _⟩
  have drawn_classes := drawn.classes.trans classes
  rw [arrived] at drawn drawn_classes ⊢
  refine ⟨?_, drawn.organisation, drawn.stack, ?_, drawn.splitter, drawn.blockSize,
    drawn_classes, drawn.loadedBlocks.trans loaded⟩
  · rw [settled_sets, settled_sets]
    rfl
  · rw [settled_layer, settled_layer]

end Controller

namespace Service

variable {c c₁ : Controller} {s : Settings} {addr : Nat}

/-- The address is renumbered, and its page keeps the frame. -/
theorem renumber_enters {E : Fault → Controller → Prop} (drawn : c.Drawn c₁)
    (paged : c₁.pageTable = c.pageTable) :
    Does (renumber addr) c₁ (fun a c₂ => a = c.address addr ∧ c.Enters addr c₂) E := by
  unfold renumber
  refine .theController_bind ?_
  rw [paged]
  unfold Controller.address
  cases table : c.pageTable with
  | none =>
      refine .pure ⟨rfl, drawn, ?_⟩
      rw [paged, table]
      rfl
  | some t =>
      refine .modifyController_bind (.pure ⟨rfl, ⟨drawn.sets, drawn.organisation, drawn.stack,
        drawn.layer, drawn.splitter, drawn.blockSize, drawn.classes, drawn.loadedBlocks⟩, ?_⟩)
      rw [table]
      rfl

/-- How a request that goes past a cache of sets is counted. -/
def countBypass (o : Organisation) (n : CacheCounts) : CacheCounts :=
  match o with
  | .pages _ =>
      { n with
        bypasses := n.bypasses + 1
        misses := n.misses + 1
        blockMisses := n.blockMisses + 1 }
  | _ => { n with bypasses := n.bypasses + 1, misses := n.misses + 1 }

/-- How a request that does not go past a cache of sets is served. -/
def serveSet (o : Organisation) (arrival : Time) (size : Nat) (split : SplitAddress)
    (access : Access) : Serving Unit :=
  match o with
  | .pages _ => servePage arrival split access
  | _ => serveBlock arrival size split access

/-- In a cache of sets, a request goes past the cache if the bank of its set is out of use, and is
served out of the set otherwise. -/
theorem serveByDesign_sets {Q : Controller → Prop} {E : Fault → Controller → Prop} {set : CacheSet}
    (design : c.organisation.design ≠ .constant)
    (held : c.sets[(c.splitter.split addr).set]? = some set) (arrival : Time) (size : Nat)
    (access : Access)
    (past : c.layer.disabled set.placement.place = true →
      Q (c.modifyCounts (countBypass c.organisation)))
    (served : c.layer.disabled set.placement.place = false →
      Does (serveSet c.organisation arrival size (c.splitter.split addr) access) c (fun _ => Q) E) :
    Does (serveByDesign arrival size addr access) c (fun _ => Q) E := by
  unfold serveByDesign
  refine .theController_bind ?_
  unfold serveSet at served
  unfold countBypass at past
  have asked : ∀ (f : Bool → Serving Unit),
      (c.layer.disabled set.placement.place = true → Does (f true)
        (c.modifyCounts fun n => { n with bypasses := n.bypasses + 1, misses := n.misses + 1 })
        (fun _ => Q) E) →
      (c.layer.disabled set.placement.place = false → Does (f false) c (fun _ => Q) E) →
      Does (bypass set.placement size >>= f) c (fun _ => Q) E := by
    intro f gone stays
    unfold bypass
    refine .bind (P := fun past c' => Does (f past) c' (fun _ => Q) E) ?_ fun _ _ done => done
    refine .theController_bind (.ite (fun disabled => ?_) fun used => ?_)
    · exact .count_bind (.load_bind (.pure (gone disabled)))
    · exact .pure (stays (by simpa using used))
  cases organised : c.organisation with
  | segments _ => exact absurd (by rw [organised]; rfl) design
  | blocks =>
      rw [organised] at past served
      exact .setAt_bind held (asked _ (fun disabled => .pure (past disabled)) served)
  | pages history =>
      rw [organised] at past served
      refine .setAt_bind held (asked _ (fun disabled => .count_bind (.pure ?_)) served)
      exact past disabled

end Service

namespace Controller

variable {c : Controller} {s : Settings} {addr : Nat}

/-- What holds of every service by the design holds of the request. -/
theorem Sound.request_does {Q : Controller → Prop} {E : Fault → Controller → Prop}
    (h : c.Sound s) (small : addr < 2 ^ addressBits) (time : Time) (size : Nat) (access : Access)
    (served : ∀ c₁, c.Enters addr c₁ → c₁.Sound s →
      Does (Service.serveByDesign (c.order time).1 size (c.address addr) access) c₁ (fun _ => Q) E) :
    match (c.request time size addr access).1.fault with
    | none => Q (c.request time size addr access).2
    | some fault => E fault (c.request time size addr access).2 := by
  have drawn := c.drawn_arrived time access
  have paged : (c.arrived time access).settled.pageTable = c.pageTable := by
    rw [settled_pageTable]
    unfold arrived order countRequest
    split <;> cases access <;> rfl
  have sound : (c.arrived time access).settled.Sound s := by
    rcases c.arrived_eq time access with ⟨counts, lastTime, arrived, _⟩
    rw [arrived]
    exact Sound.settled
      ⟨⟨h.layer, h.geometry, h.stack, h.design, h.splitter, h.blockSize, h.pageTable⟩, h.stored⟩
  have done : Does (Service.serve (c.order time).1 size addr access) (c.arrived time access)
      (fun _ => Q) E := by
    refine .bind Service.settle_does ?_
    rintro _ _ rfl
    refine .theController_bind (.charge_bind ?_)
    have renumbered : Does (Service.renumber addr) (c.arrived time access).settled
        (fun a c₂ => a = c.address addr ∧ c.Enters addr c₂) E :=
      Service.renumber_enters drawn paged
    have framed := Service.renumber_does (E := E) sound.toFramed small
    refine .bind ((renumbered.and framed).mono (fun _ _ both => both) fun _ _ both => both.1) ?_
    rintro _ c₁ ⟨⟨rfl, enters⟩, _, framed, beside, _⟩
    refine .bind (served c₁ enters ⟨framed, beside.sets ▸ sound.stored⟩) ?_
    intro _ c₂ done
    exact .theController_bind (.charge_bind (.charge done))
  have done := done .zero
  rw [request_eq]
  cases run : Service.serve (c.order time).1 size addr access ⟨c.arrived time access, .zero⟩ with
  | ok u served =>
      rw [run] at done
      exact done
  | error fault failed =>
      rw [run] at done
      exact done

/-- The address and its place in the cache. -/
def splitOf (c : Controller) (addr : Nat) : SplitAddress := c.splitter.split (c.address addr)

/-- A request for an address falls into a set, which may just have been dropped. -/
theorem Sound.exists_settled (valid : s.Valid) (h : c.Sound s) (design : s.cache.design ≠ .constant)
    (addr : Nat) : ∃ set, c.settled.sets[(c.splitOf addr).set]? = some set := by
  have exists_set := h.settled.exists_set valid design (c.address addr)
  rwa [settled_splitter] at exists_set

/-- In a cache of sets, a request goes past the cache or is served out of its set. -/
theorem Sound.request_sets {Q : Controller → Prop} {E : Fault → Controller → Prop} {set : CacheSet}
    (h : c.Sound s) (design : s.cache.design ≠ .constant) (small : addr < 2 ^ addressBits)
    (held : c.settled.sets[(c.splitOf addr).set]? = some set) (time : Time) (size : Nat)
    (access : Access)
    (past : c.layer.disabled set.placement.place = true → ∀ c₁, c.Enters addr c₁ →
      Q (c₁.modifyCounts (Service.countBypass c.organisation)))
    (served : c.layer.disabled set.placement.place = false → ∀ c₁, c.Enters addr c₁ → c₁.Sound s →
      Does (Service.serveSet c.organisation (c.order time).1 size (c.splitOf addr) access) c₁
        (fun _ => Q) E) :
    match (c.request time size addr access).1.fault with
    | none => Q (c.request time size addr access).2
    | some fault => E fault (c.request time size addr access).2 := by
  refine h.request_does small time size access ?_
  intro c₁ enters sound
  have disabled : c₁.layer.disabled set.placement.place = c.layer.disabled set.placement.place := by
    rw [enters.layer, settled_disabled]
  have split : c₁.splitter.split (c.address addr) = c.splitOf addr := by
    rw [enters.splitter, splitOf]
  have found : c₁.sets[(c₁.splitter.split (c.address addr)).set]? = some set := by
    rw [split, enters.sets]
    exact held
  refine Service.serveByDesign_sets ?_ found _ size access ?_ ?_
  · rw [sound.design]
    exact design
  · rw [disabled, enters.organisation]
    exact fun gone => past gone c₁ enters
  · rw [disabled, enters.organisation, split]
    exact fun used => served used c₁ enters sound

/-- A request for an address has gone past the cache: after the consequences of relocation, nothing
has happened to it. -/
structure Passes (addr : Nat) (c c' : Controller) : Prop where
  sets : c'.sets = c.settled.sets
  organisation : c'.organisation = c.organisation
  stack : c'.stack = c.stack
  layer : c'.layer = c.settled.layer
  pageTable : c'.pageTable = c.pageTable.map fun t => (t.renumber addr).2
  bypasses : c'.counts.bypasses = c.counts.bypasses + 1

theorem Sound.request_passes {set : CacheSet} (h : c.Sound s) (design : s.cache.design ≠ .constant)
    (small : addr < 2 ^ addressBits) (held : c.settled.sets[(c.splitOf addr).set]? = some set)
    (disabled : c.layer.disabled set.placement.place = true) (time : Time) (size : Nat)
    (access : Access) :
    (c.request time size addr access).1.fault = none ∧
      c.Passes addr (c.request time size addr access).2 := by
  have passed := h.request_sets (Q := c.Passes addr) (E := fun _ _ => False) design small held time
    size access
    (fun _ c₁ enters => by
      have bypasses : c₁.counts.bypasses = c.counts.bypasses := congrArg Prod.fst enters.classes
      refine ⟨enters.sets, enters.organisation, enters.stack, enters.layer, enters.pageTable, ?_⟩
      rw [← bypasses]
      unfold modifyCounts Service.countBypass
      cases c.organisation <;> rfl)
    fun used => absurd disabled (by simp [used])
  cases failed : (c.request time size addr access).1.fault with
  | some fault =>
      rw [failed] at passed
      exact passed.elim
  | none =>
      rw [failed] at passed
      exact ⟨rfl, passed⟩

end Controller

end StackedCache
