import StackedCache.Proofs.Service.Designs

/-!
# Requests

A request draws the consequences of relocation, gets its address renumbered, and is then sent past
the cache or served by the design.  A sound controller serves every request, and is sound
afterwards, if banks and rows of the stack were counted exactly; but a cache of sets refuses the tag
that stands for no tag.
-/

namespace StackedCache

namespace Controller

variable {c c' : Controller} {s : Settings} {access : Access} {addr : Nat}

/-- The sets refuse an address: its tag is the number that stands for no tag, and the request does
not go past them. -/
def refuses (c : Controller) (addr : Nat) : Bool :=
  let split := c.splitter.split addr
  c.organisation.design ≠ .constant && split.tag = noTag &&
    (c.set? split.set).any fun set => !c.layer.disabled set.placement.place

theorem refuses_eq {set : CacheSet} (design : c.organisation.design ≠ .constant)
    (found : c.sets[(c.splitter.split addr).set]? = some set) :
    c.refuses addr =
      ((c.splitter.split addr).tag = noTag && !c.layer.disabled set.placement.place) := by
  simp [refuses, design, set?, found]

/-- An address falls into one of the sets. -/
theorem Sound.exists_set (valid : s.Valid) (h : c.Sound s) (design : s.cache.design ≠ .constant)
    (addr : Nat) : ∃ set, c.sets[(c.splitter.split addr).set]? = some set := by
  have hlt := c.splitter.split_set_lt addr
  -- The splitter counts trailing zeros, which gives back a power of two.
  have count : c.splitter.sets = s.cache.sets.toNat := by
    rw [h.splitter]
    exact Splitter.sets_ofSizes valid.cache.sets
  rw [count, ← h.stored.size design] at hlt
  exact ⟨_, Array.getElem?_eq_getElem hlt⟩

/-- The block at an offset of a page is one of the page. -/
theorem Sound.block_lt_page (valid : s.Valid) (h : c.Sound s) (design : s.cache.design = .unison)
    (addr : Nat) : (c.splitter.split addr).offset / c.blockSize < s.cache.blocksPerPage := by
  have bytes : s.cache.lineBytes = s.cache.pageSize.toNat := if_pos design
  have offset := c.splitter.split_offset_lt addr
  have line : c.splitter.lineSize = s.cache.pageSize.toNat := by
    rw [h.splitter, bytes]
    exact Splitter.lineSize_ofSizes valid.cache.pageSize
  rw [line] at offset
  rw [h.blockSize]
  exact StackedCache.block_lt valid.cache.blockSize valid.cache.pageSize valid.cache.block_le offset

/-- So it is one of those tracked. -/
theorem Sound.block_lt (valid : s.Valid) (h : c.Sound s) (design : s.cache.design = .unison)
    (addr : Nat) : (c.splitter.split addr).offset / c.blockSize < maxBlocks :=
  Nat.lt_of_lt_of_le (h.block_lt_page valid design addr) valid.cache.blocks_le

end Controller

namespace Service

variable {c : Controller} {s : Settings} {E : Fault → Controller → Prop}

/-- A request goes past the cache if its bank is out of use. -/
theorem bypass_does (h : c.Framed s) (row : Location) (size : Nat) :
    Does (bypass row size) c
      (fun past c' => past = c.layer.disabled row.place ∧ c'.Framed s ∧ c.Beside c' ∧
        (past = false → c' = c)) E := by
  unfold bypass
  refine .theController_bind (.ite (fun disabled => ?_) fun used => ?_)
  · refine .count_bind (.load_bind (.pure ⟨disabled.symm, h.modifyCounts _, ?_, ?_⟩))
    · exact ⟨rfl, rfl, rfl, rfl⟩
    · intro past
      cases past
  · exact .pure ⟨by simpa using used, h, .rfl, fun _ => rfl⟩

/-- A request that stays with the cache is refused for its tag only. -/
theorem refuses_of_tag {m : Serving Unit} {access : Access} {addr tag : Nat}
    (refuses : c.refuses addr = decide (tag = noTag))
    (done : Does m c (fun _ c' => c.Served s access c' ∧ tag ≠ noTag)
      (c.Failed s access (tag = noTag))) :
    Does m c (fun _ c' => c.Served s access c' ∧ c.refuses addr = false)
      (c.Failed s access (c.refuses addr = true)) := by
  refine done.mono ?_ ?_
  · rintro _ c' ⟨served, proper⟩
    exact ⟨served, by simp [refuses, proper]⟩
  · rintro fault c' ⟨served, unfit | ⟨rfl, htag⟩⟩
    · exact ⟨served, .inl unfit⟩
    · exact ⟨served, .inr ⟨rfl, by simp [refuses, htag]⟩⟩

theorem serveByDesign_does (valid : s.Valid) (h : c.Sound s) (arrival : Time) (size addr : Nat)
    (access : Access) :
    Does (serveByDesign arrival size addr access) c
      (fun _ c' => c.Served s access c' ∧ c.refuses addr = false)
      (c.Failed s access (c.refuses addr = true)) := by
  unfold serveByDesign
  refine .theController_bind ?_
  have design := h.design
  cases organised : c.organisation with
  | segments segments =>
      have served : c.refuses addr = false := by
        simp [Controller.refuses, organised, Organisation.design]
      refine .bind (bypass_does h.toFramed _ _) ?_
      rintro past c₁ ⟨_, framed, beside, same⟩
      cases past with
      | true => exact .pure ⟨h.served framed beside, served⟩
      | false =>
          -- A request that is not sent past the cache has changed nothing yet.
          rw [same rfl]
          refine (serveSegment_keeps valid arrival size addr access h.toFramed).mono ?_ ?_
          · exact fun _ _ kept => ⟨h.served kept.1 kept.2, served⟩
          · exact fun _ _ failed => ⟨h.served failed.1 failed.2.1, .inl failed.2.2⟩
  | blocks =>
      have alloy : s.cache.design = .alloy := by rw [← design, organised]; rfl
      rcases h.exists_set valid (by simp [alloy]) addr with ⟨set, found⟩
      have refuses := Controller.refuses_eq (by simp [organised, Organisation.design]) found
      refine .setAt_bind found (.bind (bypass_does h.toFramed _ _) ?_)
      rintro past c₁ ⟨used, framed, beside, same⟩
      rw [← used] at refuses
      cases past with
      | true => exact .pure ⟨h.served framed beside, by simpa using refuses⟩
      | false =>
          rw [same rfl]
          exact refuses_of_tag (by simpa using refuses)
            (serveBlock_does h alloy found arrival size access)
  | pages history =>
      have unison : s.cache.design = .unison := by rw [← design, organised]; rfl
      rcases h.exists_set valid (by simp [unison]) addr with ⟨set, found⟩
      have refuses := Controller.refuses_eq (by simp [organised, Organisation.design]) found
      refine .setAt_bind found (.bind (bypass_does h.toFramed _ _) ?_)
      rintro past c₁ ⟨used, framed, beside, same⟩
      rw [← used] at refuses
      cases past with
      | true =>
          refine .count_bind (.pure ⟨?_, by simpa using refuses⟩)
          exact h.served (framed.modifyCounts _) (beside.trans ⟨rfl, rfl, rfl, rfl⟩)
      | false =>
          rw [same rfl]
          have block := h.block_lt valid unison addr
          exact refuses_of_tag (by simpa using refuses)
            (servePage_does h unison found block arrival access)

end Service

/-! ## Consequences of relocation -/

theorem Layer.disabled_settle (l : Layer) (p : BankPlace) : l.settle.disabled p = l.disabled p := by
  have bank : ∀ id, l.settle.bankDisabled id = l.bankDisabled id := by
    intro id
    simp only [Layer.bankDisabled, Layer.bank?, Layer.settle, Array.getElem?_map, Option.any_map]
    rfl
  have vault : ∀ v, l.settle.vaultDisabled v = l.vaultDisabled v := by
    intro v
    simp only [Layer.vaultDisabled, Layer.vault?, Layer.settle, Array.getElem?_map, Option.any_map]
    rfl
  simp only [Layer.disabled, Layer.idDisabled, bank, vault]
  rfl

namespace Controller

variable {c c' c₁ : Controller} {s : Settings} {access : Access} {addr : Nat} {set : CacheSet}

/-- The controller once the consequences of relocation are drawn. -/
def settled (c : Controller) : Controller := c.drawConsequences.2

theorem settled_sets (c : Controller) :
    c.settled.sets = if c.layer.pending then c.sets.map c.settleSet else c.sets := by
  unfold settled drawConsequences
  cases c.layer.pending <;> rfl

/-- A set is as it was, or dropped with its blocks counted. -/
theorem toll_add (coherent : set.Coherent) (t : Toll) :
    (t.add c set).counts.writebackBlocks + (c.settleSet set).dirtyBlocks =
        t.counts.writebackBlocks + set.dirtyBlocks ∧
      (t.add c set).counts.invalidatedBlocks + (c.settleSet set).validBlocks =
        t.counts.invalidatedBlocks + set.validBlocks ∧
      (t.add c set).counts.loadedBlocks = t.counts.loadedBlocks := by
  unfold Toll.add settleSet
  cases c.layer.consequence set.placement with
  | none => exact ⟨rfl, rfl, rfl⟩
  | dropped =>
      rcases coherent.drop_clean with ⟨clean, empty⟩
      simp only [Toll.addDropped, Toll.work, clean, empty, coherent.droppedDirty_eq]
      -- An empty set is not counted as invalidated, and has no blocks to count.
      by_cases hvalid : set.validBlocks = 0
      · simp [hvalid]
      · simp [hvalid]
  | moved =>
      simp only [Toll.addMoved]
      by_cases hvalid : set.validBlocks = 0
      · simp [hvalid]
      · simp [hvalid, Toll.work]

theorem toll_foldl (sets : List CacheSet) (coherent : ∀ set ∈ sets, set.Coherent) (t : Toll) :
    (sets.foldl (Toll.add c) t).counts.writebackBlocks +
          ((sets.map c.settleSet).map CacheSet.dirtyBlocks).sum =
        t.counts.writebackBlocks + (sets.map CacheSet.dirtyBlocks).sum ∧
      (sets.foldl (Toll.add c) t).counts.invalidatedBlocks +
          ((sets.map c.settleSet).map CacheSet.validBlocks).sum =
        t.counts.invalidatedBlocks + (sets.map CacheSet.validBlocks).sum ∧
      (sets.foldl (Toll.add c) t).counts.loadedBlocks = t.counts.loadedBlocks := by
  -- The toll grows from set to set; the equations are kept for whatever it is so far.
  induction sets generalizing t with
  | nil => exact ⟨rfl, rfl, rfl⟩
  | cons set sets ih =>
      rcases toll_add (c := c) (coherent set List.mem_cons_self) t with ⟨dirty, valid, loaded⟩
      obtain ⟨dirties, valids, loadeds⟩ :=
        ih (fun other hother => coherent other (List.mem_cons_of_mem _ hother)) (t.add c set)
      simp only [List.foldl_cons, List.map_cons, List.sum_cons]
      refine ⟨by omega, by omega, loadeds.trans loaded⟩

/-- Dropped blocks are counted as written back, if they were dirty, and as invalidated. -/
structure Settles (c c' : Controller) : Prop where
  dirty : c'.counts.writebackBlocks + c'.dirtyBlocks = c.counts.writebackBlocks + c.dirtyBlocks
  valid : c'.counts.invalidatedBlocks + c'.validBlocks =
    c.counts.invalidatedBlocks + c.validBlocks
  loaded : c'.counts.loadedBlocks = c.counts.loadedBlocks

theorem Sound.settles (h : c.Sound s) : c.Settles c.settled := by
  unfold settled drawConsequences
  cases c.layer.pending with
  | false => exact ⟨rfl, rfl, rfl⟩
  | true =>
      have coherent : ∀ set ∈ c.sets.toList, set.Coherent := fun set hset =>
        (h.stored.mem hset).coherent
      obtain ⟨dirty, valid, loaded⟩ := toll_foldl (c := c) c.sets.toList coherent
        { vaults := Array.replicate c.stack.geometry.vaults Time.zero, counts := c.counts }
      simp only [if_true]
      refine ⟨?_, ?_, ?_⟩
      · simpa [dirtyBlocks, toll] using dirty
      · simpa [validBlocks, toll] using valid
      · simpa [toll] using loaded

/-- Drawing the consequences of relocation keeps the controller sound. -/
theorem Sound.settled (h : c.Sound s) : c.settled.Sound s := by
  unfold Controller.settled drawConsequences
  cases c.layer.pending with
  | false => exact h
  | true =>
      simp only [if_true]
      have dropped := h.toFramed.withSets (c.sets.map c.settleSet)
      have framed := (dropped.modifyCounts fun _ => c.toll.counts).perform .settle
      refine ⟨framed, h.stored.map ?_⟩
      intro set fits
      unfold settleSet
      split
      · exact ⟨fits.coherent.drop, fits.kind, fits.placed⟩
      · exact fits

/-- The consequences of relocation do not change what is refused. -/
theorem refuses_settled (c : Controller) (addr : Nat) :
    c.settled.refuses addr = c.refuses addr := by
  -- Sets stay where they are, and the layer's journal is no part of what is out of use.
  have placement : ∀ set, (c.settleSet set).placement = set.placement := by
    intro set
    unfold settleSet
    split <;> rfl
  unfold settled drawConsequences
  cases c.layer.pending with
  | false => rfl
  | true =>
      simp only [if_true, refuses, set?, Array.getElem?_map, Option.any_map, Layer.disabled_settle]
      congr 2
      funext set
      simp only [placement]

/-! ## Whole requests -/

/-- The address after the renumbering of pages. -/
def address (c : Controller) (addr : Nat) : Nat :=
  match c.pageTable with
  | some table => (table.renumber addr).1
  | none => addr

/-- What comes of a request is accounted for, from the consequences of relocation on. -/
structure Accounts (access : Access) (c c' : Controller) : Prop where
  dirty : c'.counts.writebackBlocks + c'.dirtyBlocks =
    c.counts.writebackBlocks + c.dirtyBlocks + c.settled.dirtied c'
  /-- Reads make no block dirty. -/
  reads : access = .read → c.settled.dirtied c' = 0
  valid : c'.validBlocks + c.settled.replaced c' + c'.counts.invalidatedBlocks +
      c.counts.loadedBlocks =
    c.validBlocks + c.counts.invalidatedBlocks + c'.counts.loadedBlocks

theorem Accounts.of_settles (settles : c.Settles c.settled)
    (balanced : c.settled.Balanced access c') : c.Accounts access c' := by
  -- Two equations of naturals in a row; sums on both sides keep subtraction out.
  have dirty := settles.dirty
  have valid := settles.valid
  have loaded := settles.loaded
  have dirty' := balanced.dirty
  have valid' := balanced.valid
  have invalidated := balanced.invalidated
  exact ⟨by omega, balanced.reads, by omega⟩

/-- Counters that count no blocks have no part in the account. -/
theorem Accounts.of_beside_left (beside : c.Beside c₁) (sets : c₁.settled.sets = c.settled.sets)
    (h : c₁.Accounts access c') : c.Accounts access c' := by
  have dirtied : c.settled.dirtied c' = c₁.settled.dirtied c' := dirtied_congr sets.symm rfl
  have replaced : c.settled.replaced c' = c₁.settled.replaced c' := replaced_congr sets.symm rfl
  refine ⟨?_, fun hread => dirtied.trans (h.reads hread), ?_⟩
  · rw [dirtied, ← beside.writebackBlocks, ← beside.dirtyBlocks]
    exact h.dirty
  · rw [replaced, ← beside.loadedBlocks, ← beside.validBlocks, ← beside.invalidatedBlocks]
    exact h.valid

theorem Served.of_beside_left (beside : c.Beside c₁) (h : c₁.Served s access c') :
    c.Served s access c' :=
  ⟨h.sound, h.balanced.of_beside_left beside⟩

theorem settled_address (c : Controller) (addr : Nat) :
    c.settled.address addr = c.address addr := by
  unfold settled drawConsequences
  cases c.layer.pending <;> rfl

end Controller

namespace Service

open Controller (Served Failed)

variable {c : Controller} {s : Settings} {access : Access} {addr : Nat}
  {E : Fault → Controller → Prop}

theorem settle_does : Does settle c (fun _ c' => c' = c.settled) E := by
  refine .theController_bind (.modifyController_bind (.charge rfl))

theorem renumber_does (h : c.Framed s) (small : addr < 2 ^ addressBits) :
    Does (renumber addr) c
      (fun a c' => a = c.address addr ∧ c'.Framed s ∧ c.Beside c' ∧
        ∀ a, c'.refuses a = c.refuses a) E := by
  unfold renumber
  refine .theController_bind ?_
  unfold Controller.address
  cases paged : c.pageTable with
  | none => exact .pure ⟨rfl, h, .rfl, fun _ => rfl⟩
  | some table =>
      refine .modifyController_bind (.pure ⟨rfl, ?_, ⟨rfl, rfl, rfl, rfl⟩, fun _ => rfl⟩)
      refine ⟨h.layer, h.geometry, h.stack, h.design, h.splitter, h.blockSize, ?_⟩
      intro t ht
      cases ht
      exact ((h.pageTable table paged).renumber small).2

theorem serve_does (valid : s.Valid) (h : c.Sound s) (small : addr < 2 ^ addressBits)
    (arrival : Time) (size : Nat) (access : Access) :
    Does (serve arrival size addr access) c
      (fun _ c' => c.settled.Served s access c' ∧ c.refuses (c.address addr) = false)
      (c.settled.Failed s access (c.refuses (c.address addr) = true)) := by
  have start := h.settled
  refine .bind settle_does ?_
  rintro _ _ rfl
  refine .theController_bind (.charge_bind ?_)
  refine .bind (renumber_does start.toFramed small) ?_
  rintro _ c₁ ⟨rfl, framed, beside, refuses⟩
  have sound : c₁.Sound s := ⟨framed, beside.sets ▸ start.stored⟩
  -- Whether the tag is refused is asked of the state before the request.
  have same : c₁.refuses (c.settled.address addr) = c.refuses (c.address addr) := by
    calc
      c₁.refuses (c.settled.address addr) = c.settled.refuses (c.settled.address addr) :=
        refuses _
      _ = c.refuses (c.settled.address addr) := Controller.refuses_settled c _
      _ = c.refuses (c.address addr) := by rw [Controller.settled_address]
  rw [← same]
  refine .bind (.mono (serveByDesign_does valid sound arrival size _ access)
    (fun _ _ done => done) ?_) ?_
  · exact fun _ _ failed => ⟨.of_beside_left beside failed.1, failed.2⟩
  · rintro _ c₂ ⟨served, accepted⟩
    refine .theController_bind (.charge_bind (.charge ⟨?_, accepted⟩))
    exact .of_beside_left beside served

end Service

namespace Controller

variable {c c' : Controller} {s : Settings} {access : Access} {addr : Nat}

/-- The controller once a request is put in order and counted. -/
def arrived (c : Controller) (time : Time) (access : Access) : Controller :=
  (c.order time).2.countRequest access

theorem arrived_eq (c : Controller) (time : Time) (access : Access) :
    ∃ counts lastTime, c.arrived time access = { c with counts := counts, lastTime := lastTime } ∧
      counts.writebackBlocks = c.counts.writebackBlocks ∧
      counts.loadedBlocks = c.counts.loadedBlocks ∧
      counts.invalidatedBlocks = c.counts.invalidatedBlocks := by
  unfold arrived order countRequest
  split <;> cases access <;> exact ⟨_, _, rfl, rfl, rfl, rfl⟩

/-- A request is served once it is put in order and counted. -/
theorem request_eq (c : Controller) (time : Time) (size addr : Nat) (access : Access) :
    c.request time size addr access =
      match Service.serve (c.order time).1 size addr access ⟨c.arrived time access, .zero⟩ with
      | .ok _ s => (⟨none, s.elapsed⟩, s.controller)
      | .error fault s => (⟨some fault, s.elapsed⟩, s.controller) := rfl

/-- What a request does to a sound controller: all is accounted for, and it fails only if its tag is
refused, or if banks or rows of the stack were not counted exactly. -/
structure Responds (s : Settings) (access : Access) (addr : Nat) (c : Controller)
    (r : Outcome × Controller) : Prop where
  sound : r.2.Sound s
  accounts : c.Accounts access r.2
  fault : s.stack.CountsFit → r.1.fault =
    if c.refuses (c.address addr) then some (.cache (.lookupMiss noTag)) else none

theorem request_responds (valid : s.Valid) (h : c.Sound s) (small : addr < 2 ^ addressBits)
    (time : Time) (size : Nat) (access : Access) :
    Responds s access addr c (c.request time size addr access) := by
  rcases c.arrived_eq time access with ⟨counts, lastTime, arrived, writebacks, loads, invalidated⟩
  -- Order and kind of the request are counted first, apart from sets and blocks.
  have sound : (c.arrived time access).Sound s := by
    rw [arrived]
    exact ⟨⟨h.layer, h.geometry, h.stack, h.design, h.splitter, h.blockSize, h.pageTable⟩, h.stored⟩
  have beside : c.Beside (c.arrived time access) := by
    rw [arrived]
    exact ⟨rfl, writebacks, loads, invalidated⟩
  have sets : (c.arrived time access).settled.sets = c.settled.sets := by
    rw [settled_sets, settled_sets, arrived]
    rfl
  have account : ∀ c', (c.arrived time access).settled.Served s access c' →
      c'.Sound s ∧ c.Accounts access c' := fun c' served =>
    ⟨served.sound, (Accounts.of_settles sound.settles served.balanced).of_beside_left beside sets⟩
  have refuses : (c.arrived time access).refuses ((c.arrived time access).address addr) =
      c.refuses (c.address addr) := by
    rw [arrived]
    rfl
  have done := Service.serve_does valid sound small (c.order time).1 size access .zero
  rw [request_eq]
  rw [refuses] at done
  cases run : Service.serve (c.order time).1 size addr access ⟨c.arrived time access, .zero⟩ with
  | ok u served =>
      rw [run] at done
      rcases account _ done.1 with ⟨sound', accounts⟩
      exact ⟨sound', accounts, fun _ => by rw [done.2]; rfl⟩
  | error fault failed =>
      rw [run] at done
      rcases account _ done.1 with ⟨sound', accounts⟩
      refine ⟨sound', accounts, ?_⟩
      intro fits
      rcases done.2 with unfit | ⟨rfl, refused⟩
      · exact absurd fits unfit
      · rw [refused]
        rfl

end Controller

end StackedCache
