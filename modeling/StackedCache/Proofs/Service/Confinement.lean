import StackedCache.Proofs.Service.Arrival
import StackedCache.Proofs.Service.Upholding
import StackedCache.Proofs.Relocation.Outcome
import StackedCache.Proofs.Stack.Elsewhere

/-!
# What a request reaches of the stack

A cache of sets serves a request out of one row, that of the set.  Whether it is served in the end or
fails, the request changes no bank of the stack but the one the row is on, `Confined`, and leaves
everything where it is and in or out of use, `Layer.Steady`.
-/

namespace StackedCache

/-! ## Layers that differ in what they have recorded -/

namespace Layer

variable {l l' : Layer}

/-- Everything is where it was, what is in use stays so, and so does what may be used of the data. -/
structure Steady (l l' : Layer) : Prop where
  settings : l'.settings = l.settings
  mapping : l'.mapping = l.mapping
  disabled : l'.disabled = l.disabled
  contentValid : l'.contentValid = l.contentValid

instance : IsPreorder Layer Steady where
  refl _ := ⟨rfl, rfl, rfl, rfl⟩
  trans _ _ _ h h' := ⟨h'.settings.trans h.settings, h'.mapping.trans h.mapping,
    h'.disabled.trans h.disabled, h'.contentValid.trans h.contentValid⟩

/-- Where a row is depends on the mapping alone. -/
theorem Steady.physicalLocation (h : l.Steady l') (row : Location) :
    l'.physicalLocation row = l.physicalLocation row := by
  unfold Layer.physicalLocation bankId? geometry
  rw [h.mapping]

/-- The entries differ in their counts only. -/
theorem Steady.of_entries (settings : l'.settings = l.settings) (mapping : l'.mapping = l.mapping)
    (banks : ∀ id, ∃ f : Entry → Entry,
      (∀ e, (f e).disabled = e.disabled ∧ (f e).contentValid = e.contentValid) ∧
        l'.bank? id = (l.bank? id).map f)
    (vaults : ∀ v, ∃ f : Entry → Entry,
      (∀ e, (f e).disabled = e.disabled) ∧ l'.vault? v = (l.vault? v).map f) : l.Steady l' := by
  have geometry : l'.geometry = l.geometry := congrArg Mapping.geometry mapping
  have bankDisabled : ∀ id, l'.bankDisabled id = l.bankDisabled id := by
    intro id
    rcases banks id with ⟨f, hf, found⟩
    simp only [Layer.bankDisabled, found, Option.any_map]
    exact congrArg (Option.any · _) (funext fun e => (hf e).1)
  have vaultDisabled : ∀ v, l'.vaultDisabled v = l.vaultDisabled v := by
    intro v
    rcases vaults v with ⟨f, hf, found⟩
    simp only [Layer.vaultDisabled, found, Option.any_map]
    exact congrArg (Option.any · _) (funext fun e => hf e)
  refine ⟨settings, mapping, funext fun p => ?_, funext fun p => ?_⟩
  · simp only [Layer.disabled, idDisabled, geometry, bankDisabled, vaultDisabled]
  · rcases banks (l.geometry.bankId p) with ⟨f, hf, found⟩
    have same : (fun e => (f e).contentValid) = Entry.contentValid := funext fun e => (hf e).2
    simp only [Layer.contentValid, entry?, geometry, found]
    split
    · simp only [Option.all_map, same]
    · rfl

theorem steady_recordAccess (l : Layer) (row : Location) (requests : Nat) :
    l.Steady (l.perform (.recordAccess row requests)) := by
  rcases perform_recordAccess l row requests with refused | ⟨ledger, recorded⟩
  · rw [refused]
    exact refl l
  · rw [recorded]
    refine .of_entries rfl rfl (fun id => ?_) fun v => ?_
    -- One bank and one vault have counted, and all others have their old entries.
    · by_cases bank : l.geometry.bankId row.place = id
      · exact ⟨(·.recordAccess row.row requests), fun _ => ⟨rfl, rfl⟩,
          (bank?_modifyBank _ _ id _).trans (if_pos bank)⟩
      · refine ⟨fun e => e, fun _ => ⟨rfl, rfl⟩, ?_⟩
        rw [Option.map_id']
        exact (bank?_modifyBank _ _ id _).trans (if_neg bank)
    · by_cases vault : row.vault = v
      · exact ⟨(·.recordAccess row.bank requests), fun _ => rfl,
          (vault?_modifyVault _ _ v _).trans (if_pos vault)⟩
      · refine ⟨fun e => e, fun _ => rfl, ?_⟩
        rw [Option.map_id']
        exact (vault?_modifyVault _ _ v _).trans (if_neg vault)

theorem steady_resetCounts (l : Layer) : l.Steady l.resetCounts :=
  .of_entries rfl rfl (fun id => ⟨Entry.resetCounts, fun _ => ⟨rfl, rfl⟩, bank?_resetCounts l id⟩)
    fun v => ⟨Entry.resetCounts, fun _ => rfl, vault?_resetCounts l v⟩

theorem steady_setTemperature (l : Layer) (p : BankPlace) (t : Celsius) :
    l.Steady (l.perform (.setTemperature p t)) := by
  rcases perform_setTemperature l p t with ⟨ledger, stored⟩
  rw [stored]
  exact ⟨rfl, rfl, rfl, rfl⟩

end Layer

/-! ## Confined parts of a request -/

/-- No bank of the stack has changed but the one that has a row, and everything has stayed where it
is. -/
structure Controller.Confined (row : Location) (c c' : Controller) : Prop where
  layer : c.layer.Steady c'.layer
  pageTable : c'.pageTable = c.pageTable
  stack : ∀ p, (∀ physical, c.layer.physicalLocation row = .ok physical → physical.place ≠ p) →
    c'.stack.bank? p = c.stack.bank? p

namespace Service

open Controller (Confined)

/-- The controllers of the two states. -/
def ConfinedTo (row : Location) (s s' : Service) : Prop := s.controller.Confined row s'.controller

theorem ConfinedTo.of_eq {row : Location} {s s' : Service}
    (stack : s'.controller.stack = s.controller.stack)
    (layer : s'.controller.layer = s.controller.layer)
    (pageTable : s'.controller.pageTable = s.controller.pageTable) : ConfinedTo row s s' :=
  ⟨layer ▸ refl _, pageTable, fun _ _ => by rw [stack]⟩

instance (row : Location) : IsPreorder Service (ConfinedTo row) where
  refl _ := .of_eq rfl rfl rfl
  trans s s' _ h h' := by
    refine ⟨IsTrans.trans _ _ _ h.layer h'.layer, h'.pageTable.trans h.pageTable, fun p elsewhere => ?_⟩
    have still : ∀ physical, s'.controller.layer.physicalLocation row = .ok physical →
        physical.place ≠ p := by
      rw [h.layer.physicalLocation]
      exact elsewhere
    exact (h'.stack p still).trans (h.stack p elsewhere)

variable {row : Location} {s : Service} {access : Access} {split : SplitAddress}

/-! ### Steps that do not reach the stack -/

section Elementary

variable {α : Type}

theorem theController_bind_confined {f : Controller → Serving α}
    (h : Leads (ConfinedTo row) (f s.controller) s) :
    Leads (ConfinedTo row) (theController >>= f) s := h

theorem modifyController_confined {g : Controller → Controller}
    (stack : (g s.controller).stack = s.controller.stack)
    (layer : (g s.controller).layer = s.controller.layer)
    (pageTable : (g s.controller).pageTable = s.controller.pageTable) :
    Leads (ConfinedTo row) (modifyController g) s := .of_eq stack layer pageTable

theorem count_confined (g : CacheCounts → CacheCounts) : Leads (ConfinedTo row) (count g) s :=
  modifyController_confined rfl rfl rfl

theorem storeSet_confined (index : Nat) (set : CacheSet) :
    Leads (ConfinedTo row) (storeSet index set) s := modifyController_confined rfl rfl rfl

theorem charge_confined (t : Time) : Leads (ConfinedTo row) (charge t) s := .of_eq rfl rfl rfl

theorem load_confined (bytes : Nat) : Leads (ConfinedTo row) (load bytes) s :=
  theController_bind_confined (charge_confined _)

theorem stream_confined (bytes : Nat) : Leads (ConfinedTo row) (stream bytes) s :=
  theController_bind_confined (charge_confined _)

theorem attempt_confined {ε : Type} (wrap : ε → Fault) (r : Except ε α) :
    Leads (ConfinedTo row) (attempt wrap r) s := by
  cases r with
  | ok a => exact .pure a
  | error cause => exact .throw _

theorem setAt_confined (index : Nat) : Leads (ConfinedTo row) (setAt index) s := by
  refine theController_bind_confined ?_
  cases s.controller.set? index with
  | some set => exact .pure set
  | none => exact .throw _

end Elementary

theorem replaceBlock_confined (set : CacheSet) :
    Leads (ConfinedTo row) (replaceBlock access split set) s := by
  refine .bind (storeSet_confined _ _) fun _ _ _ => .bind (attempt_confined _ _) fun _ _ _ => ?_
  refine .bind (storeSet_confined _ _) fun _ _ _ => .bind (attempt_confined _ _) fun _ _ _ => ?_
  exact .bind (storeSet_confined _ _) fun _ _ _ => .pure _

theorem predict_confined (block : Nat) : Leads (ConfinedTo row) (predict block) s := by
  refine theController_bind_confined ?_
  cases s.controller.organisation with
  | blocks => exact .pure _
  | segments _ => exact .pure _
  | pages history =>
      exact .bind (modifyController_confined rfl rfl rfl) fun _ _ _ => .pure _

theorem learn_confined (evicted : Eviction) : Leads (ConfinedTo row) (learn evicted) s := by
  refine theController_bind_confined ?_
  cases s.controller.organisation with
  | blocks => exact .pure _
  | segments _ => exact .pure _
  | pages history => exact .ite (modifyController_confined rfl rfl rfl) (.pure _)

theorem replacePage_confined (block : Nat) :
    Leads (ConfinedTo row) (replacePage access split block) s := by
  refine .bind (predict_confined block) fun _ _ _ => .bind (setAt_confined _) fun _ _ _ => ?_
  refine .bind (storeSet_confined _ _) fun _ _ _ => .bind (attempt_confined _ _) fun _ _ _ => ?_
  refine .bind (storeSet_confined _ _) fun _ _ _ => .bind (attempt_confined _ _) fun _ _ _ => ?_
  refine .bind (storeSet_confined _ _) fun _ _ _ => .bind (learn_confined _) fun _ _ _ => ?_
  exact .pure _

/-! ### Steps that transfer -/

/-- A transfer of a row reaches the bank the row is on. -/
theorem transfer_confined (arrival : Time) (access : Access) (bytes : Nat) (row : Location) :
    Leads (ConfinedTo row) (transfer arrival access bytes row) s := by
  refine .bind (.pure s) fun here _ same => ?_
  cases same
  refine .bind (attempt_confined _ _) fun physical s₁ found => ?_
  obtain ⟨located, rfl⟩ := attempt_yields _ _ s physical s₁ found
  have served : Leads (ConfinedTo row)
      (onStack (Stack.transfer access bytes physical (arrival + s₁.elapsed))) s₁ := by
    have reached := Stack.transfer_sameBut access bytes physical (arrival + s₁.elapsed)
      (s := s₁.controller.stack)
    -- What is not where the row is, is not where the transfer goes.
    have confined : ∀ stack, s₁.controller.stack.SameBut physical.place stack →
        s₁.controller.Confined row { s₁.controller with stack := stack } := fun stack same =>
      ⟨refl _, rfl, fun p elsewhere => same p fun here => elsewhere physical located here.symm⟩
    unfold Leads onStack
    unfold Leads at reached
    cases run : Stack.transfer access bytes physical (arrival + s₁.elapsed) s₁.controller.stack with
    | ok done stack =>
        rw [run] at reached
        exact confined stack reached
    | error cause stack =>
        rw [run] at reached
        exact confined stack reached
  refine .bind served fun done s₂ _ => theController_bind_confined ?_
  refine .bind (attempt_confined _ _) fun layer s₃ recorded => ?_
  obtain ⟨recorded, rfl⟩ := attempt_yields _ _ s₂ layer s₃ recorded
  refine .bind ?_ fun _ _ _ => charge_confined _
  have performed := Layer.perform_of_recorded recorded
  exact ⟨performed ▸ Layer.steady_recordAccess _ row done.requests, rfl, fun _ _ => rfl⟩

/-- Reading the set at an index. -/
theorem setAt_bind_confined {α : Type} {index : Nat} {set : CacheSet} {f : CacheSet → Serving α}
    (found : s.controller.sets[index]? = some set) (h : Leads (ConfinedTo row) (f set) s) :
    Leads (ConfinedTo row) (setAt index >>= f) s := by
  have answered : s.controller.set? index = some set := found
  have taken : setAt index s = .ok set s := by
    unfold setAt
    rw [bind_of_ok (rfl : theController s = .ok s.controller s), answered]
    rfl
  unfold Leads
  rw [bind_of_ok taken]
  exact h

/-- A block is served out of the row of its set. -/
theorem serveBlock_confined {set : CacheSet} (found : s.controller.sets[split.set]? = some set)
    (arrival : Time) (size : Nat) :
    Leads (ConfinedTo set.placement) (serveBlock arrival size split access) s := by
  -- The row is that of the set as it was found first, also after the set has been replaced.
  refine setAt_bind_confined found (.bind (transfer_confined _ _ _ _) fun _ s₁ _ => ?_)
  refine .bind (setAt_confined _) fun set₁ s₂ _ => .bind (storeSet_confined _ _) fun _ s₃ _ => ?_
  refine .ite (.bind (replaceBlock_confined _) fun dirty s₄ _ => ?_) (transfer_confined _ _ _ _)
  refine .bind (count_confined _) fun _ s₅ _ => theController_bind_confined ?_
  refine .bind (transfer_confined _ _ _ _) fun _ s₆ _ => .bind (load_confined _) fun _ s₇ _ => ?_
  exact .bind (stream_confined _) fun _ s₈ _ => transfer_confined _ _ _ _

/-- A page is served out of the row of its set. -/
theorem servePage_confined {set : CacheSet} (found : s.controller.sets[split.set]? = some set)
    (arrival : Time) :
    Leads (ConfinedTo set.placement) (servePage arrival split access) s := by
  refine theController_bind_confined (setAt_bind_confined found ?_)
  refine .bind (transfer_confined _ _ _ _) fun _ s₁ _ => ?_
  refine .bind (setAt_confined _) fun set₁ s₂ _ => .bind (storeSet_confined _ _) fun _ s₃ _ => ?_
  split
  · exact transfer_confined _ _ _ _
  · refine .bind (count_confined _) fun _ s₄ _ => .bind (load_confined _) fun _ s₅ _ => ?_
    exact transfer_confined _ _ _ _
  · refine .bind (replacePage_confined _) fun moved s₄ _ => .bind (count_confined _) fun _ s₅ _ => ?_
    refine .bind (load_confined _) fun _ s₆ _ => .bind (stream_confined _) fun _ s₇ _ => ?_
    exact transfer_confined _ _ _ _

/-- A set is served out of its row. -/
theorem serveSet_confined {c : Controller} {set : CacheSet} (held : c.sets[split.set]? = some set)
    (o : Organisation) (arrival : Time) (size : Nat) :
    Does (serveSet o arrival size split access) c (fun _ c' => c.Confined set.placement c')
      fun _ c' => c.Confined set.placement c' := by
  intro elapsed
  have leads : Leads (ConfinedTo set.placement) (serveSet o arrival size split access)
      ⟨c, elapsed⟩ := by
    cases o with
    | pages _ => exact servePage_confined held arrival
    | blocks => exact serveBlock_confined held arrival size
    | segments _ => exact serveBlock_confined held arrival size
  unfold Leads at leads
  cases run : serveSet o arrival size split access ⟨c, elapsed⟩ with
  | ok u s' =>
      rw [run] at leads
      exact leads
  | error fault s' =>
      rw [run] at leads
      exact leads

end Service

namespace Controller

variable {c c' : Controller} {s : Settings} {addr : Nat} {set : CacheSet}

/-- A request for an address has been served out of a row, or has failed there. -/
structure Visits (addr : Nat) (row : Location) (c c' : Controller) : Prop where
  layer : c.settled.layer.Steady c'.layer
  pageTable : c'.pageTable = c.pageTable.map fun t => (t.renumber addr).2
  stack : ∀ p, (∀ physical, c.layer.physicalLocation row = .ok physical → physical.place ≠ p) →
    c'.stack.bank? p = c.stack.bank? p

theorem Sound.request_visits (h : c.Sound s) (design : s.cache.design ≠ .constant)
    (small : addr < 2 ^ addressBits) (held : c.settled.sets[(c.splitOf addr).set]? = some set)
    (used : c.layer.disabled set.placement.place = false) (time : Time) (size : Nat)
    (access : Access) :
    c.Visits addr set.placement (c.request time size addr access).2 := by
  have visited := h.request_sets (Q := c.Visits addr set.placement)
    (E := fun _ => c.Visits addr set.placement) design small held time size access
    (fun gone => absurd gone (by simp [used])) fun _ c₁ enters sound => by
      have visits : ∀ c', c₁.Confined set.placement c' → c.Visits addr set.placement c' := by
        intro c' confined
        refine ⟨enters.layer ▸ confined.layer, confined.pageTable.trans enters.pageTable, ?_⟩
        intro p elsewhere
        rw [confined.stack p, enters.stack]
        intro physical located
        refine elsewhere physical ?_
        rw [← located, enters.layer]
        unfold Layer.physicalLocation Layer.bankId? Layer.geometry
        rw [settled_mapping]
      have found : c₁.sets[(c.splitOf addr).set]? = some set := by
        rw [enters.sets]
        exact held
      exact (Service.serveSet_confined found c.organisation (c.order time).1 size).mono
        (fun _ c' => visits c') fun _ c' => visits c'
  cases failed : (c.request time size addr access).1.fault with
  | none =>
      rw [failed] at visited
      exact visited
  | some fault =>
      rw [failed] at visited
      exact visited

end Controller

end StackedCache
