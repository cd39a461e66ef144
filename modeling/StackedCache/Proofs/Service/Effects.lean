import StackedCache.Proofs.Service.Request

/-!
# What the parts of a request may do

Once the consequences of relocation are drawn, a request changes the controller in a few ways only:
it stores sets, organisation and page table, serves from the stack, records accesses and counts; and
it takes longer and longer.  A relation that covers these changes covers every part of a request,
whether it fails or not, and so all of it.
-/

namespace StackedCache

namespace Service

/-- Serves a request once the consequences of relocation are drawn. -/
def serveSettled (arrival : Time) (size addr : Nat) (access : Access) : Serving Unit := do
  charge (← theController).layer.settings.lookupLatency
  let addr ← renumber addr
  serveByDesign arrival size addr access
  let memory := (← theController).memory
  charge memory.queueLatency
  charge memory.busDelay

theorem serve_eq (arrival : Time) (size addr : Nat) (access : Access) :
    serve arrival size addr access = (do settle; serveSettled arrival size addr access) := rfl

variable {R : Service → Service → Prop} {α β : Type}

/-- The controller is changed and the time stays. -/
def changed (s : Service) (f : Controller → Controller) : Service :=
  { s with controller := f s.controller }

/-- A preorder that covers the changes of a request other than counts. -/
structure Covering (R : Service → Service → Prop) : Prop where
  refl : ∀ s, R s s
  trans : ∀ {s s' s''}, R s s' → R s' s'' → R s s''
  charge : ∀ s t, R s { s with elapsed := s.elapsed + t }
  sets : ∀ s sets, R s (s.changed fun c => { c with sets := sets })
  organisation : ∀ s o, R s (s.changed fun c => { c with organisation := o })
  pageTable : ∀ s t, R s (s.changed fun c => { c with pageTable := t })
  stack : ∀ s stack, R s (s.changed fun c => { c with stack := stack })
  layer : ∀ s row n layer, s.controller.layer.recordAccess row n = .ok layer →
    R s (s.changed fun c => { c with layer := layer })

/-- The step leads to a related state, whether it fails or not. -/
def Within (R : Service → Service → Prop) (m : Serving α) : Prop := ∀ s, Leads R m s

/-! ## Parts that do not count -/

section Silent

variable (covers : Covering R)
include covers

theorem within_pure (a : α) : Within R (pure a : Serving α) := fun s => covers.refl s

theorem within_throw (fault : Fault) : Within R (throw fault : Serving α) :=
  fun s => covers.refl s

theorem within_bind {m : Serving α} {f : α → Serving β} (first : Within R m)
    (rest : ∀ a, Within R (f a)) : Within R (m >>= f) := by
  have : IsPreorder Service R := { refl := covers.refl, trans := fun _ _ _ => covers.trans }
  exact fun s => (first s).bind fun a s' _ => rest a s'

omit covers in
theorem within_theController_bind {f : Controller → Serving β} (h : ∀ c, Within R (f c)) :
    Within R (theController >>= f) := fun s => h s.controller s

omit covers in
theorem within_get_bind {f : Service → Serving β} (h : ∀ s, Within R (f s)) :
    Within R (get >>= f) := fun s => h s s

omit covers in
theorem within_ite {c : Prop} [Decidable c] {m m' : Serving α} (yes : Within R m)
    (no : Within R m') : Within R (if c then m else m') := fun s => .ite (yes s) (no s)

omit covers in
theorem within_modifyController {g : Controller → Controller} (h : ∀ s, R s (s.changed g)) :
    Within R (modifyController g) := h

theorem within_charge (t : Time) : Within R (charge t) := fun s => covers.charge s t

theorem within_load (bytes : Nat) : Within R (load bytes) :=
  within_theController_bind fun _ => within_charge covers _

theorem within_stream (bytes : Nat) : Within R (stream bytes) :=
  within_theController_bind fun _ => within_charge covers _

theorem within_attempt {ε : Type} (wrap : ε → Fault) (r : Except ε α) :
    Within R (attempt wrap r) := by
  cases r with
  | ok a => exact within_pure covers a
  | error cause => exact within_throw covers _

theorem within_setAt (index : Nat) : Within R (setAt index) := by
  refine within_theController_bind fun c => ?_
  cases c.set? index with
  | some set => exact within_pure covers set
  | none => exact within_throw covers _

theorem within_storeSet (index : Nat) (set : CacheSet) : Within R (storeSet index set) :=
  within_modifyController fun s => covers.sets s _

theorem within_onStack (step : StackStep α) : Within R (onStack step) := by
  intro s
  unfold Leads onStack
  cases step s.controller.stack <;> exact covers.stack s _

theorem within_transfer (arrival : Time) (access : Access) (bytes : Nat) (row : Location) :
    Within R (transfer arrival access bytes row) := by
  refine within_get_bind fun here => ?_
  refine within_bind covers (within_attempt covers _ _) fun physical => ?_
  refine within_bind covers (within_onStack covers _) fun done s => ?_
  -- What is stored as the layer is what the layer has just recorded.
  unfold Leads
  rw [bind_of_ok (rfl : theController s = .ok s.controller s)]
  cases recorded : s.controller.layer.recordAccess row done.requests with
  | error cause => exact covers.refl s
  | ok layer =>
      have stored := covers.layer s row done.requests layer recorded
      exact covers.trans stored (covers.charge _ done.latency)

theorem within_renumber (addr : Nat) : Within R (renumber addr) := by
  refine within_theController_bind fun c => ?_
  cases c.pageTable with
  | none => exact within_pure covers addr
  | some table =>
      exact within_bind covers (within_modifyController fun s => covers.pageTable s _) fun _ =>
        within_pure covers _

theorem within_replaceBlock (access : Access) (split : SplitAddress) (set : CacheSet) :
    Within R (replaceBlock access split set) := by
  have store := within_storeSet covers split.set
  refine within_bind covers (store _) fun _ => ?_
  refine within_bind covers (within_attempt covers _ _) fun filled => ?_
  refine within_bind covers (store _) fun _ => ?_
  refine within_bind covers (within_attempt covers _ _) fun marked => ?_
  exact within_bind covers (store _) fun _ => within_pure covers _

theorem within_predict (block : Nat) : Within R (predict block) := by
  refine within_theController_bind fun c => ?_
  cases c.organisation with
  | blocks => exact within_pure covers _
  | segments _ => exact within_pure covers _
  | pages history =>
      exact within_bind covers (within_modifyController fun s => covers.organisation s _) fun _ =>
        within_pure covers _

theorem within_learn (evicted : Eviction) : Within R (learn evicted) := by
  refine within_theController_bind fun c => ?_
  cases c.organisation with
  | blocks => exact within_pure covers _
  | segments _ => exact within_pure covers _
  | pages history =>
      exact within_ite (within_modifyController fun s => covers.organisation s _)
        (within_pure covers _)

theorem within_replacePage (access : Access) (split : SplitAddress) (block : Nat) :
    Within R (replacePage access split block) := by
  have store := within_storeSet covers split.set
  refine within_bind covers (within_predict covers block) fun predicted => ?_
  refine within_bind covers (within_setAt covers _) fun set => ?_
  refine within_bind covers (store _) fun _ => ?_
  refine within_bind covers (within_attempt covers _ _) fun filled => ?_
  refine within_bind covers (store _) fun _ => ?_
  refine within_bind covers (within_attempt covers _ _) fun marked => ?_
  refine within_bind covers (store _) fun _ => ?_
  exact within_bind covers (within_learn covers _) fun _ => within_pure covers _

theorem within_accessSegment (index slot : Nat) : Within R (accessSegment index slot) := by
  refine within_theController_bind fun c => ?_
  cases c.organisation with
  | blocks => exact within_pure covers _
  | pages _ => exact within_pure covers _
  | segments segments =>
      dsimp only
      cases segments[index]? with
      | none => exact within_pure covers _
      | some segment =>
          exact within_bind covers (within_modifyController fun s => covers.organisation s _)
            fun _ => within_pure covers _

theorem within_copyRows (arrival : Time) (base rowSize n row : Nat) :
    Within R (copyRows arrival base rowSize n row) := by
  induction n generalizing row with
  | zero => exact within_pure covers _
  | succ n ih =>
      refine within_theController_bind fun c => ?_
      refine within_bind covers (within_transfer covers _ _ _ _) fun _ => ?_
      exact within_bind covers (within_transfer covers _ _ _ _) fun _ => ih (row + 1)

end Silent

/-! ## Parts that count -/

section Counting

variable (covers : Covering R) (counts : ∀ s f, R s (s.changed (·.modifyCounts f)))
include covers counts

omit covers in
theorem within_count (f : CacheCounts → CacheCounts) : Within R (count f) :=
  within_modifyController fun s => counts s f

theorem within_bypass (row : Location) (size : Nat) : Within R (bypass row size) := by
  refine within_theController_bind fun c => within_ite ?_ (within_pure covers _)
  refine within_bind covers (within_count counts _) fun _ => ?_
  exact within_bind covers (within_load covers _) fun _ => within_pure covers _

theorem within_serveBlock (arrival : Time) (size : Nat) (split : SplitAddress) (access : Access) :
    Within R (serveBlock arrival size split access) := by
  have transfers := within_transfer covers arrival
  refine within_bind covers (within_setAt covers _) fun set => ?_
  refine within_bind covers (transfers _ _ _) fun _ => ?_
  refine within_bind covers (within_setAt covers _) fun set => ?_
  refine within_bind covers (within_storeSet covers _ _) fun _ => within_ite ?_ (transfers _ _ _)
  refine within_bind covers (within_replaceBlock covers _ _ _) fun dirty => ?_
  refine within_bind covers (within_count counts _) fun _ => within_theController_bind fun c => ?_
  refine within_bind covers (transfers _ _ _) fun _ => ?_
  refine within_bind covers (within_load covers _) fun _ => ?_
  exact within_bind covers (within_stream covers _) fun _ => transfers _ _ _

theorem within_servePage (arrival : Time) (split : SplitAddress) (access : Access) :
    Within R (servePage arrival split access) := by
  have transfers := within_transfer covers arrival
  refine within_theController_bind fun c => within_bind covers (within_setAt covers _) fun set => ?_
  refine within_bind covers (transfers _ _ _) fun _ => ?_
  refine within_bind covers (within_setAt covers _) fun set => ?_
  refine within_bind covers (within_storeSet covers _ _) fun _ => ?_
  split
  · exact transfers _ _ _
  · refine within_bind covers (within_count counts _) fun _ => ?_
    exact within_bind covers (within_load covers _) fun _ => transfers _ _ _
  · refine within_bind covers (within_replacePage covers _ _ _) fun moved => ?_
    refine within_bind covers (within_count counts _) fun _ => ?_
    refine within_bind covers (within_load covers _) fun _ => ?_
    exact within_bind covers (within_stream covers _) fun _ => transfers _ _ _

theorem within_swapSegment (arrival : Time) (index : Nat) :
    Within R (swapSegment arrival index) := by
  refine within_theController_bind fun c => within_bind covers (within_count counts _) fun _ => ?_
  exact within_bind covers (within_copyRows covers _ _ _ _ _) fun _ => within_stream covers _

theorem within_serveSegment (arrival : Time) (size addr : Nat) (access : Access) :
    Within R (serveSegment arrival size addr access) := by
  refine within_theController_bind fun c => ?_
  cases c.organisation with
  | blocks => exact within_pure covers _
  | pages _ => exact within_pure covers _
  | segments segments =>
      refine within_bind covers (within_accessSegment covers _ _) fun found => ?_
      -- All branches end with the transfer, before which they count and perhaps stream.
      have data : Within R (do
          transfer arrival access size ((← theController).stack.locate addr)) :=
        within_theController_bind fun _ => within_transfer covers _ _ _ _
      have counted : Within R (do
          if found.hit then
            count fun n => { n with segmentHits := n.segmentHits + 1 }
          else
            count fun n => { n with misses := n.misses + 1 }
            stream size
          transfer arrival access size ((← theController).stack.locate addr)) :=
        within_ite (within_bind covers (within_count counts _) fun _ => data)
          (within_bind covers (within_count counts _) fun _ =>
            within_bind covers (within_stream covers _) fun _ => data)
      exact within_ite
        (within_bind covers (within_swapSegment covers counts _ _) fun _ => counted) counted

theorem within_serveByDesign (arrival : Time) (size addr : Nat) (access : Access) :
    Within R (serveByDesign arrival size addr access) := by
  have past := within_bypass covers counts
  refine within_theController_bind fun c => ?_
  cases c.organisation with
  | segments _ =>
      refine within_bind covers (past _ _) fun gone => within_ite (within_pure covers _) ?_
      exact within_serveSegment covers counts _ _ _ _
  | blocks =>
      refine within_bind covers (within_setAt covers _) fun set => ?_
      refine within_bind covers (past _ _) fun gone => within_ite (within_pure covers _) ?_
      exact within_serveBlock covers counts _ _ _ _
  | pages _ =>
      refine within_bind covers (within_setAt covers _) fun set => ?_
      refine within_bind covers (past _ _) fun gone => within_ite ?_ ?_
      · exact within_bind covers (within_count counts _) fun _ => within_pure covers _
      · exact within_servePage covers counts _ _ _

/-- What is left of serving a request once the consequences of relocation are drawn. -/
theorem within_serveSettled (arrival : Time) (size addr : Nat) (access : Access) :
    Within R (serveSettled arrival size addr access) := by
  have charged := within_charge covers
  refine within_theController_bind fun c => within_bind covers (charged _) fun _ => ?_
  refine within_bind covers (within_renumber covers addr) fun addr => ?_
  refine within_bind covers (within_serveByDesign covers counts _ _ _ _) fun _ => ?_
  refine within_theController_bind fun c => ?_
  exact within_bind covers (charged _) fun _ => charged _

end Counting

end Service

namespace Controller

/-- What comes of a request that finds a controller and has waited for some time. -/
def proceed (d : Controller) (waited arrival : Time) (size addr : Nat) (access : Access) :
    Outcome × Controller :=
  match Service.serveSettled arrival size addr access ⟨d, waited⟩ with
  | .ok _ s => (⟨none, s.elapsed⟩, s.controller)
  | .error fault s => (⟨some fault, s.elapsed⟩, s.controller)

/-- A request ends where its service ends. -/
theorem proceed_leads {R : Service → Service → Prop} {d : Controller} {waited arrival : Time}
    {size addr : Nat} {access : Access}
    (within : Service.Within R (Service.serveSettled arrival size addr access)) :
    R ⟨d, waited⟩ ⟨(d.proceed waited arrival size addr access).2,
      (d.proceed waited arrival size addr access).1.latency⟩ := by
  have leads := within ⟨d, waited⟩
  unfold Leads at leads
  unfold proceed
  cases run : Service.serveSettled arrival size addr access ⟨d, waited⟩ with
  | ok u s =>
      rw [run] at leads
      exact leads
  | error fault s =>
      rw [run] at leads
      exact leads

/-- What recorded accesses keep of the layer, a request keeps. -/
theorem proceed_keeps {P : Layer → Prop}
    (recorded : ∀ l row n l', P l → l.recordAccess row n = .ok l' → P l') {d : Controller}
    (start : P d.layer) (waited arrival : Time) (size addr : Nat) (access : Access) :
    P (d.proceed waited arrival size addr access).2.layer := by
  let R (s s' : Service) : Prop := P s.controller.layer → P s'.controller.layer
  have covers : Service.Covering R :=
    { refl := fun _ here => here
      trans := fun first second here => second (first here)
      charge := fun _ _ here => here
      sets := fun _ _ here => here
      organisation := fun _ _ here => here
      pageTable := fun _ _ here => here
      stack := fun _ _ here => here
      layer := fun _ row n layer done here => recorded _ row n layer here done }
  have within := Service.within_serveSettled covers (fun _ _ here => here) arrival size addr access
  exact proceed_leads (R := R) within start

end Controller

end StackedCache
