import StackedCache.Proofs.Relocation.Forgetting
import StackedCache.Proofs.Residency.Forgetting
import StackedCache.Proofs.Stack.Forgetting
import StackedCache.Proofs.Service.Reach

/-!
# Controllers that differ in what they have counted

Two controllers are twins if they are the same once all counts are forgotten.  A request takes the
same time on both, or meets the same fault, and leaves them twins: `Twin.request`.
-/

namespace StackedCache

/-! ## Parts of a controller -/

theorem FootprintHistory.exists_counts {h h' : FootprintHistory}
    (same : h.resetCounts = h'.resetCounts) :
    ∃ lookups updates, h' = { h with lookups := lookups, updates := updates } := by
  refine ⟨h'.lookups, h'.updates, ?_⟩
  have restored : ∀ h : FootprintHistory,
      h = { h.resetCounts with lookups := h.lookups, updates := h.updates } := fun _ => rfl
  rw [restored h', ← same]
  rfl

/-- The organisation without the counts of its history. -/
def Organisation.resetCounts : Organisation → Organisation
  | pages history => pages history.resetCounts
  | other => other

/-- Two organisations that differ in the counts of their history only. -/
inductive Organisation.Alike : Organisation → Organisation → Prop where
  | blocks : Alike .blocks .blocks
  | pages (history : FootprintHistory) (lookups updates : Nat) :
      Alike (.pages history) (.pages { history with lookups := lookups, updates := updates })
  | segments (segments : Array Segment) : Alike (.segments segments) (.segments segments)

theorem Organisation.alike {o o' : Organisation} (same : o.resetCounts = o'.resetCounts) :
    o.Alike o' := by
  cases o with
  | blocks =>
      cases o' <;> cases same
      exact .blocks
  | pages history =>
      cases o' with
      | pages history' =>
          injection same with same
          rcases FootprintHistory.exists_counts same with ⟨lookups, updates, rfl⟩
          exact .pages history lookups updates
      | blocks => cases same
      | segments _ => cases same
  | segments segments =>
      cases o' <;> cases same
      exact .segments segments

namespace Layer

theorem entry?_resetCounts (l : Layer) (p : BankPlace) :
    l.resetCounts.entry? p = (l.entry? p).map Entry.resetCounts := by
  have geometry : l.resetCounts.geometry = l.geometry := rfl
  unfold entry?
  rw [geometry, bank?_resetCounts]
  split <;> rfl

theorem contentValid_resetCounts (l : Layer) (p : BankPlace) :
    l.resetCounts.contentValid p = l.contentValid p := by
  rw [contentValid, entry?_resetCounts, Option.all_map]
  rfl

theorem rowMigrated_resetCounts (l : Layer) (row : Location) :
    l.resetCounts.rowMigrated row = l.rowMigrated row := by
  rw [rowMigrated, entry?_resetCounts, Option.any_map]
  rfl

theorem consequence_resetCounts (l : Layer) (row : Location) :
    l.resetCounts.consequence row = l.consequence row := by
  simp only [consequence, contentValid_resetCounts, rowMigrated_resetCounts]

end Layer

namespace Controller

variable {c c' : Controller}

/-- The controllers differ in what they have counted only. -/
def Twin (c c' : Controller) : Prop := c.resetCounts = c'.resetCounts

namespace Twin

theorem refl (c : Controller) : c.Twin c := rfl

/-- What is read off a controller without its counts is the same for twins. -/
theorem same {γ : Type} {f : Controller → γ} (h : c.Twin c')
    (blind : ∀ c, f c.resetCounts = f c) : f c' = f c := by
  rw [← blind c', ← h, blind]

theorem organisation (h : c.Twin c') :
    c.organisation.resetCounts = c'.organisation.resetCounts := congrArg Controller.organisation h

theorem sets (h : c.Twin c') :
    c.sets.map CacheSet.resetCounts = c'.sets.map CacheSet.resetCounts := congrArg Controller.sets h

theorem stack (h : c.Twin c') : c.stack.Twin c'.stack := congrArg Controller.stack h

theorem layer (h : c.Twin c') : c.layer.Twin c'.layer := congrArg Controller.layer h

/-- Twins stay twins when a part is replaced that has no counts, or by parts that are twins. -/
theorem withStack {stack stack' : Stack} (h : c.Twin c') (twin : stack.Twin stack') :
    Twin { c with stack := stack } { c' with stack := stack' } := by
  exact congrArg₂ (fun (c : Controller) stack => { c with stack := stack }) h twin

theorem withLayer {layer layer' : Layer} (h : c.Twin c') (twin : layer.Twin layer') :
    Twin { c with layer := layer } { c' with layer := layer' } := by
  exact congrArg₂ (fun (c : Controller) layer => { c with layer := layer }) h twin

theorem withSets {sets sets' : Array CacheSet} (h : c.Twin c')
    (twin : sets.map CacheSet.resetCounts = sets'.map CacheSet.resetCounts) :
    Twin { c with sets := sets } { c' with sets := sets' } := by
  exact congrArg₂ (fun (c : Controller) sets => { c with sets := sets }) h twin

theorem withOrganisation {o o' : Organisation} (h : c.Twin c')
    (twin : o.resetCounts = o'.resetCounts) :
    Twin { c with organisation := o } { c' with organisation := o' } := by
  exact congrArg₂ (fun (c : Controller) o => { c with organisation := o }) h twin

theorem withCounts (h : c.Twin c') (counts counts' : CacheCounts) :
    Twin { c with counts := counts } { c' with counts := counts' } := h

theorem storeSet {set set' : CacheSet} (h : c.Twin c') (twin : set.Twin set') (index : Nat) :
    Twin { c with sets := c.sets.setIfInBounds index set }
      { c' with sets := c'.sets.setIfInBounds index set' } :=
  h.withSets (map_setIfInBounds_eq h.sets twin index)

/-! ## Consequences of relocation -/

theorem consequence (h : c.Twin c') {set set' : CacheSet} (twin : set.Twin set') :
    c'.layer.consequence set'.placement = c.layer.consequence set.placement := by
  rw [twin.placement]
  exact h.layer.same (f := fun l => l.consequence set.placement) fun l =>
    l.consequence_resetCounts set.placement

theorem settleSet (h : c.Twin c') {set set' : CacheSet} (twin : set.Twin set') :
    (c.settleSet set).Twin (c'.settleSet set') := by
  unfold Controller.settleSet
  rw [h.consequence twin]
  split
  · exact twin.drop
  · exact twin

/-- A set keeps its vault busy for the same time. -/
theorem toll_add (h : c.Twin c') {set set' : CacheSet} (twin : set.Twin set') {t t' : Toll}
    (vaults : t'.vaults = t.vaults) : (t'.add c' set').vaults = (t.add c set).vaults := by
  rcases twin.blocks with ⟨valid, dirty⟩
  have writeback : c'.writebackTime = c.writebackTime := h.same (f := writebackTime) fun _ => rfl
  have move : c'.moveTime = c.moveTime := h.same (f := moveTime) fun _ => rfl
  unfold Toll.add
  rw [h.consequence twin]
  cases c.layer.consequence set.placement with
  | none => exact vaults
  | dropped =>
      simp only [Toll.addDropped, Toll.work, vaults, twin.placement, dirty, writeback]
  | moved =>
      simp only [Toll.addMoved, valid]
      split
      · exact vaults
      · simp only [Toll.work, vaults, twin.placement, move]

theorem toll_foldl (h : c.Twin c') (sets : List CacheSet) {t t' : Toll}
    (vaults : t'.vaults = t.vaults) :
    ((sets.map CacheSet.resetCounts).foldl (Toll.add c') t').vaults =
      (sets.foldl (Toll.add c) t).vaults := by
  induction sets generalizing t t' with
  | nil => exact vaults
  | cons set sets ih =>
      have twin : set.Twin set.resetCounts := rfl
      exact ih (h.toll_add twin vaults)

theorem toll (h : c.Twin c') : c'.toll.vaults = c.toll.vaults := by
  have lists : c.sets.toList.map CacheSet.resetCounts =
      c'.sets.toList.map CacheSet.resetCounts := by
    rw [← Array.toList_map, h.sets, Array.toList_map]
  have width : c'.stack.geometry.vaults = c.stack.geometry.vaults :=
    h.same (f := fun c => c.stack.geometry.vaults) fun _ => rfl
  simp only [Controller.toll, ← Array.foldl_toList, width]
  let start (d : Controller) : Toll := ⟨Array.replicate c.stack.geometry.vaults .zero, d.counts⟩
  -- Both tolls are that of the sets without counts.
  calc
    (c'.sets.toList.foldl (Toll.add c') (start c')).vaults
        = ((c'.sets.toList.map CacheSet.resetCounts).foldl (Toll.add c') (start c')).vaults :=
      ((refl c').toll_foldl c'.sets.toList rfl).symm
    _ = ((c.sets.toList.map CacheSet.resetCounts).foldl (Toll.add c') (start c')).vaults := by
      rw [lists]
    _ = (c.sets.toList.foldl (Toll.add c) (start c)).vaults := h.toll_foldl c.sets.toList rfl

/-- The consequences take the same time and leave the same. -/
theorem drawConsequences (h : c.Twin c') :
    c'.drawConsequences.1 = c.drawConsequences.1 ∧
      c.drawConsequences.2.Twin c'.drawConsequences.2 := by
  have pending : c'.layer.pending = c.layer.pending := h.layer.same Layer.pending_resetCounts
  unfold Controller.drawConsequences
  rw [pending]
  cases c.layer.pending with
  | false => exact ⟨rfl, h⟩
  | true =>
      have settled : (c.sets.map c.settleSet).map CacheSet.resetCounts =
          (c'.sets.map c'.settleSet).map CacheSet.resetCounts := by
        rw [Array.map_map, Array.map_map]
        exact map_eq_of_map_eq h.sets fun set set' twin => h.settleSet twin
      simp only [if_true, h.toll]
      refine ⟨trivial, ?_⟩
      exact ((h.withSets settled).withCounts _ _).withLayer h.layer.settle

end Twin

end Controller

/-! ## Steps -/

/-- The requests have taken the same time, and the controllers are twins. -/
structure Service.Twin (s s' : Service) : Prop where
  elapsed : s'.elapsed = s.elapsed
  controller : s.controller.Twin s'.controller

namespace Service

variable {α β : Type} {R : α → α → Prop} {S : β → β → Prop}

theorem theController_agrees : Agrees Twin theController theController Controller.Twin :=
  fun _ _ twin => .ok twin.controller twin

/-- What follows depends on the controller without its counts. -/
theorem theController_bind_agrees {f : Controller → Serving β}
    (blind : ∀ c, f c.resetCounts = f c) (h : ∀ c, Agrees Twin (f c) (f c) S) :
    Agrees Twin (theController >>= f) (theController >>= f) S := by
  refine theController_agrees.bind ?_
  intro c c' twin
  rw [twin.same blind]
  exact h c

theorem modifyController_agrees {g g' : Controller → Controller}
    (h : ∀ c c', c.Twin c' → (g c).Twin (g' c')) :
    Agrees Twin (modifyController g) (modifyController g') Eq :=
  .modify fun _ _ twin => ⟨twin.elapsed, h _ _ twin.controller⟩

theorem count_agrees (g : CacheCounts → CacheCounts) : Agrees Twin (count g) (count g) Eq :=
  modifyController_agrees fun _ _ twin => twin

theorem charge_agrees (t : Time) : Agrees Twin (charge t) (charge t) Eq :=
  .modify fun _ _ twin => ⟨congrArg (· + t) twin.elapsed, twin.controller⟩

theorem load_agrees (bytes : Nat) : Agrees Twin (load bytes) (load bytes) Eq :=
  theController_bind_agrees (fun _ => rfl) fun _ => charge_agrees _

theorem stream_agrees (bytes : Nat) : Agrees Twin (stream bytes) (stream bytes) Eq :=
  theController_bind_agrees (fun _ => rfl) fun _ => charge_agrees _

theorem attempt_agrees {ε : Type} (wrap : ε → Fault) {r r' : Except ε α}
    (h : SameOutcome R r r') : Agrees Twin (attempt wrap r) (attempt wrap r') R := by
  cases h with
  | ok result => exact .pure result
  | error cause => exact .throw

theorem setAt_agrees (index : Nat) : Agrees Twin (setAt index) (setAt index) CacheSet.Twin := by
  refine theController_agrees.bind ?_
  intro c c' twin
  have found := getElem?_of_map_eq twin.sets index
  have size := size_of_map_eq twin.sets
  unfold Controller.set?
  generalize c.sets[index]? = set, c'.sets[index]? = set' at found ⊢
  cases set with
  | none =>
      rw [Option.map_eq_none_iff.1 found.symm, size]
      exact .throw
  | some set =>
      rcases Option.map_eq_some_iff.1 found.symm with ⟨set', rfl, same⟩
      exact .pure same.symm

theorem storeSet_agrees {set set' : CacheSet} (twin : set.Twin set') (index : Nat) :
    Agrees Twin (storeSet index set) (storeSet index set') Eq :=
  modifyController_agrees fun _ _ twins => twins.storeSet twin index

theorem onStack_agrees {step : StackStep α} (h : Agrees Stack.Twin step step R) :
    Agrees Twin (onStack step) (onStack step) R := by
  intro s s' twin
  have ends := h _ _ twin.controller.stack
  unfold onStack
  generalize step s.controller.stack = r, step s'.controller.stack = r' at ends ⊢
  cases ends with
  | ok result state => exact .ok result ⟨twin.elapsed, twin.controller.withStack state⟩
  | error state => exact .error ⟨twin.elapsed, twin.controller.withStack state⟩

theorem transfer_agrees (arrival : Time) (access : Access) (bytes : Nat) (row : Location) :
    Agrees Twin (transfer arrival access bytes row) (transfer arrival access bytes row) Eq := by
  refine .get_bind ?_ fun s => ?_
  · intro s s' twin
    have located : s'.controller.layer.physicalLocation row =
        s.controller.layer.physicalLocation row :=
      twin.controller.layer.same (f := fun l => l.physicalLocation row) fun _ => rfl
    simp only [located, twin.elapsed]
  · have same : SameOutcome Eq (s.controller.layer.physicalLocation row)
        (s.controller.layer.physicalLocation row) := by
      cases s.controller.layer.physicalLocation row with
      | ok _ => exact .ok rfl
      | error cause => exact .error cause
    refine (attempt_agrees .relocation same).bind_eq fun physical => ?_
    refine (onStack_agrees (Stack.transfer_agrees _ _ _ _)).bind_eq fun done => ?_
    refine theController_agrees.bind fun c c' twin => ?_
    refine (attempt_agrees .relocation (twin.layer.recordAccess row done.requests)).bind ?_
    intro layer layer' recorded
    refine (modifyController_agrees fun _ _ twins => twins.withLayer recorded).bind_eq ?_
    exact fun _ => charge_agrees _

theorem settle_agrees : Agrees Twin settle settle Eq := by
  intro s s' twin
  rcases twin.controller.drawConsequences with ⟨time, controller⟩
  refine .ok rfl ⟨?_, controller⟩
  exact congrArg₂ (· + ·) twin.elapsed time

theorem renumber_agrees (addr : Nat) : Agrees Twin (renumber addr) (renumber addr) Eq := by
  refine theController_bind_agrees (fun _ => rfl) fun c => ?_
  cases c.pageTable with
  | none => exact .pure rfl
  | some table =>
      refine Agrees.bind_eq (modifyController_agrees fun c c' twin => ?_) fun _ => .pure rfl
      let renumbered := (table.renumber addr).2
      exact congrArg (fun c : Controller => { c with pageTable := some renumbered }) twin

theorem bypass_agrees (row : Location) (size : Nat) :
    Agrees Twin (bypass row size) (bypass row size) Eq := by
  refine theController_bind_agrees (fun c => ?_) fun c => ?_
  · have disabled : c.resetCounts.layer.disabled row.place = c.layer.disabled row.place :=
      c.layer.disabled_resetCounts row.place
    simp only [disabled]
  · refine .ite ?_ (.pure rfl)
    exact (count_agrees _).bind_eq fun _ => (load_agrees size).bind_eq fun _ => .pure rfl

/-! ## The three designs -/

/-- A victim is filled and marked alike, and what follows depends on the eviction only. -/
theorem fillVictim_agrees {set set' : CacheSet} (twin : set.Twin set') (split : SplitAddress)
    (access : Access) (predicted : BlockSet) (trigger block : Nat) {f : Eviction → Serving β}
    (h : ∀ evicted, Agrees Twin (f evicted) (f evicted) S) :
    let fillVictim (set : CacheSet) : Serving β := do
      let (way, set) := set.chooseVictim
      storeSet split.set set
      let (evicted, set) ← attempt .cache (set.fill way split.tag predicted trigger)
      storeSet split.set set
      let set ← attempt .cache (set.markBlock way access block)
      storeSet split.set set
      f evicted
    Agrees Twin (fillVictim set) (fillVictim set') S := by
  intro fillVictim
  rcases twin.chooseVictim with ⟨way, chosen, chosen', run, run', twin⟩
  simp only [fillVictim, run, run']
  refine (storeSet_agrees twin _).bind_eq fun _ => ?_
  refine (attempt_agrees .cache (twin.fill way split.tag predicted trigger)).bind ?_
  rintro ⟨evicted, filled⟩ ⟨_, filled'⟩ ⟨rfl, twin⟩
  refine (storeSet_agrees twin _).bind_eq fun _ => ?_
  refine (attempt_agrees .cache (twin.markBlock way access block)).bind fun _ _ marked => ?_
  exact (storeSet_agrees marked _).bind_eq fun _ => h evicted

theorem replaceBlock_agrees (access : Access) (split : SplitAddress) {set set' : CacheSet}
    (twin : set.Twin set') :
    Agrees Twin (replaceBlock access split set) (replaceBlock access split set') Eq :=
  fillVictim_agrees twin split access .empty 0 0 fun _ => .pure rfl

theorem serveBlock_agrees (arrival : Time) (size : Nat) (split : SplitAddress) (access : Access) :
    Agrees Twin (serveBlock arrival size split access) (serveBlock arrival size split access)
      Eq := by
  refine (setAt_agrees split.set).bind fun set set' twin => ?_
  rw [twin.placement]
  refine (transfer_agrees _ _ _ _).bind_eq fun _ => (setAt_agrees split.set).bind ?_
  intro looked looked' twin
  rcases twin.access access split.tag 0 with ⟨found, after, after', run, run', twin⟩
  simp only [run, run']
  refine (storeSet_agrees twin _).bind_eq fun _ => ?_
  refine .ite ?_ (transfer_agrees _ _ _ _)
  refine (replaceBlock_agrees access split twin).bind_eq fun dirty => ?_
  refine (count_agrees _).bind_eq fun _ => theController_bind_agrees (fun _ => rfl) fun c => ?_
  refine (transfer_agrees _ _ _ _).bind_eq fun _ => (load_agrees _).bind_eq fun _ => ?_
  exact (stream_agrees _).bind_eq fun _ => transfer_agrees _ _ _ _

theorem predict_agrees (block : Nat) : Agrees Twin (predict block) (predict block) Eq := by
  refine theController_agrees.bind fun c c' twin => ?_
  have alike := Organisation.alike twin.organisation
  generalize c.organisation = o, c'.organisation = o' at alike ⊢
  cases alike with
  | pages history lookups updates =>
      refine (modifyController_agrees fun _ _ twins => ?_).bind_eq fun _ => .pure rfl
      exact twins.withOrganisation rfl
  | blocks => exact .pure rfl
  | segments segments => exact .pure rfl

theorem learn_agrees (evicted : Eviction) : Agrees Twin (learn evicted) (learn evicted) Eq := by
  refine theController_agrees.bind fun c c' twin => ?_
  have alike := Organisation.alike twin.organisation
  generalize c.organisation = o, c'.organisation = o' at alike ⊢
  cases alike with
  | pages history lookups updates =>
      refine .ite (modifyController_agrees fun _ _ twins => twins.withOrganisation ?_) (.pure rfl)
      rfl
  | blocks => exact .pure rfl
  | segments segments => exact .pure rfl

theorem replacePage_agrees (access : Access) (split : SplitAddress) (block : Nat) :
    Agrees Twin (replacePage access split block) (replacePage access split block) Eq := by
  refine (predict_agrees block).bind_eq fun ⟨key, prediction⟩ => ?_
  refine (setAt_agrees split.set).bind fun set set' twin => ?_
  refine fillVictim_agrees twin split access prediction key block (f := fun evicted => do
    learn evicted
    return ((prediction.insert block).count, evicted.dirtyBlocks)) fun evicted => ?_
  exact (learn_agrees evicted).bind_eq fun _ => .pure rfl

theorem servePage_agrees (arrival : Time) (split : SplitAddress) (access : Access) :
    Agrees Twin (servePage arrival split access) (servePage arrival split access) Eq := by
  refine theController_bind_agrees (fun _ => rfl) fun c => ?_
  refine (setAt_agrees split.set).bind fun set set' twin => ?_
  rw [twin.placement]
  refine (transfer_agrees _ _ _ _).bind_eq fun _ => (setAt_agrees split.set).bind ?_
  intro looked looked' twin
  rcases twin.access access split.tag (split.offset / c.blockSize) with
    ⟨found, after, after', run, run', twin⟩
  simp only [run, run']
  refine (storeSet_agrees twin _).bind_eq fun _ => ?_
  cases found with
  | hit => exact transfer_agrees _ _ _ _
  | blockMiss =>
      refine (count_agrees _).bind_eq fun _ => (load_agrees _).bind_eq fun _ => ?_
      exact transfer_agrees _ _ _ _
  | miss =>
      refine (replacePage_agrees access split _).bind_eq fun ⟨blocks, dirty⟩ => ?_
      refine (count_agrees _).bind_eq fun _ => (load_agrees _).bind_eq fun _ => ?_
      exact (stream_agrees _).bind_eq fun _ => transfer_agrees _ _ _ _

/-- A segment counts to find the slot most used, and that is not forgotten. -/
theorem accessSegment_agrees (index slot : Nat) :
    Agrees Twin (accessSegment index slot) (accessSegment index slot) Eq := by
  refine theController_agrees.bind fun c c' twin => ?_
  have alike := Organisation.alike twin.organisation
  generalize c.organisation = o, c'.organisation = o' at alike ⊢
  cases alike with
  | pages history lookups updates => exact .pure rfl
  | blocks => exact .pure rfl
  | segments segments =>
      dsimp only
      cases segments[index]? with
      | none => exact .pure rfl
      | some segment =>
          refine (modifyController_agrees fun _ _ twins => ?_).bind_eq fun _ => .pure rfl
          exact twins.withOrganisation rfl

theorem copyRows_agrees (arrival : Time) (base rowSize n row : Nat) :
    Agrees Twin (copyRows arrival base rowSize n row) (copyRows arrival base rowSize n row)
      Eq := by
  induction n generalizing row with
  | zero => exact .pure rfl
  | succ n ih =>
      refine theController_bind_agrees (fun _ => rfl) fun c => ?_
      refine (transfer_agrees _ _ _ _).bind_eq fun _ => (transfer_agrees _ _ _ _).bind_eq ?_
      exact fun _ => ih (row + 1)

theorem swapSegment_agrees (arrival : Time) (index : Nat) :
    Agrees Twin (swapSegment arrival index) (swapSegment arrival index) Eq := by
  refine theController_bind_agrees (fun _ => rfl) fun c => (count_agrees _).bind_eq fun _ => ?_
  exact (copyRows_agrees _ _ _ _ _).bind_eq fun _ => stream_agrees _

theorem serveSegment_agrees (arrival : Time) (size addr : Nat) (access : Access) :
    Agrees Twin (serveSegment arrival size addr access) (serveSegment arrival size addr access)
      Eq := by
  refine theController_bind_agrees (fun c => ?_) fun c => ?_
  · rcases c with ⟨⟨⟩ | history | segments⟩ <;> rfl
  · cases c.organisation with
    | blocks => exact .pure rfl
    | pages history => exact .pure rfl
    | segments segments =>
        refine (accessSegment_agrees _ _).bind_eq fun found => ?_
        -- All branches end with the transfer, before which they count and perhaps stream.
        let data : Serving Unit := do
          transfer arrival access size ((← theController).stack.locate addr)
        have last : Agrees Twin data data Eq :=
          theController_bind_agrees (fun _ => rfl) fun c => transfer_agrees _ _ _ _
        have counted := Agrees.ite (c := found.hit = true)
          ((count_agrees fun n => { n with segmentHits := n.segmentHits + 1 }).bind_eq fun _ =>
            last)
          ((count_agrees fun n => { n with misses := n.misses + 1 }).bind_eq fun _ =>
            (stream_agrees size).bind_eq fun _ => last)
        exact .ite ((swapSegment_agrees _ _).bind_eq fun _ => counted) counted

/-! ## Requests -/

theorem serveByDesign_agrees (arrival : Time) (size addr : Nat) (access : Access) :
    Agrees Twin (serveByDesign arrival size addr access) (serveByDesign arrival size addr access)
      Eq := by
  refine theController_bind_agrees (fun c => ?_) fun c => ?_
  · rcases c with ⟨⟨⟩ | history | segments⟩ <;> rfl
  · cases c.organisation with
    | segments segments =>
        refine (bypass_agrees _ _).bind_eq fun passed => ?_
        exact .ite (.pure rfl) (serveSegment_agrees arrival size addr access)
    | blocks =>
        refine (setAt_agrees _).bind fun set set' twin => ?_
        rw [twin.placement]
        refine (bypass_agrees _ _).bind_eq fun passed => ?_
        exact .ite (.pure rfl) (serveBlock_agrees arrival size _ access)
    | pages history =>
        refine (setAt_agrees _).bind fun set set' twin => ?_
        rw [twin.placement]
        refine (bypass_agrees _ _).bind_eq fun passed => ?_
        refine .ite ((count_agrees _).bind_eq fun _ => .pure rfl) ?_
        exact servePage_agrees arrival _ access

theorem serve_agrees (arrival : Time) (size addr : Nat) (access : Access) :
    Agrees Twin (serve arrival size addr access) (serve arrival size addr access) Eq := by
  refine settle_agrees.bind_eq fun _ => theController_bind_agrees (fun _ => rfl) fun c => ?_
  refine (charge_agrees _).bind_eq fun _ => (renumber_agrees addr).bind_eq fun addr => ?_
  refine (serveByDesign_agrees arrival size addr access).bind_eq fun _ => ?_
  refine theController_bind_agrees (fun _ => rfl) fun c => ?_
  exact (charge_agrees _).bind_eq fun _ => charge_agrees _

end Service

namespace Controller

variable {c c' : Controller}

namespace Twin

theorem order (h : c.Twin c') (time : Time) :
    (c'.order time).1 = (c.order time).1 ∧ (c.order time).2.Twin (c'.order time).2 := by
  have last : c'.lastTime = c.lastTime := h.same (f := lastTime) fun _ => rfl
  unfold Controller.order
  rw [last]
  split
  · exact ⟨rfl, h.withCounts _ _⟩
  · refine ⟨rfl, ?_⟩
    exact congrArg (fun c : Controller => { c with lastTime := time }) h

/-- A request meets the same fault after the same time. -/
theorem request (h : c.Twin c') (time : Time) (size addr : Nat) (access : Access) :
    (c'.request time size addr access).1 = (c.request time size addr access).1 ∧
      (c.request time size addr access).2.Twin (c'.request time size addr access).2 := by
  rcases h.order time with ⟨arrival, ordered⟩
  have ends := Service.serve_agrees (c.order time).1 size addr access
    ⟨c.arrived time access, .zero⟩ ⟨c'.arrived time access, .zero⟩ ⟨rfl, ordered.withCounts _ _⟩
  rw [request_eq, request_eq, arrival]
  generalize Service.serve (c.order time).1 size addr access ⟨c.arrived time access, .zero⟩ = r,
    Service.serve (c.order time).1 size addr access ⟨c'.arrived time access, .zero⟩ = r' at ends ⊢
  cases ends with
  | ok result state => exact ⟨congrArg (Outcome.mk none) state.elapsed, state.controller⟩
  | error state => exact ⟨congrArg (Outcome.mk (some _)) state.elapsed, state.controller⟩

/-! ## Other operations -/

/-- A bank is marked in both or refused in both. -/
theorem setHot (h : c.Twin c') (p : BankPlace) (hot : Bool) :
    SameOutcome Twin (c.setHot p hot) (c'.setHot p hot) := by
  have ends := Stack.setHot_agrees p hot _ _ h.stack
  unfold Controller.setHot
  generalize Stack.setHot p hot c.stack = r, Stack.setHot p hot c'.stack = r' at ends ⊢
  cases ends with
  | ok result state => exact .ok (h.withStack state)
  | error state => exact .error _

end Twin

theorem twin_resetCounts (c : Controller) : c.Twin c.resetCounts := by
  have organisation : c.organisation.resetCounts = c.organisation.resetCounts.resetCounts := by
    cases c.organisation <;> rfl
  have sets : c.sets.map CacheSet.resetCounts =
      (c.sets.map CacheSet.resetCounts).map CacheSet.resetCounts := by
    rw [Array.map_map]
    rfl
  have stack : c.stack.Twin c.stack.resetActivity := c.stack.twin_resetActivity
  have layer : c.layer.Twin c.layer.resetCounts := c.layer.resetCounts_resetCounts.symm
  have parts := ((Twin.refl c).withOrganisation organisation).withSets sets
  exact (parts.withStack stack).withLayer layer

/-- Operations leave twins, unless an epoch finds a hot bank whose rows it would move. -/
theorem Twin.perform (h : c.Twin c') (sound : c.layer.Sound) (sound' : c'.layer.Sound)
    {op : Operation} (mild : op = .runEpoch → c.layer.settings.enabled = true →
      c.layer.settings.policy = .hybrid → c.layer.Mild) :
    (c.perform op).Twin (c'.perform op) := by
  cases op with
  | request time size addr access => exact (h.request time size addr.toNat access).2
  | setTemperature p t => exact h.withLayer (h.layer.setTemperature p t)
  | setHot p hot =>
      have marked := h.setHot p hot
      simp only [Controller.perform]
      generalize c.setHot p hot = r, c'.setHot p hot = r' at marked ⊢
      cases marked with
      | ok twin => exact twin
      | error cause => exact h
  | runEpoch => exact h.withLayer (h.layer.runEpoch sound sound' (mild rfl)).2
  | resetCounts => exact ((twin_resetCounts c).symm.trans h).trans (twin_resetCounts c')

end Controller

end StackedCache
