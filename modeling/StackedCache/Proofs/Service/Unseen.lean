import StackedCache.Proofs.Service.Effects

/-!
# What requests do not see

A request reads neither temperatures nor counts, nor how many epochs have passed.  Controllers that
differ in those only are alike to it, and it leaves them alike: `serveSettled_alike`.

What the difference is, and how requests carry it on, is left to a relation of controllers: `Unseen`
collects what it has to keep.
-/

namespace StackedCache

/-- A count that has nothing to do with the order of requests. -/
def CacheCounts.Plain (f : CacheCounts → CacheCounts) : Prop :=
  ∀ n late, f { n with outOfOrder := late } = { f n with outOfOrder := late }

/-- The controller with other temperatures and counts. -/
def Controller.veiled (c : Controller) (ledger : Ledger) (epoch : Nat) (tallies : RelocationCounts)
    (counts : CacheCounts) : Controller :=
  { c with
    layer := { c.layer with ledger := ledger, epoch := epoch, counts := tallies }
    counts := counts }

/-- Related controllers differ in what requests do not see, and stay related when a request makes
the same change to both. -/
structure Controller.Unseen (E : Controller → Controller → Prop) : Prop where
  veil : ∀ {c c'}, E c c' →
    ∃ ledger epoch tallies counts, c' = c.veiled ledger epoch tallies counts
  sets : ∀ {c c'} sets, E c c' → E { c with sets := sets } { c' with sets := sets }
  organisation : ∀ {c c'} o, E c c' → E { c with organisation := o } { c' with organisation := o }
  pageTable : ∀ {c c'} t, E c c' → E { c with pageTable := t } { c' with pageTable := t }
  stack : ∀ {c c'} stack, E c c' → E { c with stack := stack } { c' with stack := stack }
  counts : ∀ {c c' f}, CacheCounts.Plain f → E c c' → E (c.modifyCounts f) (c'.modifyCounts f)
  recorded : ∀ {c c'} row n, E c c' →
    SameOutcome (fun layer layer' => E { c with layer := layer } { c' with layer := layer' })
      (c.layer.recordAccess row n) (c'.layer.recordAccess row n)

namespace Controller.Unseen

variable {E : Controller → Controller → Prop} {c c' : Controller}

/-- What is read past the veil is the same. -/
theorem same {γ : Type} {f : Controller → γ} (unseen : Unseen E) (h : E c c')
    (blind : ∀ c ledger epoch tallies counts, f (c.veiled ledger epoch tallies counts) = f c) :
    f c' = f c := by
  rcases unseen.veil h with ⟨ledger, epoch, tallies, counts, rfl⟩
  exact blind c ledger epoch tallies counts

theorem storeSet (unseen : Unseen E) (h : E c c') (index : Nat) (set : CacheSet) :
    E { c with sets := c.sets.setIfInBounds index set }
      { c' with sets := c'.sets.setIfInBounds index set } := by
  have sets : c'.sets = c.sets := unseen.same (f := Controller.sets) h fun _ _ _ _ _ => rfl
  rw [sets]
  exact unseen.sets _ h

end Controller.Unseen

namespace Service

open Controller (Unseen)

variable {E : Controller → Controller → Prop} {α β : Type} {S : β → β → Prop}

/-- Two requests in progress that have taken the same time, to related controllers. -/
structure Alike (E : Controller → Controller → Prop) (s s' : Service) : Prop where
  elapsed : s'.elapsed = s.elapsed
  controller : E s.controller s'.controller

/-! ## Parts of a request -/

theorem modifyController_alike {g : Controller → Controller} (h : ∀ c c', E c c' → E (g c) (g c')) :
    Agrees (Alike E) (modifyController g) (modifyController g) Eq :=
  .modify fun _ _ alike => ⟨alike.elapsed, h _ _ alike.controller⟩

theorem charge_alike (t : Time) : Agrees (Alike E) (charge t) (charge t) Eq :=
  .modify fun _ _ alike => ⟨congrArg (· + t) alike.elapsed, alike.controller⟩

theorem attempt_alike {ε : Type} (wrap : ε → Fault) (r : Except ε α) :
    Agrees (Alike E) (attempt wrap r) (attempt wrap r) Eq := by
  cases r with
  | ok a => exact .pure rfl
  | error cause => exact .throw

variable (unseen : Unseen E)
include unseen

/-- What follows depends on what requests see of the controller. -/
theorem theController_bind_alike {f : Controller → Serving β}
    (blind : ∀ c ledger epoch tallies counts, f (c.veiled ledger epoch tallies counts) = f c)
    (h : ∀ c, Agrees (Alike E) (f c) (f c) S) :
    Agrees (Alike E) (theController >>= f) (theController >>= f) S := by
  intro s s' alike
  have same : f s'.controller = f s.controller := unseen.same alike.controller blind
  show SameEnd _ S (f s.controller s) (f s'.controller s')
  rw [same]
  exact h s.controller s s' alike

theorem count_alike {f : CacheCounts → CacheCounts} (plain : CacheCounts.Plain f) :
    Agrees (Alike E) (count f) (count f) Eq :=
  modifyController_alike fun _ _ h => unseen.counts plain h

theorem load_alike (bytes : Nat) : Agrees (Alike E) (load bytes) (load bytes) Eq :=
  theController_bind_alike unseen (fun _ _ _ _ _ => rfl) fun _ => charge_alike _

theorem stream_alike (bytes : Nat) : Agrees (Alike E) (stream bytes) (stream bytes) Eq :=
  theController_bind_alike unseen (fun _ _ _ _ _ => rfl) fun _ => charge_alike _

theorem setAt_alike (index : Nat) : Agrees (Alike E) (setAt index) (setAt index) Eq := by
  refine theController_bind_alike unseen (fun _ _ _ _ _ => rfl) fun c => ?_
  cases c.set? index with
  | some set => exact .pure rfl
  | none => exact .throw

theorem storeSet_alike (index : Nat) (set : CacheSet) :
    Agrees (Alike E) (storeSet index set) (storeSet index set) Eq :=
  modifyController_alike fun _ _ h => unseen.storeSet h index set

theorem onStack_alike (step : StackStep α) :
    Agrees (Alike E) (onStack step) (onStack step) Eq := by
  intro s s' alike
  have same : s'.controller.stack = s.controller.stack :=
    unseen.same alike.controller fun _ _ _ _ _ => rfl
  unfold onStack
  rw [same]
  cases step s.controller.stack with
  | ok a stack => exact .ok rfl ⟨alike.elapsed, unseen.stack stack alike.controller⟩
  | error cause stack => exact .error ⟨alike.elapsed, unseen.stack stack alike.controller⟩

theorem transfer_alike (arrival : Time) (access : Access) (bytes : Nat) (row : Location) :
    Agrees (Alike E) (transfer arrival access bytes row) (transfer arrival access bytes row)
      Eq := by
  refine .get_bind ?_ fun s => ?_
  · intro s s' alike
    have located : s'.controller.layer.physicalLocation row =
        s.controller.layer.physicalLocation row :=
      unseen.same (f := fun c => c.layer.physicalLocation row) alike.controller
        fun _ _ _ _ _ => rfl
    simp only [located, alike.elapsed]
  · refine (attempt_alike _ _).bind_eq fun physical => ?_
    refine (onStack_alike unseen _).bind_eq fun done s s' alike => ?_
    -- Each layer records the access for itself, right before it is stored.
    have records := unseen.recorded row done.requests alike.controller
    rw [bind_of_ok (rfl : theController s = .ok s.controller s),
      bind_of_ok (rfl : theController s' = .ok s'.controller s')]
    generalize s.controller.layer.recordAccess row done.requests = r,
      s'.controller.layer.recordAccess row done.requests = r' at records ⊢
    cases records with
    | error cause => exact .error alike
    | ok recorded => exact .ok rfl ⟨congrArg (· + done.latency) alike.elapsed, recorded⟩

theorem renumber_alike (addr : Nat) : Agrees (Alike E) (renumber addr) (renumber addr) Eq := by
  refine theController_bind_alike unseen (fun _ _ _ _ _ => rfl) fun c => ?_
  cases c.pageTable with
  | none => exact .pure rfl
  | some table =>
      exact (modifyController_alike fun _ _ h => unseen.pageTable _ h).bind_eq fun _ => .pure rfl

theorem bypass_alike (row : Location) (size : Nat) :
    Agrees (Alike E) (bypass row size) (bypass row size) Eq := by
  refine theController_bind_alike unseen (fun _ _ _ _ _ => rfl) fun c => .ite ?_ (.pure rfl)
  refine (count_alike unseen fun _ _ => rfl).bind_eq fun _ => ?_
  exact (load_alike unseen size).bind_eq fun _ => .pure rfl

/-! ## The three designs -/

theorem replaceBlock_alike (access : Access) (split : SplitAddress) (set : CacheSet) :
    Agrees (Alike E) (replaceBlock access split set) (replaceBlock access split set) Eq := by
  have store := storeSet_alike unseen split.set
  refine (store _).bind_eq fun _ => (attempt_alike _ _).bind_eq fun filled => ?_
  refine (store _).bind_eq fun _ => (attempt_alike _ _).bind_eq fun marked => ?_
  exact (store _).bind_eq fun _ => .pure rfl

theorem serveBlock_alike (arrival : Time) (size : Nat) (split : SplitAddress) (access : Access) :
    Agrees (Alike E) (serveBlock arrival size split access) (serveBlock arrival size split access)
      Eq := by
  have transfers := transfer_alike unseen arrival
  refine (setAt_alike unseen _).bind_eq fun set => (transfers _ _ _).bind_eq fun _ => ?_
  refine (setAt_alike unseen _).bind_eq fun set => (storeSet_alike unseen _ _).bind_eq fun _ => ?_
  refine .ite ?_ (transfers _ _ _)
  refine (replaceBlock_alike unseen access split _).bind_eq fun dirty => ?_
  refine (count_alike unseen fun _ _ => rfl).bind_eq fun _ => ?_
  refine theController_bind_alike unseen (fun _ _ _ _ _ => rfl) fun c => ?_
  refine (transfers _ _ _).bind_eq fun _ => (load_alike unseen _).bind_eq fun _ => ?_
  exact (stream_alike unseen _).bind_eq fun _ => transfers _ _ _

theorem predict_alike (block : Nat) : Agrees (Alike E) (predict block) (predict block) Eq := by
  refine theController_bind_alike unseen (fun _ _ _ _ _ => rfl) fun c => ?_
  cases c.organisation with
  | blocks => exact .pure rfl
  | segments _ => exact .pure rfl
  | pages history =>
      exact (modifyController_alike fun _ _ h => unseen.organisation _ h).bind_eq fun _ => .pure rfl

theorem learn_alike (evicted : Eviction) :
    Agrees (Alike E) (learn evicted) (learn evicted) Eq := by
  refine theController_bind_alike unseen (fun _ _ _ _ _ => rfl) fun c => ?_
  cases c.organisation with
  | blocks => exact .pure rfl
  | segments _ => exact .pure rfl
  | pages history =>
      exact .ite (modifyController_alike fun _ _ h => unseen.organisation _ h) (.pure rfl)

theorem replacePage_alike (access : Access) (split : SplitAddress) (block : Nat) :
    Agrees (Alike E) (replacePage access split block) (replacePage access split block) Eq := by
  have store := storeSet_alike unseen split.set
  refine (predict_alike unseen block).bind_eq fun ⟨key, prediction⟩ => ?_
  refine (setAt_alike unseen _).bind_eq fun set => (store _).bind_eq fun _ => ?_
  refine (attempt_alike _ _).bind_eq fun filled => (store _).bind_eq fun _ => ?_
  refine (attempt_alike _ _).bind_eq fun marked => (store _).bind_eq fun _ => ?_
  exact (learn_alike unseen _).bind_eq fun _ => .pure rfl

theorem servePage_alike (arrival : Time) (split : SplitAddress) (access : Access) :
    Agrees (Alike E) (servePage arrival split access) (servePage arrival split access) Eq := by
  have transfers := transfer_alike unseen arrival
  refine theController_bind_alike unseen (fun _ _ _ _ _ => rfl) fun c => ?_
  refine (setAt_alike unseen _).bind_eq fun set => (transfers _ _ _).bind_eq fun _ => ?_
  refine (setAt_alike unseen _).bind_eq fun set => (storeSet_alike unseen _ _).bind_eq fun _ => ?_
  split
  · exact transfers _ _ _
  · refine (count_alike unseen fun _ _ => rfl).bind_eq fun _ => ?_
    exact (load_alike unseen _).bind_eq fun _ => transfers _ _ _
  · refine (replacePage_alike unseen access split _).bind_eq fun ⟨blocks, dirty⟩ => ?_
    refine (count_alike unseen fun _ _ => rfl).bind_eq fun _ => ?_
    refine (load_alike unseen _).bind_eq fun _ => (stream_alike unseen _).bind_eq fun _ => ?_
    exact transfers _ _ _

theorem accessSegment_alike (index slot : Nat) :
    Agrees (Alike E) (accessSegment index slot) (accessSegment index slot) Eq := by
  refine theController_bind_alike unseen (fun _ _ _ _ _ => rfl) fun c => ?_
  cases c.organisation with
  | blocks => exact .pure rfl
  | pages _ => exact .pure rfl
  | segments segments =>
      dsimp only
      cases segments[index]? with
      | none => exact .pure rfl
      | some segment =>
          exact (modifyController_alike fun _ _ h => unseen.organisation _ h).bind_eq fun _ =>
            .pure rfl

theorem copyRows_alike (arrival : Time) (base rowSize n row : Nat) :
    Agrees (Alike E) (copyRows arrival base rowSize n row) (copyRows arrival base rowSize n row)
      Eq := by
  have transfers := transfer_alike unseen arrival
  induction n generalizing row with
  | zero => exact .pure rfl
  | succ n ih =>
      refine theController_bind_alike unseen (fun _ _ _ _ _ => rfl) fun c => ?_
      refine (transfers _ _ _).bind_eq fun _ => (transfers _ _ _).bind_eq fun _ => ?_
      exact ih (row + 1)

theorem swapSegment_alike (arrival : Time) (index : Nat) :
    Agrees (Alike E) (swapSegment arrival index) (swapSegment arrival index) Eq := by
  refine theController_bind_alike unseen (fun _ _ _ _ _ => rfl) fun c => ?_
  refine (count_alike unseen fun _ _ => rfl).bind_eq fun _ => ?_
  exact (copyRows_alike unseen _ _ _ _ _).bind_eq fun _ => stream_alike unseen _

theorem serveSegment_alike (arrival : Time) (size addr : Nat) (access : Access) :
    Agrees (Alike E) (serveSegment arrival size addr access) (serveSegment arrival size addr access)
      Eq := by
  refine theController_bind_alike unseen (fun _ _ _ _ _ => rfl) fun c => ?_
  cases c.organisation with
  | blocks => exact .pure rfl
  | pages _ => exact .pure rfl
  | segments segments =>
      refine (accessSegment_alike unseen _ _).bind_eq fun found => ?_
      -- All branches end with the transfer, before which they count and perhaps stream.
      let data : Serving Unit := do
        transfer arrival access size ((← theController).stack.locate addr)
      have last : Agrees (Alike E) data data Eq :=
        theController_bind_alike unseen (fun _ _ _ _ _ => rfl) fun c =>
          transfer_alike unseen _ _ _ _
      have counted := Agrees.ite (c := found.hit = true)
        ((count_alike unseen (f := fun n => { n with segmentHits := n.segmentHits + 1 })
          fun _ _ => rfl).bind_eq fun _ => last)
        ((count_alike unseen (f := fun n => { n with misses := n.misses + 1 })
          fun _ _ => rfl).bind_eq fun _ => (stream_alike unseen size).bind_eq fun _ => last)
      exact .ite ((swapSegment_alike unseen _ _).bind_eq fun _ => counted) counted

/-! ## Whole requests -/

theorem serveByDesign_alike (arrival : Time) (size addr : Nat) (access : Access) :
    Agrees (Alike E) (serveByDesign arrival size addr access)
      (serveByDesign arrival size addr access) Eq := by
  refine theController_bind_alike unseen (fun _ _ _ _ _ => rfl) fun c => ?_
  cases c.organisation with
  | segments segments =>
      refine (bypass_alike unseen _ _).bind_eq fun past => ?_
      exact .ite (.pure rfl) (serveSegment_alike unseen arrival size addr access)
  | blocks =>
      refine (setAt_alike unseen _).bind_eq fun set => (bypass_alike unseen _ _).bind_eq ?_
      exact fun past => .ite (.pure rfl) (serveBlock_alike unseen arrival size _ access)
  | pages history =>
      refine (setAt_alike unseen _).bind_eq fun set => (bypass_alike unseen _ _).bind_eq ?_
      intro past
      refine .ite ((count_alike unseen fun _ _ => rfl).bind_eq fun _ => .pure rfl) ?_
      exact servePage_alike unseen arrival _ access

theorem serveSettled_alike (arrival : Time) (size addr : Nat) (access : Access) :
    Agrees (Alike E) (serveSettled arrival size addr access) (serveSettled arrival size addr access)
      Eq := by
  refine theController_bind_alike unseen (fun _ _ _ _ _ => rfl) fun c => ?_
  refine (charge_alike _).bind_eq fun _ => (renumber_alike unseen addr).bind_eq fun addr => ?_
  refine (serveByDesign_alike unseen arrival size addr access).bind_eq fun _ => ?_
  refine theController_bind_alike unseen (fun _ _ _ _ _ => rfl) fun c => ?_
  exact (charge_alike _).bind_eq fun _ => charge_alike _

end Service

/-- Requests that have waited for the same time have the same outcome. -/
theorem Controller.Unseen.proceed {E : Controller → Controller → Prop} {d d' : Controller}
    (unseen : Unseen E) (h : E d d') (waited arrival : Time) (size addr : Nat) (access : Access) :
    (d'.proceed waited arrival size addr access).1 = (d.proceed waited arrival size addr access).1 ∧
      E (d.proceed waited arrival size addr access).2
        (d'.proceed waited arrival size addr access).2 := by
  have ends := Service.serveSettled_alike unseen arrival size addr access ⟨d, waited⟩ ⟨d', waited⟩
    ⟨rfl, h⟩
  unfold Controller.proceed
  generalize Service.serveSettled arrival size addr access ⟨d, waited⟩ = r,
    Service.serveSettled arrival size addr access ⟨d', waited⟩ = r' at ends ⊢
  cases ends with
  | ok result state => exact ⟨congrArg (Outcome.mk none) state.elapsed, state.controller⟩
  | error state => exact ⟨congrArg (Outcome.mk (some _)) state.elapsed, state.controller⟩

end StackedCache
