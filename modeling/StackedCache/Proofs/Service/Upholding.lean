import StackedCache.Proofs.Service.Reach
import StackedCache.Proofs.Step

/-!
# What requests uphold

A request reaches the stack and the relocation layer in two ways only: it transfers, and it draws
the consequences of relocation.  What both of these uphold, a request upholds that does not fail,
whatever its design: `request_upholds`.
-/

namespace StackedCache

/-- A condition on the stack and the relocation layer that transfers and drawn consequences
uphold. -/
structure Upheld (I : Stack → Layer → Prop) : Prop where
  /-- Requests to the stack for a logical row, recorded by the layer. -/
  transfer : ∀ {stack stack' : Stack} {layer layer' : Layer} {row physical : Location}
    {access : Access} {bytes : Nat} {time : Time} {done : Transfer}, I stack layer →
      layer.physicalLocation row = .ok physical →
        Stack.transfer access bytes physical time stack = .ok done stack' →
          layer.recordAccess row done.requests = .ok layer' → I stack' layer'
  settle : ∀ {stack : Stack} {layer : Layer}, I stack layer → I stack layer.settle

namespace Service

variable {I : Stack → Layer → Prop} {α β : Type}

/-- The condition still holds after the step, if the step succeeds. -/
def Upholds (I : Stack → Layer → Prop) (m : Serving α) : Prop :=
  ∀ s : Service, I s.controller.stack s.controller.layer →
    Yields m s fun _ s' => I s'.controller.stack s'.controller.layer

theorem attempt_yields {ε : Type} (wrap : ε → Fault) (r : Except ε α) (s : Service) :
    Yields (attempt wrap r) s fun a s' => r = .ok a ∧ s' = s := by
  cases r with
  | ok a => exact .pure ⟨rfl, rfl⟩
  | error cause => exact .throw

theorem theController_bind_yields {s : Service} {f : Controller → Serving β}
    {R : β → Service → Prop}
    (h : Yields (f s.controller) s R) : Yields (theController >>= f) s R := h

namespace Upholds

variable {m m' : Serving α} {f : α → Serving β}

theorem pure (a : α) : Upholds I (Pure.pure a : Serving α) := fun _ h => .pure h

theorem bind (first : Upholds I m) (rest : ∀ a, Upholds I (f a)) : Upholds I (m >>= f) :=
  fun s h => (first s h).bind fun a s' h' => rest a s' h'

theorem ite {c : Prop} [Decidable c] (yes : Upholds I m) (no : Upholds I m') :
    Upholds I (if c then m else m') :=
  fun s h => .ite (fun _ => yes s h) fun _ => no s h

theorem theController_bind {f : Controller → Serving β} (h : ∀ c, Upholds I (f c)) :
    Upholds I (theController >>= f) := fun s hs => h s.controller s hs

theorem modifyController {g : Controller → Controller} (stack : ∀ c, (g c).stack = c.stack)
    (layer : ∀ c, (g c).layer = c.layer) : Upholds I (modifyController g) := by
  intro s h
  refine .modify ?_
  dsimp only
  rwa [stack, layer]

theorem count (g : CacheCounts → CacheCounts) : Upholds I (count g) :=
  .modifyController (fun _ => rfl) fun _ => rfl

theorem storeSet (index : Nat) (set : CacheSet) : Upholds I (storeSet index set) :=
  .modifyController (fun _ => rfl) fun _ => rfl

theorem charge (t : Time) : Upholds I (charge t) := fun _ h => .modify h

theorem load (bytes : Nat) : Upholds I (load bytes) := .theController_bind fun _ => .charge _

theorem stream (bytes : Nat) : Upholds I (stream bytes) := .theController_bind fun _ => .charge _

theorem attempt {ε : Type} (wrap : ε → Fault) (r : Except ε α) : Upholds I (attempt wrap r) := by
  intro s h
  refine (attempt_yields wrap r s).mono ?_
  rintro a s' ⟨_, rfl⟩
  exact h

theorem setAt (index : Nat) : Upholds I (setAt index) := by
  refine .theController_bind fun c => ?_
  cases c.set? index with
  | some set => exact .pure set
  | none => exact fun _ _ => .throw

end Upholds

/-! ## Steps that reach neither the stack nor the layer -/

theorem renumber_upholds (addr : Nat) : Upholds I (renumber addr) := by
  refine .theController_bind fun c => ?_
  cases c.pageTable with
  | none => exact .pure addr
  | some table => exact .bind (.modifyController (fun _ => rfl) fun _ => rfl) fun _ => .pure _

theorem bypass_upholds (row : Location) (size : Nat) : Upholds I (bypass row size) := by
  refine .theController_bind fun c => .ite ?_ (.pure _)
  exact .bind (.count _) fun _ => .bind (.load _) fun _ => .pure _

theorem replaceBlock_upholds (access : Access) (split : SplitAddress) (set : CacheSet) :
    Upholds I (replaceBlock access split set) := by
  refine .bind (.storeSet _ _) fun _ => .bind (.attempt _ _) fun filled => ?_
  refine .bind (.storeSet _ _) fun _ => .bind (.attempt _ _) fun marked => ?_
  exact .bind (.storeSet _ _) fun _ => .pure _

theorem predict_upholds (block : Nat) : Upholds I (predict block) := by
  refine .theController_bind fun c => ?_
  cases c.organisation with
  | blocks => exact .pure _
  | segments _ => exact .pure _
  | pages history => exact .bind (.modifyController (fun _ => rfl) fun _ => rfl) fun _ => .pure _

theorem learn_upholds (evicted : Eviction) : Upholds I (learn evicted) := by
  refine .theController_bind fun c => ?_
  cases c.organisation with
  | blocks => exact .pure _
  | segments _ => exact .pure _
  | pages history => exact .ite (.modifyController (fun _ => rfl) fun _ => rfl) (.pure _)

theorem replacePage_upholds (access : Access) (split : SplitAddress) (block : Nat) :
    Upholds I (replacePage access split block) := by
  refine .bind (predict_upholds block) fun predicted => .bind (.setAt _) fun set => ?_
  refine .bind (.storeSet _ _) fun _ => .bind (.attempt _ _) fun filled => ?_
  refine .bind (.storeSet _ _) fun _ => .bind (.attempt _ _) fun marked => ?_
  exact .bind (.storeSet _ _) fun _ => .bind (learn_upholds _) fun _ => .pure _

theorem accessSegment_upholds (index slot : Nat) : Upholds I (accessSegment index slot) := by
  refine .theController_bind fun c => ?_
  cases c.organisation with
  | blocks => exact .pure _
  | pages _ => exact .pure _
  | segments segments =>
      dsimp only
      cases segments[index]? with
      | none => exact .pure _
      | some segment =>
          exact .bind (.modifyController (fun _ => rfl) fun _ => rfl) fun _ => .pure _

/-! ## Steps that transfer -/

section Transfers

variable (upheld : Upheld I)
include upheld

theorem transfer_upholds (arrival : Time) (access : Access) (bytes : Nat) (row : Location) :
    Upholds I (transfer arrival access bytes row) := by
  intro s h
  refine .get_bind ((attempt_yields _ _ s).bind ?_)
  rintro physical s ⟨located, rfl⟩
  have served : Yields (onStack (Stack.transfer access bytes physical (arrival + s.elapsed))) s
      fun done s' => s'.controller.layer = s.controller.layer ∧
        Stack.transfer access bytes physical (arrival + s.elapsed) s.controller.stack =
          .ok done s'.controller.stack := by
    intro done s' ran
    unfold onStack at ran
    split at ran
    · rename_i stack run
      cases ran
      exact ⟨rfl, run⟩
    · cases ran
  refine served.bind ?_
  rintro done s₁ ⟨layer, run⟩
  -- What the layer records is stored at once, so both have changed when the transfer ends.
  refine theController_bind_yields ((attempt_yields _ _ s₁).bind ?_)
  rintro layer' s₁ ⟨recorded, rfl⟩
  have after : I s₁.controller.stack layer' := upheld.transfer h located run (layer ▸ recorded)
  exact Yields.bind (P := fun _ s' => I s'.controller.stack s'.controller.layer) (.modify after)
    fun _ _ kept => .modify kept

theorem settle_upholds : Upholds I settle := by
  intro s h
  have drawn : I s.controller.drawConsequences.2.stack s.controller.drawConsequences.2.layer := by
    unfold Controller.drawConsequences
    cases s.controller.layer.pending with
    | true => exact upheld.settle h
    | false => exact h
  intro a s' done
  cases done
  exact drawn

theorem serveBlock_upholds (arrival : Time) (size : Nat) (split : SplitAddress) (access : Access) :
    Upholds I (serveBlock arrival size split access) := by
  have transfers := transfer_upholds upheld arrival
  refine .bind (.setAt _) fun set => .bind (transfers _ _ _) fun _ => .bind (.setAt _) fun set => ?_
  refine .bind (.storeSet _ _) fun _ => .ite ?_ (transfers _ _ _)
  refine .bind (replaceBlock_upholds _ _ _) fun dirty => .bind (.count _) fun _ => ?_
  refine .theController_bind fun c => .bind (transfers _ _ _) fun _ => .bind (.load _) fun _ => ?_
  exact .bind (.stream _) fun _ => transfers _ _ _

theorem servePage_upholds (arrival : Time) (split : SplitAddress) (access : Access) :
    Upholds I (servePage arrival split access) := by
  have transfers := transfer_upholds upheld arrival
  refine .theController_bind fun c => .bind (.setAt _) fun set => ?_
  refine .bind (transfers _ _ _) fun _ => ?_
  refine .bind (.setAt _) fun set => .bind (.storeSet _ _) fun _ => ?_
  split
  · exact transfers _ _ _
  · exact .bind (.count _) fun _ => .bind (.load _) fun _ => transfers _ _ _
  · refine .bind (replacePage_upholds _ _ _) fun moved => .bind (.count _) fun _ => ?_
    exact .bind (.load _) fun _ => .bind (.stream _) fun _ => transfers _ _ _

theorem copyRows_upholds (arrival : Time) (base rowSize n row : Nat) :
    Upholds I (copyRows arrival base rowSize n row) := by
  have transfers := transfer_upholds upheld arrival
  induction n generalizing row with
  | zero => exact .pure _
  | succ n ih =>
      refine .theController_bind fun c => .bind (transfers _ _ _) fun _ => ?_
      exact .bind (transfers _ _ _) fun _ => ih (row + 1)

theorem swapSegment_upholds (arrival : Time) (index : Nat) :
    Upholds I (swapSegment arrival index) := by
  refine .theController_bind fun c => .bind (.count _) fun _ => ?_
  exact .bind (copyRows_upholds upheld _ _ _ _ _) fun _ => .stream _

theorem serveSegment_upholds (arrival : Time) (size addr : Nat) (access : Access) :
    Upholds I (serveSegment arrival size addr access) := by
  refine .theController_bind fun c => ?_
  cases c.organisation with
  | blocks => exact .pure _
  | pages _ => exact .pure _
  | segments segments =>
      refine .bind (accessSegment_upholds _ _) fun found => ?_
      -- All branches end with the transfer, before which they count and perhaps stream.
      have data : Upholds I (do
          transfer arrival access size ((← theController).stack.locate addr)) :=
        .theController_bind fun _ => transfer_upholds upheld _ _ _ _
      have counted : Upholds I (do
          if found.hit then
            count fun n => { n with segmentHits := n.segmentHits + 1 }
          else
            count fun n => { n with misses := n.misses + 1 }
            stream size
          transfer arrival access size ((← theController).stack.locate addr)) :=
        .ite (.bind (.count _) fun _ => data)
          (.bind (.count _) fun _ => .bind (.stream _) fun _ => data)
      exact .ite (.bind (swapSegment_upholds upheld _ _) fun _ => counted) counted

theorem serveByDesign_upholds (arrival : Time) (size addr : Nat) (access : Access) :
    Upholds I (serveByDesign arrival size addr access) := by
  refine .theController_bind fun c => ?_
  cases c.organisation with
  | segments _ =>
      refine .bind (bypass_upholds _ _) fun past => .ite (.pure _) ?_
      exact serveSegment_upholds upheld _ _ _ _
  | blocks =>
      refine .bind (.setAt _) fun set => .bind (bypass_upholds _ _) fun past => ?_
      exact .ite (.pure _) (serveBlock_upholds upheld _ _ _ _)
  | pages _ =>
      refine .bind (.setAt _) fun set => .bind (bypass_upholds _ _) fun past => ?_
      exact .ite (.bind (.count _) fun _ => .pure _) (servePage_upholds upheld _ _ _)

theorem serve_upholds (arrival : Time) (size addr : Nat) (access : Access) :
    Upholds I (serve arrival size addr access) := by
  refine .bind (settle_upholds upheld) fun _ => .theController_bind fun c => ?_
  refine .bind (.charge _) fun _ => .bind (renumber_upholds addr) fun addr => ?_
  refine .bind (serveByDesign_upholds upheld _ _ _ _) fun _ => .theController_bind fun c => ?_
  exact .bind (.charge _) fun _ => .charge _

end Transfers

end Service

/-- A request that does not fail upholds what transfers and drawn consequences uphold. -/
theorem Controller.request_upholds {I : Stack → Layer → Prop} (upheld : Upheld I) {c : Controller}
    (h : I c.stack c.layer) {time : Time} {size addr : Nat} {access : Access}
    (served : (c.request time size addr access).1.fault = none) :
    I (c.request time size addr access).2.stack (c.request time size addr access).2.layer := by
  rcases c.arrived_eq time access with ⟨counts, lastTime, arrived, _⟩
  have start : I (c.arrived time access).stack (c.arrived time access).layer := by
    rw [arrived]
    exact h
  have done := Service.serve_upholds upheld (c.order time).1 size addr access
    ⟨c.arrived time access, .zero⟩ start
  rw [request_eq] at served ⊢
  cases run : Service.serve (c.order time).1 size addr access ⟨c.arrived time access, .zero⟩ with
  | ok u s => exact done u s run
  | error fault s =>
      rw [run] at served
      cases served

end StackedCache
