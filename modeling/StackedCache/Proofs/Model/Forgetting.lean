import StackedCache.Proofs.Model.Reach
import StackedCache.Proofs.Relocation.Safety
import StackedCache.Proofs.Service.Forgetting

/-!
# Runs without their resets

A run in which counts are reset answers as the run that leaves the resets out, and both end in
models that differ in what they have counted only: `run_kept`.

The exception is a hot bank under the policy that moves rows, since the used rows of a bank are
counts as well.  After a reset such a bank has no rows to move, and is disabled instead:
`reset_disables`.
-/

namespace StackedCache.Model

variable {m m' : Model} {s : Settings}

/-! ## Answers -/

/-- What an operation answers. -/
inductive Answer where
  | latency (t : Time)
  | outcome (r : Except Fault Time)
  /-- A bank was marked or its marking refused. -/
  | marking (refusal : Option TimingFault)
  | report (r : Report)

def answer? (m : Model) : Operation → Option Answer
  | .request time size addr access => some (.latency (m.request time size addr.toNat access).1)
  | .requestBy requester time size addr access =>
      some (.latency (m.requestBy requester time size addr.toNat access).1)
  | .tryRequest time size addr access =>
      some (.outcome (m.tryRequest time size addr.toNat access).1)
  | .takeReading _ => none
  | .setHot p hot =>
      match m.setHot p hot with
      | .ok _ => some (.marking none)
      | .error cause => some (.marking (some cause))
  | .runEpoch => some (.report m.runEpoch.1)
  | .resetCounts => none

/-- The answers of a run, in order. -/
def answers (m : Model) : List Operation → List Answer
  | [] => []
  | op :: ops => (m.answer? op).toList ++ (m.perform op).answers ops

def Operation.isReset : Operation → Bool
  | .resetCounts => true
  | _ => false

/-- The run without its resets. -/
def kept (ops : List Operation) : List Operation := ops.filter fun op => !op.isReset

/-! ## Conditions -/

/-- An epoch finds no hot bank whose rows it would move. -/
def Mild (m : Model) : Prop :=
  m.controller.layer.settings.enabled = true →
    m.controller.layer.settings.policy = .hybrid → m.controller.layer.Mild

/-- All epochs of the run are mild. -/
def MildEpochs (m : Model) : List Operation → Prop
  | [] => True
  | op :: ops => (op = .runEpoch → m.Mild) ∧ (m.perform op).MildEpochs ops

/-- All epochs of the run are mild, from the first reset on. -/
def MildAfterReset (m : Model) : List Operation → Prop
  | [] => True
  | op :: ops =>
      if op.isReset then (m.perform op).MildEpochs ops else (m.perform op).MildAfterReset ops

/-! ## Twins -/

theorem request_latency (m : Model) (time : Time) (size addr : Nat) (access : Access) :
    (m.request time size addr access).1 =
      if m.settings.enabled then (m.controller.request time size addr access).1.latency
      else .zero := by
  unfold request
  split <;> rfl

theorem tryRequest_outcome (m : Model) (time : Time) (size addr : Nat) (access : Access) :
    (m.tryRequest time size addr access).1 =
      if m.settings.enabled then
        match (m.controller.request time size addr access).1.fault with
        | none => .ok (m.controller.request time size addr access).1.latency
        | some fault => .error fault
      else .ok .zero := by
  unfold tryRequest
  split
  · generalize m.controller.request time size addr access = r
    dsimp only
    cases r.1.fault <;> rfl
  · rfl

/-- Only an epoch of the model asks for one of the controller. -/
theorem Operation.eq_runEpoch_of_passed {op : Operation} (h : op.passed s = some .runEpoch) :
    op = .runEpoch := by
  cases op <;> simp_all [passed]

/-- The models differ in what they have counted only. -/
structure Twin (m m' : Model) : Prop where
  settings : m'.settings = m.settings
  controller : m.controller.Twin m'.controller

namespace Twin

theorem refl (m : Model) : m.Twin m := ⟨rfl, .refl _⟩

/-- A model is a twin of itself after a reset. -/
theorem reset_left (h : m.Twin m') : m.resetCounts.Twin m' :=
  ⟨h.settings, (Controller.twin_resetCounts _).symm.trans h.controller⟩

/-- Twins are the same once all counts are forgotten. -/
theorem resetCounts_eq (h : m.Twin m') : m.resetCounts = m'.resetCounts := by
  unfold resetCounts
  rw [h.settings, h.controller]

/-- An operation leaves twins. -/
theorem perform (h : m.Twin m') (sound : m.controller.layer.Sound)
    (sound' : m'.controller.layer.Sound) {op : Operation} (mild : op = .runEpoch → m.Mild) :
    (m.perform op).Twin (m'.perform op) := by
  rcases m.perform_controller op with ⟨settings, controller⟩
  rcases m'.perform_controller op with ⟨settings', controller'⟩
  refine ⟨settings'.trans (h.settings.trans settings.symm), ?_⟩
  rw [controller, controller', h.settings]
  cases passed : op.passed m.settings with
  | none => exact h.controller
  | some asked =>
      refine h.controller.perform sound sound' ?_
      rintro rfl
      exact mild (Operation.eq_runEpoch_of_passed passed)

/-- An operation answers the same. -/
theorem answer (h : m.Twin m') (sound : m.controller.layer.Sound)
    (sound' : m'.controller.layer.Sound) {op : Operation} (mild : op = .runEpoch → m.Mild) :
    m'.answer? op = m.answer? op := by
  cases op with
  | request time size addr access =>
      have outcome := (h.controller.request time size addr.toNat access).1
      simp only [answer?, request_latency, h.settings, outcome]
  | requestBy requester time size addr access =>
      have outcome := (h.controller.request time size addr.toNat access).1
      simp only [answer?, requestBy, apply_ite Prod.fst, request_latency, h.settings, outcome]
  | tryRequest time size addr access =>
      have outcome := (h.controller.request time size addr.toNat access).1
      simp only [answer?, tryRequest_outcome, h.settings, outcome]
  | takeReading r => rfl
  | setHot p hot =>
      have marked := h.controller.setHot p hot
      simp only [answer?, Model.setHot]
      generalize m.controller.setHot p hot = r, m'.controller.setHot p hot = r' at marked ⊢
      cases marked with
      | ok twin => rfl
      | error cause => rfl
  | runEpoch =>
      have report := (h.controller.layer.runEpoch sound sound' (mild rfl)).1
      exact congrArg (some ∘ Answer.report) report
  | resetCounts => rfl

end Twin

/-! ## Runs -/

/-- Settings that pass the check, and a controller that is sound for them. -/
structure Sound (m : Model) : Prop where
  valid : m.settings.Valid
  controller : m.controller.Sound m.settings

theorem Sound.perform (h : m.Sound) (op : Operation) : (m.perform op).Sound := by
  rcases m.perform_controller op with ⟨settings, controller⟩
  refine ⟨settings ▸ h.valid, ?_⟩
  rw [settings, controller]
  exact h.controller.run h.valid _

theorem ofSettings_sound (start : ofSettings s = .ok m) : m.Sound := by
  rcases ofSettings_ok start with ⟨valid, rfl⟩
  exact ⟨valid, Controller.ofSettings_sound valid⟩

theorem kept_reset {op : Operation} {ops : List Operation} (h : op.isReset = true) :
    kept (op :: ops) = kept ops := by
  simp only [kept, List.filter_cons, h]
  rfl

theorem kept_cons {op : Operation} {ops : List Operation} (h : op.isReset = false) :
    kept (op :: ops) = op :: kept ops := by
  simp only [kept, List.filter_cons, h]
  rfl

/-- A run goes the same on a twin, if its epochs are mild, and there the resets can be left out. -/
theorem Twin.run (h : m.Twin m') (sound : m.Sound) (sound' : m'.Sound) {ops : List Operation}
    (mild : m.MildEpochs ops) :
    m'.answers (kept ops) = m.answers ops ∧ (m.run ops).Twin (m'.run (kept ops)) := by
  induction ops generalizing m m' with
  | nil => exact ⟨rfl, h⟩
  | cons op ops ih =>
      have layer := sound.controller.layer
      have layer' := sound'.controller.layer
      have answer := h.answer layer layer' mild.1
      have twin := h.perform layer layer' mild.1
      cases reset : op.isReset with
      | true =>
          rw [kept_reset reset]
          cases op <;> cases reset
          exact ih h.reset_left (sound.perform .resetCounts) sound' mild.2
      | false =>
          rcases ih twin (sound.perform op) (sound'.perform op) mild.2 with ⟨answers, twins⟩
          rw [kept_cons reset]
          exact ⟨congrArg₂ (fun a b => a.toList ++ b) answer answers, twins⟩

/-- Resets can be left out of a run whose epochs are mild after the first of them. -/
theorem Sound.kept_twin (h : m.Sound) {ops : List Operation} (mild : m.MildAfterReset ops) :
    m.answers (kept ops) = m.answers ops ∧ (m.run ops).Twin (m.run (kept ops)) := by
  induction ops generalizing m with
  | nil => exact ⟨rfl, .refl m⟩
  | cons op ops ih =>
      unfold MildAfterReset at mild
      cases reset : op.isReset with
      | true =>
          rw [kept_reset reset]
          rw [if_pos reset] at mild
          cases op <;> cases reset
          -- From here on the run without resets is that of a twin.
          exact (Twin.refl m).reset_left.run (h.perform .resetCounts) h mild
      | false =>
          rw [if_neg (by simp [reset])] at mild
          rcases ih (h.perform op) mild with ⟨answers, twins⟩
          rw [kept_cons reset]
          exact ⟨congrArg ((m.answer? op).toList ++ ·) answers, twins⟩

/-- Resets change no answer of a run, no place of a row and no bank that is out of use, if the
epochs after the first of them find no hot bank whose rows they would move.  The models at the end
differ in what they have counted only. -/
theorem run_kept (start : ofSettings s = .ok m) (ops : List Operation)
    (mild : m.MildAfterReset ops) :
    m.answers (kept ops) = m.answers ops ∧
      (m.run (kept ops)).controller.layer.mapping = (m.run ops).controller.layer.mapping ∧
      (∀ p, (m.run (kept ops)).controller.layer.disabled p =
        (m.run ops).controller.layer.disabled p) ∧
      (m.run (kept ops)).resetCounts = (m.run ops).resetCounts := by
  rcases (ofSettings_sound start).kept_twin mild with ⟨answers, twins⟩
  have layers := twins.controller.layer
  refine ⟨answers, layers.same fun _ => rfl, fun p => ?_, twins.resetCounts_eq.symm⟩
  exact layers.same (f := fun l => l.disabled p) fun l => l.disabled_resetCounts p

/-- A hot bank moves its row, cools down, and takes the row back after a reset. -/
theorem run_kept_hybrid :
    let s := Settings.twoBanks .hybrid
    let m : Model := { settings := s, controller := .ofSettings s }
    let ops : List Operation :=
      [.request ⟨0⟩ 64 0 .write, .takeReading ⟨⟨0, 0⟩, ⟨96.0⟩⟩, .runEpoch,
        .takeReading ⟨⟨0, 0⟩, ⟨50.0⟩⟩, .resetCounts, .runEpoch, .request ⟨1000000⟩ 64 0 .read]
    ofSettings s = .ok m ∧ m.MildAfterReset ops ∧ m.answers (kept ops) = m.answers ops ∧
      (m.run ops).accesses = 1 ∧ (m.run (kept ops)).accesses = 2 := by
  intro s m ops
  have start : ofSettings s = .ok m := ofSettings_of_check (by decide +kernel)
  have cool : (m.run (ops.take 5)).controller.layer.Mild := by decide +kernel
  have mild : m.MildAfterReset ops := ⟨fun _ _ _ => cool, nofun, trivial⟩
  have answers := (run_kept start ops mild).1
  have counted : (m.run ops).accesses = 1 ∧ (m.run (kept ops)).accesses = 2 := by decide +kernel
  exact ⟨start, mild, answers, counted⟩

/-- A hot bank moves its used row and stays in use; after a reset it has no used rows, and is
disabled instead.  The next request then takes another time. -/
theorem reset_disables :
    let s := Settings.twoBanks .hybrid
    let m : Model := { settings := s, controller := .ofSettings s }
    let ops : List Operation :=
      [.request ⟨0⟩ 64 0 .read, .takeReading ⟨⟨0, 0⟩, ⟨96.0⟩⟩, .resetCounts, .runEpoch]
    ofSettings s = .ok m ∧
      (m.run (kept ops)).controller.layer.disabled ⟨0, 0⟩ = false ∧
      (m.run ops).controller.layer.disabled ⟨0, 0⟩ = true ∧
      ((m.run (kept ops)).request ⟨1000000⟩ 64 0 .read).1 = ⟨58010⟩ ∧
      ((m.run ops).request ⟨1000000⟩ 64 0 .read).1 = ⟨54010⟩ := by
  intro s m ops
  have start : ofSettings s = .ok m := ofSettings_of_check (by decide +kernel)
  refine ⟨start, ?_, ?_, ?_, ?_⟩ <;> decide +kernel

end StackedCache.Model
