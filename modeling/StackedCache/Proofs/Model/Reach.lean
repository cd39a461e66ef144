import StackedCache.Model.Basic
import StackedCache.Proofs.Service.Reach

/-!
# Runs of the model

An operation of the model reaches its controller as one operation of the controller, or not at all:
`run_controller`.
-/

namespace StackedCache

namespace Model

variable {m : Model} {s : Settings}

/-- A model at rest has valid settings and an empty controller. -/
theorem ofSettings_ok (start : ofSettings s = .ok m) :
    s.Valid ∧ m = { settings := s, controller := .ofSettings s } := by
  unfold ofSettings at start
  cases checked : s.check with
  | error fault =>
      rw [checked] at start
      cases start
  | ok u =>
      rw [checked] at start
      cases start
      exact ⟨Settings.check_eq_ok_iff.1 checked, rfl⟩

theorem ofSettings_of_check (checked : s.check = .ok ()) :
    ofSettings s = .ok { settings := s, controller := .ofSettings s } := by
  rw [ofSettings, checked]
  rfl

/-- An operation of the model.  Addresses are words. -/
inductive Operation where
  | request (time : Time) (size : Nat) (addr : UInt64) (access : Access)
  | requestBy (requester : Nat) (time : Time) (size : Nat) (addr : UInt64) (access : Access)
  | tryRequest (time : Time) (size : Nat) (addr : UInt64) (access : Access)
  | takeReading (r : Reading)
  | setHot (p : BankPlace) (hot : Bool)
  | runEpoch
  | resetCounts

/-- Performs an operation; a refused one leaves the model alone. -/
def perform (m : Model) : Operation → Model
  | .request time size addr access => (m.request time size addr.toNat access).2
  | .requestBy requester time size addr access =>
      (m.requestBy requester time size addr.toNat access).2
  | .tryRequest time size addr access => (m.tryRequest time size addr.toNat access).2
  | .takeReading r => m.takeReading r
  | .setHot p hot =>
      match m.setHot p hot with
      | .ok m' => m'
      | .error _ => m
  | .runEpoch => m.runEpoch.2
  | .resetCounts => m.resetCounts

/-- Performs operations in order. -/
def run (m : Model) (ops : List Operation) : Model := ops.foldl perform m

/-- What an operation asks of the controller, if anything. -/
def Operation.passed (s : Settings) : Operation → Option Controller.Operation
  | .request time size addr access =>
      if s.enabled then some (.request time size addr access) else none
  | .requestBy requester time size addr access =>
      if s.applicationCores.toNat ≤ requester then none
      else if s.enabled then some (.request time size addr access) else none
  | .tryRequest time size addr access =>
      if s.enabled then some (.request time size addr access) else none
  | .takeReading r => some (.setTemperature r.place r.temperature)
  | .setHot p hot => some (.setHot p hot)
  | .runEpoch => some .runEpoch
  | .resetCounts => some .resetCounts

/-- What operations ask of the controller, in order. -/
def passed (s : Settings) (ops : List Operation) : List Controller.Operation :=
  ops.filterMap (·.passed s)

theorem request_controller (m : Model) (time : Time) (size : Nat) (addr : UInt64)
    (access : Access) :
    (m.request time size addr.toNat access).2.settings = m.settings ∧
      (m.request time size addr.toNat access).2.controller =
        if m.settings.enabled then m.controller.perform (.request time size addr access)
        else m.controller := by
  unfold request
  cases m.settings.enabled <;> exact ⟨rfl, rfl⟩

theorem tryRequest_controller (m : Model) (time : Time) (size : Nat) (addr : UInt64)
    (access : Access) :
    (m.tryRequest time size addr.toNat access).2.settings = m.settings ∧
      (m.tryRequest time size addr.toNat access).2.controller =
        if m.settings.enabled then m.controller.perform (.request time size addr access)
        else m.controller := by
  unfold tryRequest
  cases m.settings.enabled with
  | false => exact ⟨rfl, rfl⟩
  | true =>
      simp only [if_true]
      -- A fault is reported or not; the controller goes on from where the request has ended.
      cases (m.controller.request time size addr.toNat access).1.fault <;> exact ⟨rfl, rfl⟩

/-- An operation does to the controller what it asks of it, and the settings stay. -/
theorem perform_controller (m : Model) (op : Operation) :
    (m.perform op).settings = m.settings ∧
      (m.perform op).controller = m.controller.run (op.passed m.settings).toList := by
  cases op with
  | request time size addr access =>
      rcases m.request_controller time size addr access with ⟨settings, controller⟩
      refine ⟨settings, controller.trans ?_⟩
      simp only [Operation.passed]
      cases m.settings.enabled <;> rfl
  | requestBy requester time size addr access =>
      rcases m.request_controller time size addr access with ⟨settings, controller⟩
      simp only [perform, requestBy, Operation.passed]
      split
      · exact ⟨rfl, rfl⟩
      · refine ⟨settings, controller.trans ?_⟩
        cases m.settings.enabled <;> rfl
  | tryRequest time size addr access =>
      rcases m.tryRequest_controller time size addr access with ⟨settings, controller⟩
      refine ⟨settings, controller.trans ?_⟩
      simp only [Operation.passed]
      cases m.settings.enabled <;> rfl
  | takeReading r =>
      simp only [perform, takeReading, Operation.passed, Option.toList_some, Controller.run,
        List.foldl_cons, List.foldl_nil, Controller.perform, Controller.modifyLayer, Layer.perform]
      cases m.controller.layer.setTemperature r.place r.temperature <;> exact ⟨rfl, rfl⟩
  | setHot p hot =>
      simp only [perform, setHot, Operation.passed, Option.toList_some, Controller.run,
        List.foldl_cons, List.foldl_nil, Controller.perform]
      cases m.controller.setHot p hot <;> exact ⟨rfl, rfl⟩
  | runEpoch => exact ⟨rfl, rfl⟩
  | resetCounts => exact ⟨rfl, rfl⟩

theorem run_controller (m : Model) (ops : List Operation) :
    (m.run ops).settings = m.settings ∧
      (m.run ops).controller = m.controller.run (passed m.settings ops) := by
  induction ops generalizing m with
  | nil => exact ⟨rfl, rfl⟩
  | cons op ops ih =>
      rcases m.perform_controller op with ⟨settings, controller⟩
      rcases ih (m.perform op) with ⟨settings', controller'⟩
      refine ⟨settings'.trans settings, controller'.trans ?_⟩
      -- What the rest asks depends on the settings only, which have stayed.
      rw [settings, controller, passed, passed, List.filterMap_cons]
      cases op.passed m.settings <;> rfl

end Model

end StackedCache
