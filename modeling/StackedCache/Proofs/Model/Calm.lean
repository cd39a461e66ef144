import StackedCache.Proofs.Model.Related
import StackedCache.Proofs.Service.Calm

/-!
# Runs of cool stacks

A stack that never gets hot answers as if there were no relocation: readings and epochs can be left
out of its runs, which then answer the same and count the same, and no epoch changes anything.  So
can they where relocation is switched off: `run_cool`.

The readings and the means of the vaults have to stay below the high temperature.  The mean of cool
readings may still be no number, since sums of floats overflow, and a vault with such a mean counts
as hot where vaults change place.  The theorem excludes that such a vault finds a cool partner;
`unmeasured_vault_moves` shows what happens to one that does.
-/

namespace StackedCache.Model

variable {m m' : Model} {s : Settings} {op : Operation} {ops : List Operation}

/-! ## Runs without heat -/

/-- A reading or an epoch. -/
def Operation.isThermal : Operation → Bool
  | .takeReading _ | .runEpoch => true
  | _ => false

/-- The run without its readings and epochs. -/
def athermal (ops : List Operation) : List Operation := ops.filter fun op => !op.isThermal

def Answer.isReport : Answer → Bool
  | .report _ => true
  | _ => false

/-- The layer before each epoch of the run is in `P`. -/
def AtEpochs (P : Layer → Prop) (m : Model) : List Operation → Prop
  | [] => True
  | op :: ops => (op = .runEpoch → P m.controller.layer) ∧ (m.perform op).AtEpochs P ops

/-- No bank is ever hot in the run, and no vault is by its mean when an epoch asks. -/
structure StaysCool (m : Model) (ops : List Operation) : Prop where
  initial : m.settings.relocation.initial.reaches m.settings.relocation.high = false
  readings : ∀ r, .takeReading r ∈ ops →
    (Geometry.ofSettings m.settings.stack).holds r.place = true →
      r.temperature.isNaN = false ∧ r.temperature.reaches m.settings.relocation.high = false
  epochs : m.AtEpochs
    (fun l => l.ledger.Temperate m.settings.relocation (.ofSettings m.settings.stack)) ops

/-- Only heat answers with reports. -/
theorem answer_not_report (m : Model) (cold : op.isThermal = false) :
    ∀ answer ∈ (m.answer? op).toList, answer.isReport = false := by
  intro answer given
  cases op with
  | setHot p hot =>
      simp only [answer?] at given
      split at given <;> cases List.mem_singleton.1 given <;> rfl
  | request => cases List.mem_singleton.1 given; rfl
  | requestBy => cases List.mem_singleton.1 given; rfl
  | tryRequest => cases List.mem_singleton.1 given; rfl
  | takeReading r => cases cold
  | runEpoch => cases cold
  | resetCounts => cases given

/-! ## Models that look alike -/

/-- The models differ in temperatures, epochs and counts of epochs only. -/
def Lookalike (m m' : Model) : Prop :=
  ∃ c, m.controller.Lookalike c ∧ m' = { m with controller := c }

namespace Lookalike

theorem refl (m : Model) : m.Lookalike m := ⟨m.controller, .refl _, rfl⟩

theorem related (h : m.Lookalike m') : m.Related Controller.Lookalike m' := h

/-- A request is answered the same. -/
theorem request (h : m.Lookalike m') (sound : m.Sound) (request : op.isRequest = true) :
    Follows Controller.Lookalike m m' op op := by
  rcases op.passed_of_isRequest m.settings request with idle | ⟨time, size, addr, access, passed⟩
  · exact h.related.idle idle
  · have alike : m.controller.Lookalike m'.controller := by
      rcases h with ⟨c, alike, rfl⟩
      exact alike
    rcases alike.request sound.controller.coherent time size addr.toNat access with ⟨outcome, after⟩
    have follows := h.related.serve passed outcome after
    rwa [op.atTime_self passed] at follows

/-- An operation that heat has no part in answers the same. -/
theorem step (h : m.Lookalike m') (sound : m.Sound) (cold : op.isThermal = false) :
    m'.answer? op = m.answer? op ∧ (m.perform op).Lookalike (m'.perform op) := by
  cases op with
  | request => exact h.request sound rfl
  | requestBy => exact h.request sound rfl
  | tryRequest => exact h.request sound rfl
  | setHot p hot =>
      rcases h with ⟨c, alike, rfl⟩
      exact Related.setHot ⟨c, alike, rfl⟩ (alike.setHot p hot)
  | resetCounts =>
      rcases h with ⟨c, alike, rfl⟩
      exact ⟨rfl, c.resetCounts, alike.resetCounts, rfl⟩
  | takeReading r => cases cold
  | runEpoch => cases cold

/-- A reading of one of them is not seen. -/
theorem takeReading_left (h : m.Lookalike m') (r : Reading) : (m.takeReading r).Lookalike m' := by
  rcases h with ⟨c, alike, rfl⟩
  have after := alike.setTemperature_left r.place r.temperature
  simp only [Controller.perform, Layer.perform, Controller.modifyLayer] at after
  unfold takeReading
  cases stored : m.controller.layer.setTemperature r.place r.temperature with
  | ok layer =>
      rw [stored] at after
      exact ⟨c, after, rfl⟩
  | error cause => exact ⟨c, alike, rfl⟩

/-- Nor is an epoch of one of them in which nothing happens. -/
theorem runEpoch_left (h : m.Lookalike m') (quiet : m.controller.layer.Uneventful) :
    m.runEpoch.2.Lookalike m' := by
  rcases h with ⟨c, alike, rfl⟩
  exact ⟨c, alike.runEpoch_left quiet, rfl⟩

/-- Heat alone answers at most that nothing has changed. -/
theorem thermal_left (h : m.Lookalike m') (thermal : op.isThermal = true)
    (quiet : op = .runEpoch → m.controller.layer.Uneventful) :
    (m.perform op).Lookalike m' ∧
      ∀ answer ∈ (m.answer? op).toList, ∃ r, answer = .report r ∧ r.changed = false := by
  cases op with
  | takeReading r => exact ⟨h.takeReading_left r, fun _ given => absurd given List.not_mem_nil⟩
  | runEpoch =>
      refine ⟨h.runEpoch_left (quiet rfl), fun answer given => ?_⟩
      exact ⟨m.runEpoch.1, List.mem_singleton.1 given, (quiet rfl).1⟩
  | _ => cases thermal

/-- The models have counted the same, epochs apart. -/
theorem summary (h : m.Lookalike m') :
    { m'.summary with relocation := {} } = { m.summary with relocation := {} } := by
  rcases h with ⟨c, alike, rfl⟩
  have counted : c.statistics = m.controller.statistics :=
    alike.same (f := Controller.statistics) fun _ _ _ _ => rfl
  have stack : c.stack = m.controller.stack :=
    alike.same (f := Controller.stack) fun _ _ _ _ => rfl
  simp only [Model.summary, counted, stack]

end Lookalike

/-! ## Runs -/

theorem athermal_thermal (h : op.isThermal = true) : athermal (op :: ops) = athermal ops := by
  simp only [athermal, List.filter_cons, h]
  rfl

theorem athermal_cold (h : op.isThermal = false) : athermal (op :: ops) = op :: athermal ops := by
  simp only [athermal, List.filter_cons, h]
  rfl

/-- Where epochs find nothing to do, they report so, and can be left out with the readings. -/
theorem Lookalike.run (h : m.Lookalike m') (sound : m.Sound)
    (quiet : m.AtEpochs Layer.Uneventful ops) :
    m'.answers (athermal ops) = (m.answers ops).filter (!·.isReport) ∧
      (m.run ops).Lookalike (m'.run (athermal ops)) ∧
      ∀ r, .report r ∈ m.answers ops → r.changed = false := by
  induction ops generalizing m m' with
  | nil => exact ⟨rfl, h, nofun⟩
  | cons op ops ih =>
      have sound_after := sound.perform op
      let given := (m.answer? op).toList
      let later := (m.perform op).answers ops
      cases thermal : op.isThermal with
      | true =>
          -- The run on the left goes on alone.
          rcases h.thermal_left thermal quiet.1 with ⟨after, idle⟩
          rcases ih after sound_after quiet.2 with ⟨answers, alike, reports⟩
          have reported : given.filter (!·.isReport) = [] := by
            refine List.filter_eq_nil_iff.2 fun answer member => ?_
            rcases idle answer member with ⟨r, rfl, _⟩
            exact Bool.false_ne_true
          rw [athermal_thermal thermal]
          refine ⟨?_, alike, fun r member => ?_⟩
          · calc m'.answers (athermal ops)
                = later.filter (!·.isReport) := answers
              _ = (given ++ later).filter (!·.isReport) := by
                  rw [List.filter_append, reported, List.nil_append]
          · rcases List.mem_append.1 member with now | afterwards
            · rcases idle _ now with ⟨_, same, unchanged⟩
              cases same
              exact unchanged
            · exact reports r afterwards
      | false =>
          -- Both runs perform the operation.
          rcases h.step sound thermal with ⟨answer, after⟩
          rcases ih after sound_after quiet.2 with ⟨answers, alike, reports⟩
          have unreported := m.answer_not_report thermal
          have kept : given.filter (!·.isReport) = given := by
            refine List.filter_eq_self.2 fun answer member => ?_
            rw [unreported answer member]
            rfl
          rw [athermal_cold thermal]
          refine ⟨?_, alike, fun r member => ?_⟩
          · calc (m'.answer? op).toList ++ (m'.perform op).answers (athermal ops)
                = given ++ later.filter (!·.isReport) := by rw [answer, answers]
              _ = (given ++ later).filter (!·.isReport) := by rw [List.filter_append, kept]
          · rcases List.mem_append.1 member with now | afterwards
            · cases unreported _ now
            · exact reports r afterwards

/-! ## Epochs that find nothing to do -/

variable {g : Geometry}

theorem Operation.eq_takeReading_of_passed {p : BankPlace} {t : Celsius}
    (h : op.passed s = some (.setTemperature p t)) : op = .takeReading ⟨p, t⟩ := by
  cases op with
  | takeReading r =>
      cases h
      rfl
  | _ => simp_all [passed]

theorem Sound.perform_settings (h : m.Sound) (op : Operation) :
    (m.perform op).controller.layer.settings = m.controller.layer.settings := by
  rw [(m.perform_controller op).2]
  cases op.passed m.settings with
  | none => rfl
  | some asked => exact h.controller.perform_settings asked

/-- A layer stays calm, if readings are cool and nothing happens in epochs. -/
theorem Sound.perform_calm (h : m.Sound) (calm : m.controller.layer.Calm m.settings.relocation g)
    (cool : ∀ r, op = .takeReading r → g.holds r.place = true →
      r.temperature.below m.settings.relocation.high = true)
    (quiet : op = .runEpoch → m.controller.layer.Uneventful) :
    (m.perform op).controller.layer.Calm m.settings.relocation g := by
  rw [(m.perform_controller op).2]
  cases passed : op.passed m.settings with
  | none => exact calm
  | some asked =>
      refine h.controller.perform_calm calm ?_ ?_
      · rintro p t rfl
        exact cool ⟨p, t⟩ (Operation.eq_takeReading_of_passed passed)
      · rintro rfl
        exact quiet (Operation.eq_runEpoch_of_passed passed)

/-- Nothing is done where relocation is switched off. -/
theorem Sound.uneventful_of_off (h : m.Sound)
    (off : m.controller.layer.settings.enabled = false) : m.AtEpochs Layer.Uneventful ops := by
  induction ops generalizing m with
  | nil => trivial
  | cons op ops ih =>
      have same := h.perform_settings op
      exact ⟨fun _ => Layer.uneventful_of_off off, ih (h.perform op) (same ▸ off)⟩

/-- Nothing is done in a calm layer, if readings and means stay cool. -/
theorem Sound.uneventful_of_calm (h : m.Sound) (settings : m.settings = s)
    (calm : m.controller.layer.Calm s.relocation g)
    (readings : ∀ r, .takeReading r ∈ ops → g.holds r.place = true →
      r.temperature.below s.relocation.high = true)
    (epochs : m.AtEpochs (fun l => l.ledger.Temperate s.relocation g) ops) :
    m.AtEpochs Layer.Uneventful ops := by
  induction ops generalizing m with
  | nil => trivial
  | cons op ops ih =>
      subst settings
      -- Each epoch finds the layer calm, and leaves it calm to the next one.
      have quiet : op = .runEpoch → m.controller.layer.Uneventful := fun epoch =>
        calm.uneventful h.controller.layer h.valid.relocation (epochs.1 epoch)
      have cool : ∀ r, op = .takeReading r → g.holds r.place = true →
          r.temperature.below m.settings.relocation.high = true := by
        rintro r rfl
        exact readings r List.mem_cons_self
      have rest := ih (h.perform op) (m.perform_controller op).1 (h.perform_calm calm cool quiet)
        (fun r later => readings r (List.mem_cons_of_mem _ later)) epochs.2
      exact ⟨quiet, rest⟩

theorem StaysCool.uneventful (start : ofSettings s = .ok m) (cool : m.StaysCool ops) :
    m.AtEpochs Layer.Uneventful ops := by
  have sound := ofSettings_sound start
  rcases ofSettings_ok start with ⟨valid, rfl⟩
  -- The settings are numbers, so that what does not reach the high temperature is below it.
  have finite := valid.relocation.finite
  have high := Celsius.isNaN_of_isFinite (finite s.relocation.high List.mem_cons_self)
  have initial : s.relocation.initial.isNaN = false :=
    Celsius.isNaN_of_isFinite (finite _ (by simp [RelocationSettings.temperatures]))
  have calm := Layer.ofSettings_calm (.ofSettings s.stack)
    (Celsius.below_of_not_reaches initial high cool.initial)
  refine sound.uneventful_of_calm rfl calm (fun r taken held => ?_) cool.epochs
  rcases cool.readings r taken held with ⟨number, unreached⟩
  exact Celsius.below_of_not_reaches number high unreached

/-- Readings and epochs can be left out of a run if relocation is switched off, or if nothing gets
hot: no answer changes, and nothing that is counted but by relocation.  All epochs report that they
have changed nothing. -/
theorem run_cool (start : ofSettings s = .ok m) (ops : List Operation)
    (cool : s.relocation.enabled = false ∨ m.StaysCool ops) :
    m.answers (athermal ops) = (m.answers ops).filter (!·.isReport) ∧
      { (m.run (athermal ops)).summary with relocation := {} } =
        { (m.run ops).summary with relocation := {} } ∧
      ∀ r, .report r ∈ m.answers ops → r.changed = false := by
  have sound := ofSettings_sound start
  have quiet : m.AtEpochs Layer.Uneventful ops := by
    rcases cool with off | cool
    · rcases ofSettings_ok start with ⟨_, rfl⟩
      exact sound.uneventful_of_off off
    · exact cool.uneventful start
  rcases (Lookalike.refl m).run sound quiet with ⟨answers, alike, reports⟩
  exact ⟨answers, alike.summary, reports⟩

/-- Two vaults of four banks, which change place when they are hot. -/
def swappingVaults : Settings where
  stack := { vaults := 2, vaultSize := 131072, bankSize := 32768 }
  cache := { sets := 2 }
  relocation := { policy := .swap, interVault := true }

/-- Warm readings and an epoch, with a request before and after them. -/
theorem run_cool_swap :
    let s := swappingVaults
    let m : Model := { settings := s, controller := .ofSettings s }
    let ops : List Operation :=
      [.request ⟨0⟩ 64 0 .write, .takeReading ⟨⟨0, 0⟩, ⟨84.0⟩⟩, .takeReading ⟨⟨0, 1⟩, ⟨84.0⟩⟩,
        .runEpoch, .request ⟨1000000⟩ 64 0 .read]
    ofSettings s = .ok m ∧ s.relocation.enabled = true ∧ m.StaysCool ops ∧
      m.answers (athermal ops) = (m.answers ops).filter (!·.isReport) ∧
      (m.run ops).controller.layer.epoch = 1 ∧ (m.run (athermal ops)).totalLatency = ⟨138400⟩ := by
  intro s m ops
  have start : ofSettings s = .ok m := ofSettings_of_check (by decide +kernel)
  have temperate : ∀ before, before = m.run (ops.take 3) →
      before.controller.layer.ledger.Temperate s.relocation (.ofSettings s.stack) := by
    rintro _ rfl
    exact ⟨by decide +kernel, fun _ _ => by decide +kernel⟩
  have initial : s.relocation.initial.reaches s.relocation.high = false := by decide +kernel
  have cool : m.StaysCool ops := by
    refine ⟨initial, fun r taken _ => ?_, nofun, nofun, nofun, fun _ => temperate _ rfl, nofun,
      trivial⟩
    have warm : r.temperature = ⟨84.0⟩ := by
      simp only [ops, List.mem_cons, List.not_mem_nil, reduceCtorEq, Operation.takeReading.injEq,
        false_or, or_false] at taken
      rcases taken with rfl | rfl <;> rfl
    rw [warm]
    decide +kernel
  have answers := (run_cool start ops (.inr cool)).1
  have ends : (m.run ops).controller.layer.epoch = 1 ∧
      (m.run (athermal ops)).totalLatency = ⟨138400⟩ := by decide +kernel
  exact ⟨start, rfl, cool, answers, ends⟩

/-- No bank and no mean ever reaches the high temperature, but a vault whose mean is no number
moves.  The next request then takes another time. -/
theorem unmeasured_vault_moves :
    let s := { swappingVaults with
      relocation :=
        { swappingVaults.relocation with high := ⟨1.7e308⟩, dangerous := ⟨1.7e308⟩ } }
    let m : Model := { settings := s, controller := .ofSettings s }
    let readings : List Reading :=
      [⟨⟨0, 2⟩, ⟨-1.0 / 0.0⟩⟩, ⟨⟨0, 0⟩, ⟨1.6e308⟩⟩, ⟨⟨0, 1⟩, ⟨1.6e308⟩⟩]
    let warming : List Operation := .request ⟨0⟩ 64 0 .write :: readings.map .takeReading
    let ops := warming ++ [.runEpoch]
    ofSettings s = .ok m ∧ s.relocation.initial.reaches s.relocation.high = false ∧
      (∀ r ∈ readings, r.temperature.isNaN = false ∧
        r.temperature.reaches s.relocation.high = false) ∧
      (∀ n ≤ ops.length, ∀ v < 2, ((m.run (ops.take n)).controller.layer.ledger.vaultTemperature
        v).reaches s.relocation.high = false) ∧
      (m.run warming).runEpoch.1.changed = true ∧
      ((m.run (athermal ops)).request ⟨1000000⟩ 64 0 .read).1 = ⟨36200⟩ ∧
      ((m.run ops).request ⟨1000000⟩ 64 0 .read).1 = ⟨111200⟩ := by
  -- The mean of the first vault is the lowest of all numbers until the last reading.  Then the sum
  -- overflows before that number is added.
  intro s m readings warming ops
  have start : ofSettings s = .ok m := ofSettings_of_check (by decide +kernel)
  refine ⟨start, ?_, ?_, ?_, ?_, ?_, ?_⟩ <;> decide +kernel

end StackedCache.Model
