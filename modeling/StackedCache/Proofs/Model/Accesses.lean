import StackedCache.Proofs.Model.Reach
import StackedCache.Proofs.Relocation.Accesses
import StackedCache.Proofs.Relocation.Safety
import StackedCache.Proofs.Service.Upholding
import StackedCache.Proofs.Stack.Accesses

/-!
# Accesses counted twice

The stack counts accesses by physical bank, as they happen; the relocation layer is told of them
afterwards and finds the physical bank once more.  Over any run whose requests do not fail, both
counts agree, for each bank and in total: `run_accesses`.
-/

namespace StackedCache

variable {stack stack' : Stack} {layer layer' : Layer}

/-- The relocation layer has counted what the stack has. -/
structure Tallied (stack : Stack) (layer : Layer) : Prop where
  counted : layer.Counted stack.accesses
  banks : ∀ p, layer.geometry.holds p = true →
    stack.accessesOf? p = some (layer.ledger.served (layer.geometry.bankId p))
  agrees : stack.Agrees

/-- What is served at the place of a logical row is recorded there. -/
theorem Tallied.transfer {row physical : Location} {n : Nat} (h : Tallied stack layer)
    (located : layer.physicalLocation row = .ok physical)
    (serves : stack.Serves physical.place n stack')
    (recorded : layer.recordAccess row n = .ok layer') : Tallied stack' layer' := by
  cases held : layer.geometry.holds row.place with
  | false =>
      rw [Layer.physicalLocation_of_not_holds held] at located
      cases located
  | true =>
      have performed := Layer.perform_of_recorded recorded
      have geometry := Layer.perform_geometry h.counted.sound (.recordAccess row n)
      rcases h.counted.recordAccess held n with ⟨counted, served⟩
      rw [performed] at geometry counted served
      -- The record looks the physical bank up anew, and the transfer has not moved it.
      let id := layer.mapping.physicalOfRow row.row (layer.geometry.bankId row.place)
      have place : physical.place = layer.geometry.bankAt id := by
        rw [Layer.physicalLocation_of_holds held] at located
        cases located
        rfl
      refine ⟨serves.total ▸ counted, ?_, serves.agrees h.agrees⟩
      intro p hp
      rw [geometry] at hp ⊢
      rw [serves.banks, served]
      by_cases same : p = physical.place
      · have number : layer.geometry.bankId p = id := by
          rw [same, place, Geometry.bankId_bankAt]
        rw [if_pos same, if_pos number, ← same, h.banks p hp]
        rfl
      · have number : layer.geometry.bankId p ≠ id := by
          intro number
          apply same
          rw [place, ← number, Layer.bankAt_bankId hp]
        rw [if_neg same, if_neg number, h.banks p hp, Nat.add_zero]

/-- A layer that has counted the same as before. -/
theorem Tallied.withLayer (h : Tallied stack layer) (counted : layer'.Counted stack.accesses)
    (geometry : layer'.geometry = layer.geometry)
    (served : ∀ id, layer'.ledger.served id = layer.ledger.served id) : Tallied stack layer' := by
  refine ⟨counted, ?_, h.agrees⟩
  intro p hp
  rw [geometry] at hp ⊢
  rw [served]
  exact h.banks p hp

theorem Tallied.perform (h : Tallied stack layer) {op : Layer.Operation}
    (quiet : (∃ p t, op = .setTemperature p t) ∨ op = .runEpoch ∨ op = .settle) :
    Tallied stack (layer.perform op) := by
  rcases h.counted.perform quiet with ⟨counted, served⟩
  exact h.withLayer counted (Layer.perform_geometry h.counted.sound op) served

theorem tallied_upheld : Upheld Tallied where
  transfer h located run recorded :=
    h.transfer located (Stack.transfer_serves _ _ _ _ _ _ _ run) recorded
  settle h := h.perform (.inr (.inr rfl))

/-- A stack that serves no request. -/
theorem Tallied.withStack {p : BankPlace} (h : Tallied stack layer)
    (serves : stack.Serves p 0 stack') : Tallied stack' layer := by
  refine ⟨serves.total ▸ h.counted, ?_, serves.agrees h.agrees⟩
  intro q hq
  rw [serves.banks, ← h.banks q hq]
  split
  · rename_i same
    subst same
    cases stack.accessesOf? q <;> rfl
  · rfl

/-- Without accesses there is nothing to tally but the banks themselves. -/
theorem Tallied.of_idle (idle : stack.Idle) (counted : layer.Counted 0)
    (served : ∀ id, layer.ledger.served id = 0)
    (there : ∀ p, layer.geometry.holds p = true → ∃ b, stack.bank? p = some b) :
    Tallied stack layer := by
  refine ⟨idle.accesses ▸ counted, ?_, idle.agrees⟩
  intro p hp
  rcases there p hp with ⟨b, found⟩
  rw [idle.accessesOf? found, served]

theorem Tallied.resetCounts (h : Tallied stack layer) :
    Tallied stack.resetActivity layer.resetCounts := by
  refine .of_idle stack.resetActivity_idle h.counted.resetCounts
    layer.ledger.served_resetCounts fun p hp => ?_
  have counted := h.banks p hp
  rcases Option.map_eq_some_iff.1 counted with ⟨b, found, _⟩
  exact ⟨b.resetActivity, by rw [Stack.bank?_resetActivity, found]; rfl⟩

namespace Controller

variable {c : Controller} {s : Settings}

/-- The request of an operation, if it is one, does not fail. -/
def Operation.Answered (c : Controller) : Operation → Prop
  | .request time size addr access => (c.request time size addr.toNat access).1.fault = none
  | _ => True

/-- No request of the run fails. -/
def Answers (c : Controller) : List Operation → Prop
  | [] => True
  | op :: ops => op.Answered c ∧ (c.perform op).Answers ops

theorem ofSettings_tallied (s : Settings) :
    Tallied (ofSettings s).stack (ofSettings s).layer := by
  have counted := Layer.ofSettings_counted s.relocation (.ofSettings s.stack)
  refine .of_idle (Stack.ofSettings_idle s.stack) counted ?_ fun p hp => Stack.ofSettings_bank? hp
  intro id
  simp only [ofSettings, Layer.ofSettings, Ledger.ofSize, Ledger.served, Array.getElem?_replicate]
  split <;> rfl

/-- Every operation keeps the tallies equal, if its request does not fail. -/
theorem tallied_perform (h : Tallied c.stack c.layer) {op : Operation} (answered : op.Answered c) :
    Tallied (c.perform op).stack (c.perform op).layer := by
  cases op with
  | request time size addr access => exact request_upholds tallied_upheld h answered
  | setTemperature p t => exact h.perform (.inl ⟨p, t, rfl⟩)
  | setHot p hot =>
      simp only [Controller.perform]
      cases marked : c.setHot p hot with
      | error _ => exact h
      | ok c' =>
          rcases setHot_ok marked with ⟨u, stack, done, rfl⟩
          exact h.withStack (Stack.setHot_serves p hot c.stack u stack done)
  | runEpoch => exact h.perform (.inr (.inl rfl))
  | resetCounts => exact h.resetCounts

theorem tallied_run (h : Tallied c.stack c.layer) {ops : List Operation} (answers : c.Answers ops) :
    Tallied (c.run ops).stack (c.run ops).layer := by
  induction ops generalizing c with
  | nil => exact h
  | cons op ops ih => exact ih (tallied_perform h answers.1) answers.2

end Controller

namespace Model

variable {m : Model} {s : Settings}

/-- After any run whose requests do not fail, every physical bank has as many column accesses as the
ledger says it has served, and no fewer than for banks at home elsewhere; each vault has as many
requests as its banks have accesses; and all accesses together are those of the logical banks, and
those of the logical vaults. -/
theorem run_accesses (start : ofSettings s = .ok m) (ops : List Operation)
    (answers : m.controller.Answers (passed s ops)) :
    let stack := (m.run ops).controller.stack
    let layer := (m.run ops).controller.layer
    (∀ p, layer.geometry.holds p = true → ∃ b, stack.bank? p = some b ∧
      b.activity.reads + b.activity.writes = layer.ledger.served (layer.geometry.bankId p) ∧
      layer.ledger.foreign (layer.geometry.bankId p) ≤ b.activity.reads + b.activity.writes) ∧
    (∀ v ∈ stack.vaults, v.requests = (v.banks.toList.map Bank.accesses).sum) ∧
    stack.accesses = (layer.banks.toList.map Entry.accesses).sum ∧
    stack.accesses = (layer.vaults.toList.map Entry.accesses).sum := by
  intro stack layer
  rcases ofSettings_ok start with ⟨_, rfl⟩
  have reached := (run_controller { settings := s, controller := .ofSettings s } ops).2
  have tallied : Tallied stack layer := by
    have run := Controller.tallied_run (Controller.ofSettings_tallied s) answers
    rwa [← reached] at run
  refine ⟨?_, ?_, tallied.counted.banks.symm, tallied.counted.vaults.symm⟩
  · intro p held
    rcases Option.map_eq_some_iff.1 (tallied.banks p held) with ⟨b, found, served⟩
    have bound := tallied.counted.bounded (layer.geometry.bankId p)
    rw [← served] at bound
    exact ⟨b, found, served, bound⟩
  · intro v hv
    rcases Array.mem_iff_getElem?.1 hv with ⟨i, hi⟩
    exact tallied.agrees i v hi

/-- A bank serves requests while cool and while hot, and then its neighbour does in its place. -/
theorem run_accesses_swap :
    let s := Settings.twoBanks .swap
    let m : Model := { settings := s, controller := .ofSettings s }
    let ops : List Operation :=
      [.request ⟨0⟩ 64 0 .write, .takeReading ⟨⟨0, 0⟩, ⟨96.0⟩⟩, .request ⟨1000000⟩ 64 0 .read,
        .runEpoch, .request ⟨2000000⟩ 64 0 .read]
    let stack := (m.run ops).controller.stack
    let layer := (m.run ops).controller.layer
    ofSettings s = .ok m ∧ m.controller.Answers (passed s ops) ∧ layer.ledger.foreign 1 = 2 ∧
      stack.accesses = 6 ∧ (layer.banks.toList.map Entry.accesses).sum = 6 := by
  intro s m ops stack layer
  have start : ofSettings s = .ok m := ofSettings_of_check (by decide +kernel)
  have answered : ∀ o : Option Fault, o.isNone = true → o = none :=
    fun o => Option.isNone_iff_eq_none.1
  have answers : m.controller.Answers (passed s ops) := by
    refine ⟨answered _ ?_, trivial, answered _ ?_, trivial, answered _ ?_, trivial⟩ <;>
      decide +kernel
  have relocated : layer.ledger.foreign 1 = 2 := by decide +kernel
  have total : stack.accesses = 6 := by decide +kernel
  have agree := (run_accesses start ops answers).2.2.1
  exact ⟨start, answers, relocated, total, agree.symm.trans total⟩

end Model

end StackedCache
