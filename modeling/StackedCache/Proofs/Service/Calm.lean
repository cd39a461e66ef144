import StackedCache.Proofs.Relocation.Calm
import StackedCache.Proofs.Service.Settlement
import StackedCache.Proofs.Service.Unseen

/-!
# Requests to calm stacks

Two controllers look alike if they differ in temperatures, in the number of epochs and in what
epochs have counted only.  They serve requests in the same way and look alike afterwards:
`Lookalike.request`.  Readings, and epochs in which nothing happens, keep the looks.

A calm layer stays calm in requests, and in all other operations that heat has no part in.
-/

namespace StackedCache

namespace Controller

variable {c c' : Controller} {s : Settings}

/-- The controllers differ in temperatures, epochs and counts of epochs only. -/
def Lookalike (c c' : Controller) : Prop :=
  ∃ ledger epoch tallies, c' = c.veiled ledger epoch tallies c.counts

theorem lookalike_unseen : Unseen Lookalike where
  veil := by
    rintro c _ ⟨ledger, epoch, tallies, rfl⟩
    exact ⟨ledger, epoch, tallies, c.counts, rfl⟩
  sets := by
    rintro c _ sets ⟨ledger, epoch, tallies, rfl⟩
    exact ⟨ledger, epoch, tallies, rfl⟩
  organisation := by
    rintro c _ o ⟨ledger, epoch, tallies, rfl⟩
    exact ⟨ledger, epoch, tallies, rfl⟩
  pageTable := by
    rintro c _ t ⟨ledger, epoch, tallies, rfl⟩
    exact ⟨ledger, epoch, tallies, rfl⟩
  stack := by
    rintro c _ stack ⟨ledger, epoch, tallies, rfl⟩
    exact ⟨ledger, epoch, tallies, rfl⟩
  counts := by
    rintro c _ f _ ⟨ledger, epoch, tallies, rfl⟩
    exact ⟨ledger, epoch, tallies, rfl⟩
  recorded := by
    rintro c _ row n ⟨ledger, epoch, tallies, rfl⟩
    -- Temperatures decide in which count of the ledger an access is recorded.
    have geometry : (c.veiled ledger epoch tallies c.counts).layer.geometry = c.layer.geometry :=
      rfl
    simp only [Layer.recordAccess, Layer.bankId?, geometry]
    cases c.layer.geometry.holds row.place with
    | false => exact .error _
    | true => exact .ok ⟨_, epoch, tallies, rfl⟩

namespace Lookalike

theorem refl (c : Controller) : c.Lookalike c := ⟨_, _, _, rfl⟩

/-- What is read past the veil is the same, counts included. -/
theorem same {γ : Type} {f : Controller → γ} (h : c.Lookalike c')
    (blind : ∀ c ledger epoch tallies, f (c.veiled ledger epoch tallies c.counts) = f c) :
    f c' = f c := by
  rcases h with ⟨ledger, epoch, tallies, rfl⟩
  exact blind c ledger epoch tallies

/-! ## Requests -/

theorem drawConsequences (h : c.Lookalike c') :
    c'.drawConsequences.1 = c.drawConsequences.1 ∧ c.settled.Lookalike c'.settled := by
  rcases h with ⟨ledger, epoch, tallies, rfl⟩
  have pending : (c.veiled ledger epoch tallies c.counts).layer.pending = c.layer.pending := rfl
  unfold settled Controller.drawConsequences
  rw [pending]
  cases c.layer.pending with
  | false => exact ⟨rfl, ledger, epoch, tallies, rfl⟩
  | true => exact ⟨rfl, ledger, epoch, tallies, rfl⟩

theorem arrived (h : c.Lookalike c') (time : Time) (access : Access) :
    (c'.order time).1 = (c.order time).1 ∧
      (c.arrived time access).Lookalike (c'.arrived time access) := by
  rcases h with ⟨ledger, epoch, tallies, rfl⟩
  have last : (c.veiled ledger epoch tallies c.counts).lastTime = c.lastTime := rfl
  unfold Controller.arrived order
  rw [last]
  split
  · exact ⟨rfl, ledger, epoch, tallies, rfl⟩
  · exact ⟨rfl, ledger, epoch, tallies, rfl⟩

/-- A request has the same outcome. -/
theorem request (h : c.Lookalike c') (coherent : ∀ set ∈ c.sets.toList, set.Coherent) (time : Time)
    (size addr : Nat) (access : Access) :
    (c'.request time size addr access).1 = (c.request time size addr access).1 ∧
      (c.request time size addr access).2.Lookalike (c'.request time size addr access).2 := by
  have sets : c'.sets = c.sets := h.same (f := Controller.sets) fun _ _ _ _ => rfl
  rcases h.arrived time access with ⟨arrival, arrived⟩
  rcases arrived.drawConsequences with ⟨toll, settled⟩
  rw [request_proceeds coherent, request_proceeds (sets ▸ coherent), arrival, toll]
  exact lookalike_unseen.proceed settled _ _ _ _ _

/-! ## Other operations -/

/-- A bank is marked in both or refused in both. -/
theorem setHot (h : c.Lookalike c') (p : BankPlace) (hot : Bool) :
    SameOutcome Lookalike (c.setHot p hot) (c'.setHot p hot) := by
  rcases h with ⟨ledger, epoch, tallies, rfl⟩
  have stack : (c.veiled ledger epoch tallies c.counts).stack = c.stack := rfl
  unfold Controller.setHot
  rw [stack]
  cases Stack.setHot p hot c.stack with
  | ok u stack => exact .ok ⟨ledger, epoch, tallies, rfl⟩
  | error cause stack => exact .error cause

theorem resetCounts (h : c.Lookalike c') : c.resetCounts.Lookalike c'.resetCounts := by
  rcases h with ⟨ledger, epoch, tallies, rfl⟩
  exact ⟨_, epoch, _, rfl⟩

/-- A reading of one of them is not seen. -/
theorem setTemperature_left (h : c.Lookalike c') (p : BankPlace) (t : Celsius) :
    (c.perform (.setTemperature p t)).Lookalike c' := by
  rcases h with ⟨ledger, epoch, tallies, rfl⟩
  rcases Layer.perform_setTemperature c.layer p t with ⟨other, stored⟩
  simp only [perform, modifyLayer, stored]
  exact ⟨ledger, epoch, tallies, rfl⟩

/-- Nor is an epoch of one of them in which nothing happens. -/
theorem runEpoch_left (h : c.Lookalike c') (quiet : c.layer.Uneventful) :
    (c.perform .runEpoch).Lookalike c' := by
  rcases h with ⟨ledger, epoch, tallies, rfl⟩
  rcases quiet.2 with ⟨counts, ends⟩
  simp only [perform, modifyLayer, Layer.perform, ends]
  exact ⟨ledger, epoch, tallies, rfl⟩

end Lookalike

/-! ## Layers -/

variable {g : Geometry}

/-- What drawn consequences and recorded accesses keep of the layer, a request keeps. -/
theorem Sound.request_keeps {P : Layer → Prop} (h : c.Sound s)
    (settled : ∀ l : Layer, P l → P l.settle)
    (recorded : ∀ l row n l', P l → l.recordAccess row n = .ok l' → P l') (start : P c.layer)
    (time : Time) (size addr : Nat) (access : Access) :
    P (c.request time size addr access).2.layer := by
  have drawn : P (c.arrived time access).settled.layer := by
    rcases c.arrived_eq time access with ⟨counts, lastTime, arrived, _⟩
    rw [arrived, settled_layer]
    split
    · exact settled _ start
    · exact start
  rw [request_proceeds h.coherent]
  exact proceed_keeps recorded drawn _ _ _ _ _

/-- The settings of relocation stay. -/
theorem Sound.perform_settings (h : c.Sound s) (op : Operation) :
    (c.perform op).layer.settings = c.layer.settings := by
  have asked : ∀ act : Layer.Operation, (c.layer.perform act).settings = c.layer.settings :=
    fun act => (Layer.Under.perform ⟨h.layer, rfl, rfl⟩ act).settings
  cases op with
  | request time size addr access =>
      let Same (l : Layer) : Prop := l.settings = c.layer.settings
      refine h.request_keeps (P := Same) (fun _ same => same) ?_ rfl time size addr.toNat access
      intro l row n l' same recorded
      rw [← Layer.perform_of_recorded recorded]
      rcases l.perform_recordAccess row n with refused | ⟨ledger, performed⟩
      · rw [refused]
        exact same
      · rw [performed]
        exact same
  | setTemperature p t => exact asked (.setTemperature p t)
  | setHot p hot =>
      rcases c.perform_setHot p hot with ⟨stack, marked⟩
      rw [marked]
  | runEpoch => exact asked .runEpoch
  | resetCounts => exact asked .resetCounts

/-- A calm layer stays calm, if readings are cool and nothing happens in epochs. -/
theorem Sound.perform_calm (h : c.Sound s) (calm : c.layer.Calm s.relocation g) {op : Operation}
    (cool : ∀ p t, op = .setTemperature p t → g.holds p = true → t.below s.relocation.high = true)
    (quiet : op = .runEpoch → c.layer.Uneventful) : (c.perform op).layer.Calm s.relocation g := by
  cases op with
  | request time size addr access =>
      exact h.request_keeps (fun _ calm => calm.settle) Layer.Calm.recordAccess calm time size
        addr.toNat access
  | setTemperature p t => exact calm.setTemperature (cool p t rfl)
  | setHot p hot =>
      rcases c.perform_setHot p hot with ⟨stack, marked⟩
      rw [marked]
      exact calm
  | runEpoch => exact calm.runEpoch (quiet rfl)
  | resetCounts => exact calm.resetCounts

end Controller

end StackedCache
