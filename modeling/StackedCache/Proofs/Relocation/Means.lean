import StackedCache.Proofs.Quantity.Celsius
import StackedCache.Proofs.Relocation.Sweep

/-!
# Means of vaults

The temperature of a physical vault is the mean of the last readings of its banks: their sum in the
order of the banks, divided by their number.  The ledger finds these readings next to each other,
since it holds one for each bank of the stack, in the order of the banks' numbers.  It starts like
that, and no operation changes it: `run_measured`.
-/

namespace StackedCache

namespace Layer

variable {s : RelocationSettings} {g : Geometry} {l l' : Layer} {v : Nat}

/-- The mean of the readings of a physical vault's banks. -/
def vaultMean (l : Layer) (v : Nat) : Celsius :=
  ⟨Celsius.total (fun b => l.ledger.temperature (l.geometry.bankId ⟨v, b⟩)) (l.geometry.banks - 1) /
    Float.ofNat l.geometry.banks⟩

/-- The ledger has a reading for each bank of the stack. -/
structure Measured (l : Layer) : Prop where
  banks : l.ledger.banksPerVault = l.geometry.banks
  size : l.ledger.temperatures.size = l.geometry.totalBanks

/-! ## The readings of a vault -/

/-- The readings between two numbers. -/
theorem drop_take_temperatures {ledger : Ledger} {first n : Nat}
    (inside : first + n ≤ ledger.temperatures.size) :
    (ledger.temperatures.toList.drop first).take n =
      (List.range n).map fun b => ledger.temperature (first + b) := by
  apply List.ext_getElem?
  intro b
  by_cases hb : b < n
  · have held : first + b < ledger.temperatures.size := by omega
    simp [hb, List.getElem?_drop, Ledger.temperature, held]
  · have beyond := Nat.not_lt.1 hb
    rw [List.getElem?_eq_none (Nat.le_trans (List.length_take_le _ _) beyond),
      List.getElem?_eq_none (by simpa using beyond)]

theorem Measured.vaultTemperature (h : l.Measured) (v_lt : v < l.geometry.vaults) :
    l.ledger.vaultTemperature v = l.vaultMean v := by
  have inside : v * l.geometry.banks + l.geometry.banks ≤ l.ledger.temperatures.size := by
    rw [h.size, ← Nat.succ_mul]
    exact Nat.mul_le_mul_right _ v_lt
  rw [Ledger.vaultTemperature, h.banks, if_pos inside, drop_take_temperatures inside, vaultMean]
  cases banks : l.geometry.banks with
  | zero =>
      -- There is nothing to read, and the mean of nothing is no number.
      have nothing : l.ledger.temperature (l.geometry.bankId ⟨v, 0⟩) = .none := by
        have empty : l.ledger.temperatures.size = 0 := by
          rw [h.size, Geometry.totalBanks, banks, Nat.mul_zero]
        rw [Ledger.temperature, Array.getElem?_eq_none (by omega)]
        rfl
      simp only [Nat.zero_sub, Celsius.total, nothing]
      rfl
  | succ n =>
      have places : ∀ b, l.geometry.bankId ⟨v, b⟩ = v * (n + 1) + b := by
        intro b
        rw [Geometry.bankId, banks]
      simp only [places]
      exact Celsius.mean_range _ n

/-! ## Ledgers of a run -/

theorem Measured.frame (h : l.Measured) (frame : SameFrame l l') : l'.Measured := by
  rcases h with ⟨banks, size⟩
  rw [← frame.geometry, ← frame.ledger] at banks size
  exact ⟨banks, size⟩

theorem vaultMean_frame (frame : SameFrame l l') : l'.vaultMean = l.vaultMean := by
  funext v
  simp only [vaultMean, frame.geometry, frame.ledger]

theorem ofSettings_measured (s : RelocationSettings) (g : Geometry) : (ofSettings s g).Measured :=
  ⟨rfl, Array.size_replicate⟩

theorem Measured.nextEpoch (h : l.Measured) : l.nextEpoch.layer.Measured := ⟨h.banks, h.size⟩

theorem Measured.stage (h : l.Measured) (sound : l.Sound) (n : Nat) : (l.stage n).Measured :=
  h.nextEpoch.frame (changes_frame (stage_changes sound n))

theorem Measured.perform (h : l.Measured) (sound : l.Sound) (op : Operation) :
    (l.perform op).Measured := by
  cases op with
  | setTemperature p t =>
      simp only [Layer.perform, setTemperature, bankId?]
      cases l.geometry.holds p with
      | false => exact h
      | true => exact ⟨h.banks, (Array.size_setIfInBounds ..).trans h.size⟩
  | recordAccess row requests =>
      simp only [Layer.perform, recordAccess, bankId?]
      cases l.geometry.holds row.place with
      | false => exact h
      | true =>
          have kept : ∀ (ledger : Ledger) (id requests : Nat) (hot relocated : Bool),
              (ledger.recordAccess id requests hot relocated).temperatures = ledger.temperatures ∧
                (ledger.recordAccess id requests hot relocated).banksPerVault =
                  ledger.banksPerVault := by
            intro ledger id requests hot relocated
            cases hot <;> cases relocated <;> exact ⟨rfl, rfl⟩
          exact ⟨(kept ..).2.trans h.banks, (congrArg Array.size (kept ..).1).trans h.size⟩
  | runEpoch => exact h.nextEpoch.frame (changes_frame (runEpoch_changes sound))
  | settle => exact ⟨h.banks, h.size⟩
  | resetCounts => exact ⟨h.banks, h.size⟩

theorem Measured.run (h : l.Measured) (sound : l.Sound) (ops : List Operation) :
    (l.run ops).Measured := by
  induction ops generalizing l with
  | nil => exact h
  | cons op ops ih => exact ih (h.perform sound op) (perform_sound sound op)

/-- In every run, the ledger has a reading for each bank. -/
theorem run_measured (s : RelocationSettings) (g : Geometry) (ops : List Operation) :
    ((ofSettings s g).run ops).Measured :=
  (ofSettings_measured s g).run (ofSettings_sound s g) ops

end Layer

end StackedCache
