import StackedCache.Proofs.Relocation.Pairs
import StackedCache.Proofs.Relocation.Scope

/-!
# Stacks that stay cool

A layer is calm if nothing has happened to it: everything is at home and in use, all data is valid,
and no reading of a bank was high.  An epoch finds nothing to do then, as long as no mean of a vault
is high either: `Calm.runEpoch`.

Means may be no numbers although all readings are, since sums of floats overflow.  A vault with such
a mean counts as hot where vaults change place, and then has to find no cool partner.
-/

namespace StackedCache

/-- Nothing has happened to a bank or vault. -/
structure Entry.AtRest (e : Entry) : Prop where
  used : e.disabled = false
  valid : e.contentValid = true
  rows : e.migratedRows = []

/-- No vault is hot by its mean, and one whose mean is no number finds no partner. -/
structure Ledger.Temperate (s : RelocationSettings) (g : Geometry) (l : Ledger) : Prop where
  means : ∀ v < g.vaults, (l.vaultTemperature v).reaches s.high = false
  partners : s.policy = .swap → s.interVault = true → ∀ v < g.vaults, ∀ w < g.vaults, w ≠ v →
    (l.vaultTemperature v).isNaN = true → (l.vaultTemperature w).below s.cool = false

namespace Layer

variable {s : RelocationSettings} {g : Geometry} {l : Layer} {id v : Nat}

/-- Nothing has happened to the banks and vaults, and no bank is or was hot. -/
structure Calm (s : RelocationSettings) (g : Geometry) (l : Layer) : Prop where
  settings : l.settings = s
  mapping : l.mapping = .identity g
  banks : ∀ entry ∈ l.banks, entry.AtRest
  vaults : ∀ entry ∈ l.vaults, entry.AtRest
  size : l.ledger.temperatures.size = g.totalBanks
  cool : ∀ t ∈ l.ledger.temperatures, t.below s.high = true

/-- An epoch changes nothing but numbers that count epochs and failures. -/
def Uneventful (l : Layer) : Prop :=
  l.runEpoch.1.changed = false ∧
    ∃ counts, l.runEpoch.2 = { l with epoch := l.epoch + 1, counts := counts }

namespace Calm

/-! ## What a calm layer answers -/

theorem geometry (h : l.Calm s g) : l.geometry = g := congrArg Mapping.geometry h.mapping

theorem bankDisabled (h : l.Calm s g) (id : Nat) : l.bankDisabled id = false := by
  unfold Layer.bankDisabled bank?
  cases found : l.banks[id]? with
  | none => rfl
  | some entry => exact (h.banks entry (Array.mem_of_getElem? found)).used

theorem vaultDisabled (h : l.Calm s g) (v : Nat) : l.vaultDisabled v = false := by
  unfold Layer.vaultDisabled vault?
  cases found : l.vaults[v]? with
  | none => rfl
  | some entry => exact (h.vaults entry (Array.mem_of_getElem? found)).used

theorem slotOf (h : l.Calm s g) (range : id < g.totalBanks) : l.mapping.slotOf id = id := by
  rw [h.mapping]
  exact Mapping.slotOf_of_identity rfl range

/-- Every bank reads a number below the high one. -/
theorem temperatureOf (h : l.Calm s g) (range : id < g.totalBanks) :
    (l.temperatureOf id).below s.high = true := by
  rw [Layer.temperatureOf, h.mapping, Mapping.physicalOf_identity range, Ledger.temperature]
  have found := Array.getElem?_eq_getElem (h.size ▸ range)
  rw [found]
  exact h.cool _ (Array.mem_of_getElem? found)

theorem fixes_slot (h : l.Calm s g) (range : id < g.totalBanks) :
    l.mapping.banks.fixes (l.mapping.slotOf id) = true := by
  rw [h.slotOf range, h.mapping, Permutation.fixes_iff]
  exact Permutation.identity_target? range

theorem target_vault (h : l.Calm s g) (range : v < g.vaults) :
    l.mapping.vaults.target? v = some v := by
  rw [h.mapping]
  exact Permutation.identity_target? range

end Calm

end Layer

/-! ## Turns -/

namespace Epoch

open Layer

variable {s : RelocationSettings} {g : Geometry} {e e' : Epoch} {id v : Nat}

/-- What was decided, if anything, changes nothing. -/
structure Uneventful (e e' : Epoch) : Prop where
  layer : e'.layer = e.layer
  report : e'.report.changed = e.report.changed

theorem Uneventful.of_eq (same : e' = e) : e.Uneventful e' := same ▸ ⟨rfl, rfl⟩

theorem switchBank_calm (h : e.layer.Calm s g) (range : id < g.totalBanks) :
    e.switchBank id = e := by
  have cool := Celsius.reaches_of_below (h.temperatureOf range)
  rw [switchBank, h.bankDisabled, h.settings, cool]
  rfl

theorem switchVault_calm (h : e.layer.Calm s g) (mild : e.layer.ledger.Temperate s g)
    (range : v < g.vaults) : e.switchVault v = e := by
  have here : e.vaultTemperatureOf v = e.layer.ledger.vaultTemperature v := by
    rw [vaultTemperatureOf, h.target_vault range]
    rfl
  rw [switchVault, h.vaultDisabled, here, h.settings, mild.means v range]
  rfl

theorem recoverBank_calm (h : e.layer.Calm s g) (range : id < g.totalBanks) :
    e.recoverBank id = e := by
  have home : e.bankMayGoHome id = false := by
    simp only [bankMayGoHome, h.fixes_slot range, Bool.not_true, Bool.false_and]
  simp only [recoverBank, h.bankDisabled, home, Bool.false_eq_true, if_false, ite_self]

theorem recoverVault_calm (h : e.layer.Calm s g) (range : v < g.vaults) :
    e.recoverVault v = e := by
  have fixes : e.layer.mapping.vaults.fixes v = true :=
    Permutation.fixes_iff.2 (h.target_vault range)
  have home : e.vaultMayGoHome v = false := by
    simp only [vaultMayGoHome, fixes, Bool.not_true, Bool.false_and]
  rw [recoverVault, home]
  rfl

theorem relieveBank_calm (h : e.layer.Calm s g) (relief : Relief) (range : id < g.totalBanks) :
    relieveBank relief e id = e := by
  have content : e.bankNeedsRelief id = false := by
    simp only [bankNeedsRelief, h.settings, h.temperatureOf range, Bool.not_true, Bool.and_false]
  rw [relieveBank, content]
  rfl

/-- Without redirections there is nothing to return. -/
theorem recoverRows_calm (h : e.layer.Calm s g) : e.recoverRows = e := by
  have rows : e.layer.mapping.rows = [] := congrArg Mapping.rows h.mapping
  have kept : e.dropIdentities = e := by
    simp only [dropIdentities, withMapping, rows, List.filter_nil]
    rw [← rows]
  simp only [recoverRows, rows, Table.keys, List.map_nil, List.foldl_nil, kept, reporting,
    List.append_nil]

/-- A vault counts as hot if its mean is no number, but finds no partner then. -/
theorem relieveVault_calm (h : e.layer.Calm s g) (valid : s.Valid)
    (mild : e.layer.ledger.Temperate s g) (policy : s.policy = .swap) (scope : s.interVault = true)
    (range : v < g.vaults) : e.Uneventful (e.relieveVault v) := by
  have high := Celsius.isNaN_of_isFinite (valid.finite s.high List.mem_cons_self)
  unfold relieveVault
  split
  · rename_i needy
    -- The mean is not below the high temperature, but does not reach it either.
    have number : (e.layer.ledger.vaultTemperature v).isNaN = true := by
      by_contra number
      have below := Celsius.below_of_not_reaches (by simpa using number) high (mild.means v range)
      simp [vaultNeedsRelief, h.settings, below] at needy
    cases found : e.vaultTarget? v with
    | none => exact ⟨rfl, rfl⟩
    | some target =>
        have chosen := List.mem_filter.1 (Celsius.coolest?_mem found)
        have other := List.mem_range.1 chosen.1
        rw [h.geometry] at other
        have eligible := chosen.2
        simp only [vaultEligible, Bool.and_eq_true, decide_eq_true_iff, h.settings] at eligible
        have warm := mild.partners policy scope v range target other eligible.1.1 number
        rw [warm] at eligible
        cases eligible.1.2
  · exact .of_eq rfl

/-- No turn finds anything to do. -/
theorem take_calm (h : e.layer.Calm s g) (valid : s.Valid) (mild : e.layer.ledger.Temperate s g)
    {t : Turn} (member : t ∈ s.turns g) : e.Uneventful (e.take t) := by
  have within := RelocationSettings.turns_within member
  -- By the kinds of turns that the settings permit.
  cases RelocationSettings.permits_of_mem member with
  | switchBank id _ => exact .of_eq (switchBank_calm h within)
  | switchVault v _ => exact .of_eq (switchVault_calm h mild within)
  | recoverBank id _ => exact .of_eq (recoverBank_calm h within)
  | recoverVault v _ _ => exact .of_eq (recoverVault_calm h within)
  | relieveVault v policy scope => exact relieveVault_calm h valid mild policy scope within
  | swapBank id _ => exact .of_eq (relieveBank_calm h .swapping within)
  | migrateRows id _ => exact .of_eq (relieveBank_calm h .migrating within)
  | recoverRows _ => exact .of_eq (recoverRows_calm h)

theorem takeAll_calm (valid : s.Valid) {turns : List Turn} (member : ∀ t ∈ turns, t ∈ s.turns g)
    (h : e.layer.Calm s g) (mild : e.layer.ledger.Temperate s g) :
    e.Uneventful (e.takeAll turns) := by
  induction turns generalizing e with
  | nil => exact .of_eq rfl
  | cons t turns ih =>
      have first := take_calm h valid mild (member t List.mem_cons_self)
      have rest := ih (fun u hu => member u (List.mem_cons_of_mem _ hu)) (e := e.take t)
        (first.layer ▸ h) (first.layer ▸ mild)
      exact ⟨rest.layer.trans first.layer, rest.report.trans first.report⟩

end Epoch

/-! ## Epochs and other operations -/

namespace Layer

variable {s : RelocationSettings} {g : Geometry} {l l' : Layer}

/-- Nothing is done where relocation is switched off. -/
theorem uneventful_of_off (off : l.settings.enabled = false) : l.Uneventful := by
  have skipped : l.runEpoch = (l.nextEpoch.report, l.nextEpoch.layer) := by
    simp only [runEpoch, off, Bool.false_eq_true, if_false]
  rw [Uneventful, skipped]
  exact ⟨rfl, _, rfl⟩

namespace Calm

/-- An epoch finds nothing to do. -/
theorem uneventful (h : l.Calm s g) (sound : l.Sound) (valid : s.Valid)
    (mild : l.ledger.Temperate s g) : l.Uneventful := by
  cases enabled : s.enabled with
  | false => exact uneventful_of_off (h.settings ▸ enabled)
  | true =>
      -- The turns leave the layer as the start of the epoch has made it.
      have start : l.nextEpoch.layer.Calm s g :=
        ⟨h.settings, h.mapping, h.banks, h.vaults, h.size, h.cool⟩
      have done := Epoch.takeAll_calm valid (fun _ member => member) start mild
      have geometry : l.nextEpoch.layer.geometry = g := h.geometry
      have ends : l.runEpoch =
          ((l.nextEpoch.takeAll (s.turns g)).countFailures.report,
            (l.nextEpoch.takeAll (s.turns g)).countFailures.layer) := by
        simp only [runEpoch, enabled, if_true, h.settings, Epoch.apply_eq (nextEpoch_sound sound),
          geometry]
      rw [Uneventful, ends]
      refine ⟨done.report, ?_⟩
      simp only [Epoch.countFailures, Epoch.counting, done.layer]
      exact ⟨_, rfl⟩

theorem runEpoch (h : l.Calm s g) (quiet : l.Uneventful) : l.runEpoch.2.Calm s g := by
  rcases quiet.2 with ⟨counts, ends⟩
  rw [ends]
  exact ⟨h.settings, h.mapping, h.banks, h.vaults, h.size, h.cool⟩

/-- A cool reading, or one of a bank that does not exist, leaves the layer calm. -/
theorem setTemperature (h : l.Calm s g) {p : BankPlace} {t : Celsius}
    (cool : g.holds p = true → t.below s.high = true) :
    (l.perform (.setTemperature p t)).Calm s g := by
  simp only [perform, Layer.setTemperature, bankId?, h.geometry]
  cases held : g.holds p with
  | false => exact h
  | true =>
      refine ⟨h.settings, h.mapping, h.banks, h.vaults, ?_, ?_⟩
      · exact (Array.size_setIfInBounds ..).trans h.size
      · intro u member
        rcases Array.mem_or_eq_of_mem_setIfInBounds member with old | new
        · exact h.cool u old
        · exact new ▸ cool held

/-- Entries that count stay at rest. -/
theorem modified {entries : Array Entry} (rest : ∀ entry ∈ entries, entry.AtRest) (i row n : Nat) :
    ∀ entry ∈ entries.modify i (·.recordAccess row n), entry.AtRest := by
  intro entry member
  rcases Array.mem_iff_getElem?.1 member with ⟨j, found⟩
  rw [Array.getElem?_modify] at found
  split at found
  · rcases Option.map_eq_some_iff.1 found with ⟨old, there, rfl⟩
    have before := rest old (Array.mem_of_getElem? there)
    exact ⟨before.used, before.valid, before.rows⟩
  · exact rest entry (Array.mem_of_getElem? found)

theorem recordAccess (l : Layer) (row : Location) (n : Nat) (l' : Layer) (h : l.Calm s g)
    (recorded : l.recordAccess row n = .ok l') : l'.Calm s g := by
  unfold Layer.recordAccess bankId? at recorded
  split at recorded
  · cases recorded
    have temperatures : ∀ (ledger : Ledger) (id requests : Nat) (hot relocated : Bool),
        (ledger.recordAccess id requests hot relocated).temperatures = ledger.temperatures := by
      intro ledger id requests hot relocated
      cases hot <;> cases relocated <;> rfl
    refine ⟨h.settings, h.mapping, modified h.banks _ _ _, modified h.vaults _ _ _, ?_, ?_⟩
    · exact (congrArg Array.size (temperatures ..)).trans h.size
    · intro t member
      exact h.cool t (temperatures .. ▸ member)
  · cases recorded

/-- Changes of all entries that leave them at rest leave the layer calm. -/
theorem mapped {entries : Array Entry} (rest : ∀ entry ∈ entries, entry.AtRest) {f : Entry → Entry}
    (keeps : ∀ entry : Entry, entry.AtRest → (f entry).AtRest) :
    ∀ entry ∈ entries.map f, entry.AtRest := by
  intro entry member
  rcases Array.mem_map.1 member with ⟨old, there, rfl⟩
  exact keeps old (rest old there)

theorem resetCounts (h : l.Calm s g) : l.resetCounts.Calm s g := by
  have keeps : ∀ entry : Entry, entry.AtRest → entry.resetCounts.AtRest :=
    fun _ rest => ⟨rest.used, rest.valid, rest.rows⟩
  exact ⟨h.settings, h.mapping, mapped h.banks keeps, mapped h.vaults keeps, h.size, h.cool⟩

theorem settle (h : l.Calm s g) : l.settle.Calm s g := by
  have keeps : ∀ entry : Entry, entry.AtRest → entry.settle.AtRest :=
    fun _ rest => ⟨rest.used, rfl, rfl⟩
  exact ⟨h.settings, h.mapping, mapped h.banks keeps, mapped h.vaults keeps, h.size, h.cool⟩

end Calm

/-- A layer starts calm if its initial temperature is not high. -/
theorem ofSettings_calm (g : Geometry) (cool : s.initial.below s.high = true) :
    (ofSettings s g).Calm s g := by
  have rest : ∀ (n : Nat), ∀ entry ∈ (Array.range n).map (Entry.fresh s.hotRows.toNat),
      entry.AtRest := by
    intro n entry member
    rcases Array.mem_map.1 member with ⟨i, _, rfl⟩
    exact ⟨rfl, rfl, rfl⟩
  refine ⟨rfl, rfl, rest _, rest _, Array.size_replicate, ?_⟩
  intro t member
  rw [(Array.mem_replicate.1 member).2]
  exact cool

end Layer

end StackedCache
