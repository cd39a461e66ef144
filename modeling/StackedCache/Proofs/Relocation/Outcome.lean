import StackedCache.Proofs.Relocation.Aging

/-!
# How the turn of a bank ends

`Decision` lists what turns do; here the turns that recover and relieve one bank are taken apart the
other way round, with what is known when they decide nothing.  The turns of banks leave all vaults
alone, so where vaults have no turns none is ever out of use.
-/

namespace StackedCache

open Relation (ReflTransGen)

namespace Epoch

variable {e e' : Epoch} {id : Nat} {relief : Relief}

/-! ## Outcomes -/

/-- How the recovery of one bank ends. -/
inductive Recovery (e : Epoch) (id : Nat) : Epoch → Prop where
  /-- The bank is too warm to recover. -/
  | tooWarm (warm : (e.layer.temperatureOf id).reaches e.layer.settings.cool = true) :
      Recovery e id e
  /-- The bank is in use, and it cannot go home. -/
  | inUse (on : e.layer.bankDisabled id = false) : Recovery e id e
  | enabled (off : e.layer.bankDisabled id = true) : Recovery e id (e.enableBank id)
  | sentHome (on : e.layer.bankDisabled id = false)
      (cool : (e.layer.ledger.temperature (e.layer.mapping.slotOf id)).reaches
        e.layer.settings.cool = false) :
      Recovery e id (e.sendBankHome id)

theorem recoverBank_outcome (e : Epoch) (id : Nat) : Recovery e id (e.recoverBank id) := by
  unfold recoverBank
  split
  · exact .tooWarm ‹_›
  · split
    · exact .enabled ‹_›
    · rename_i on
      have on : e.layer.bankDisabled id = false := by simpa using on
      split
      · rename_i ready
        simp only [bankMayGoHome, Bool.and_eq_true, Bool.not_eq_true'] at ready
        exact .sentHome on ready.2
      · exact .inUse on

/-- How the relief of one bank ends. -/
inductive Relieving (e : Epoch) (id : Nat) : Relief → Epoch → Prop where
  | notNeeded {relief : Relief} (calm : e.bankNeedsRelief id = false) : Relieving e id relief e
  /-- The bank gets no relief, and bears it. -/
  | borne {relief : Relief} {e' : Epoch} (noted : e' = e ∨ e' = e.failBank id)
      (needy : e.bankNeedsRelief id = true)
      (mild : (e.layer.temperatureOf id).reaches e.layer.settings.dangerous = false) :
      Relieving e id relief e'
  /-- The bank gets no relief, and is dangerously hot. -/
  | givenUp {relief : Relief} {e' : Epoch} (noted : e' = e ∨ e' = e.failBank id)
      (needy : e.bankNeedsRelief id = true)
      (dangerous : (e.layer.temperatureOf id).reaches e.layer.settings.dangerous = true) :
      Relieving e id relief (e'.disableBank id (e.layer.mapping.displaced id))
  | swapped (target : Nat) (needy : e.bankNeedsRelief id = true)
      (home : e.layer.mapping.displaced id = false)
      (found : e.bankTarget? true (e.layer.mapping.physicalOf id) = some target) :
      Relieving e id .swapping (e.swapBanks id (e.layer.mapping.logicalOf target))
  | migrated (target : Nat) (needy : e.bankNeedsRelief id = true)
      (found : e.bankTarget? false (e.layer.mapping.physicalOf id) = some target) :
      Relieving e id .migrating
        (e.migrateRows id (e.layer.mapping.logicalOf target) (e.layer.mapping.physicalOf id) target
          (e.rowsToMove id))

/-- An attempt at relief fails, which may be reported, or it moves data. -/
theorem attemptRelief_cases (e : Epoch) (relief : Relief) (id : Nat)
    (needy : e.bankNeedsRelief id = true) :
    (∃ e', (e' = e ∨ e' = e.failBank id) ∧ e.attemptRelief relief id = (false, e')) ∨
      ∃ e', Relieving e id relief e' ∧ e.attemptRelief relief id = (true, e') := by
  unfold attemptRelief
  cases relief with
  | swapping =>
      cases home : e.layer.mapping.displaced id with
      | true => exact .inl ⟨e, .inl rfl, rfl⟩
      | false =>
          cases found : e.bankTarget? true (e.layer.mapping.physicalOf id) with
          | none => exact .inl ⟨_, .inr rfl, by simp [found]⟩
          | some target => exact .inr ⟨_, .swapped target needy home found, by simp [found]⟩
  | migrating =>
      cases found : e.bankTarget? false (e.layer.mapping.physicalOf id) with
      | none => exact .inl ⟨_, .inr rfl, by simp [found]⟩
      | some target =>
          by_cases rows : e.rowsToMove id = []
          · exact .inl ⟨e, .inl rfl, by simp [found, rows]⟩
          · exact .inr ⟨_, .migrated target needy found, by simp [found, rows]⟩

theorem relieveBank_outcome (relief : Relief) (e : Epoch) (id : Nat) :
    Relieving e id relief (relieveBank relief e id) := by
  unfold relieveBank
  split
  · rename_i needy
    rcases attemptRelief_cases e relief id needy with ⟨e', noted, failed⟩ | ⟨e', moved, relieved⟩
    · simp only [failed]
      split
      · rename_i hot
        simp only [Bool.not_false, Bool.true_and] at hot
        exact .givenUp noted needy hot
      · rename_i mild
        exact .borne noted needy (by simpa using mild)
    · simpa only [relieved, Bool.not_true, Bool.false_and, Bool.false_eq_true, if_false] using moved
  · rename_i calm
    exact .notNeeded (by simpa using calm)

/-! ## Layers after an outcome -/

/-- Noting a failure leaves the layer alone. -/
theorem layer_of_noted (noted : e' = e ∨ e' = e.failBank id) : e'.layer = e.layer := by
  rcases noted with rfl | rfl
  · rfl
  · rfl

theorem disableBank_layer (e : Epoch) (id : Nat) (double : Bool) :
    ∃ c, (e.disableBank id double).layer =
      (e.layer.modifyBank id (·.disable double)).withCounts c := by
  unfold disableBank
  split <;> exact ⟨_, rfl⟩

end Epoch

/-! ## What decisions do to one bank -/

namespace Layer

variable {l l' : Layer} {id i a b : Nat} {f : Entry → Entry} {q : Permutation}

theorem bankDisabled_modifyBank (hf : ∀ e : Entry, (f e).disabled = e.disabled) (l : Layer)
    (i id : Nat) : (l.modifyBank i f).bankDisabled id = l.bankDisabled id := by
  simp only [bankDisabled, bank?_modifyBank]
  split
  · cases l.bank? id <;> simp [hf]
  · rfl

theorem bankDisabled_modifyBank_ne (hne : id ≠ i) :
    (l.modifyBank i f).bankDisabled id = l.bankDisabled id := by
  simp only [bankDisabled, bank?_modifyBank, if_neg (Ne.symm hne)]

theorem bankDisabled_disable (h : l.Sound) (hid : id < l.geometry.totalBanks) (double : Bool) :
    (l.modifyBank id (·.disable double)).bankDisabled id = true := by
  rcases h.exists_bank hid with ⟨entry, hentry⟩
  simp [bankDisabled, bank?_modifyBank, hentry, Entry.disable, Entry.invalidate]

theorem bankDisabled_enable (l : Layer) (id : Nat) :
    (l.modifyBank id Entry.enable).bankDisabled id = false := by
  simp only [bankDisabled, bank?_modifyBank, if_true]
  cases l.bank? id <;> simp [Entry.enable]

/-- A bank that has moved now is in its cooldown. -/
theorem bankFrozen_modifyBank (h : l.Sound) (hid : id < l.geometry.totalBanks)
    (hf : ∀ e : Entry, (f e).movedAt = some l.epoch) :
    (l.modifyBank id f).bankFrozen id = true := by
  rcases h.exists_bank hid with ⟨entry, hentry⟩
  have same : (l.modifyBank id f).bankFrozen id = l.frozen ((l.modifyBank id f).bank? id) := rfl
  rw [same, bank?_modifyBank, if_pos rfl, hentry]
  simp [Layer.frozen, Entry.frozen, hf]

theorem bankFrozen_bankMoved (h : l.Sound) (hid : id < l.geometry.totalBanks) :
    (l.bankMoved id).bankFrozen id = true :=
  bankFrozen_modifyBank h hid fun _ => rfl

theorem bankFrozen_withCounts (l : Layer) (c : RelocationCounts) (id : Nat) :
    (l.withCounts c).bankFrozen id = l.bankFrozen id := rfl

/-- Two banks that have moved now are in their cooldown. -/
theorem bankFrozen_banksMoved (h : l.Sound) (a_lt : a < l.geometry.totalBanks)
    (b_lt : b < l.geometry.totalBanks) (moved : id = a ∨ id = b) :
    ((l.bankMoved a).bankMoved b).bankFrozen id = true := by
  -- The mark of the first bank is kept when the second one is marked.
  rcases moved with rfl | rfl
  · exact (Ages.bankMoved _ b).bankFrozen ⟨rfl, rfl, rfl, rfl⟩ (bankFrozen_bankMoved h a_lt)
  · have first : (l.bankMoved a).Sound := h.bankMoved
    exact bankFrozen_bankMoved first b_lt

section Exchange

variable (h : l.Sound) (a_lt : a < l.geometry.totalBanks) (b_lt : b < l.geometry.totalBanks)
  (swap : l.mapping.banks.swap? (l.mapping.slotOf a) (l.mapping.slotOf b) = some q)
  (c : RelocationCounts)

include h a_lt b_lt swap

/-- Two banks that exchange their slots exchange their temperatures. -/
theorem temperatureOf_exchangeBanks (id : Nat) :
    let l' := (((l.withMapping { l.mapping with banks := q }).bankMoved a).bankMoved b).withCounts c
    l'.temperatureOf id =
      if id = b then l.temperatureOf a else if id = a then l.temperatureOf b
      else l.temperatureOf id := by
  intro l'
  have physical := h.mapping.physicalOf_swapBanks a_lt b_lt swap id
  have same : l'.temperatureOf id =
      l.ledger.temperature (({ l.mapping with banks := q } : Mapping).physicalOf id) := rfl
  rw [same, physical]
  simp only [temperatureOf, apply_ite l.ledger.temperature]

/-- Two banks that exchange their slots are in their cooldown. -/
theorem bankFrozen_exchangeBanks (moved : id = a ∨ id = b) :
    let l' := (((l.withMapping { l.mapping with banks := q }).bankMoved a).bankMoved b).withCounts c
    l'.bankFrozen id = true := by
  intro l'
  have hq : q.Inverse l.geometry.totalBanks := h.mapping.banks.swap? swap
  have sound := h.withMapping (h.mapping.withBanks hq) rfl
  exact (bankFrozen_withCounts _ c id).trans (bankFrozen_banksMoved sound a_lt b_lt moved)

end Exchange

theorem bankDisabled_exchangeBanks (l : Layer) (q : Permutation) (a b : Nat)
    (c : RelocationCounts) (id : Nat) :
    ((((l.withMapping { l.mapping with banks := q }).bankMoved a).bankMoved b).withCounts
      c).bankDisabled id = l.bankDisabled id := by
  have first := bankDisabled_modifyBank (f := fun entry => entry.invalidate.markMoved l.epoch)
    (fun _ => rfl) (l.withMapping { l.mapping with banks := q }) a id
  have second := bankDisabled_modifyBank (f := fun entry => entry.invalidate.markMoved l.epoch)
    (fun _ => rfl) ((l.withMapping { l.mapping with banks := q }).bankMoved a) b id
  exact second.trans first

/-! ### Rows -/

theorem RowChange.physicalOf (step : RowChange l l') :
    l'.mapping.physicalOf = l.mapping.physicalOf := by
  cases step <;> rfl

theorem RowChange.bankDisabled (step : RowChange l l') (id : Nat) :
    l'.bankDisabled id = l.bankDisabled id := by
  have migrated : ∀ (row : Nat) (e : Entry), (e.migrateRow row).disabled = e.disabled := by
    intro row e
    unfold Entry.migrateRow
    split <;> rfl
  cases step with
  | counts c => rfl
  | exchange row x y q x_lt y_lt swap =>
      have first := bankDisabled_modifyBank (migrated row)
        (l.withMapping { l.mapping with rows := l.mapping.rows.insert row q })
        (l.mapping.logicalOf x) id
      exact (bankDisabled_modifyBank (migrated row) _ (l.mapping.logicalOf y) id).trans first
  | markMoved i => exact bankDisabled_modifyBank (f := (·.markMoved l.epoch)) (fun _ => rfl) l i id
  | dropIdentities => rfl

theorem rows_physicalOf (steps : ReflTransGen RowChange l l') :
    l'.mapping.physicalOf = l.mapping.physicalOf := by
  induction steps with
  | refl => rfl
  | tail _ step ih => exact step.physicalOf.trans ih

/-- Moves of rows change neither temperatures nor states of banks. -/
theorem rows_kept (steps : ReflTransGen RowChange l l') (id : Nat) :
    l'.temperatureOf id = l.temperatureOf id ∧ l'.bankDisabled id = l.bankDisabled id := by
  constructor
  · rw [temperatureOf, temperatureOf, rows_physicalOf steps, (Change.rows steps).frame.ledger]
  · induction steps with
    | refl => rfl
    | tail _ step ih => exact (step.bankDisabled id).trans ih

end Layer

/-! ## What turns do to one bank -/

namespace Epoch

open Layer

variable {e e' : Epoch} {t : Turn} {id other : Nat} {relief : Relief}

/-- A bank that needs relief is in use. -/
theorem bankDisabled_of_needy (needy : e.bankNeedsRelief id = true) :
    e.layer.bankDisabled id = false := by
  simp only [bankNeedsRelief, idDisabled, Bool.and_eq_true, Bool.not_eq_true',
    Bool.or_eq_false_iff] at needy
  exact needy.1.1.1.1

/-- The owner of a target is in use. -/
theorem bankDisabled_of_target {atHome : Bool} {hot target : Nat}
    (found : e.bankTarget? atHome hot = some target) :
    e.layer.bankDisabled (e.layer.mapping.logicalOf target) = false := by
  have eligible := (List.mem_filter.1 (Celsius.coolest?_mem found)).2
  simp only [bankEligible, idDisabled, Bool.and_eq_true, Bool.not_eq_true', Bool.or_eq_false_iff]
    at eligible
  exact eligible.1.1.2.1

/-! ### Reports -/

theorem disableBank_report (e : Epoch) (id : Nat) (double : Bool) :
    (e.disableBank id double).report =
      { e.report with disabledBanks := e.report.disabledBanks ++ [e.place id] } := by
  unfold disableBank
  split <;> rfl

theorem sendBankHome_report (e : Epoch) (id : Nat) :
    ∃ banks, (e.sendBankHome id).report = { e.report with recoveredBanks := banks } := by
  unfold sendBankHome
  dsimp only
  split
  · exact ⟨_, rfl⟩
  · split
    · exact ⟨_, rfl⟩
    · split
      · exact ⟨_, rfl⟩
      · exact ⟨_, rfl⟩

theorem recoverBank_report (e : Epoch) (id : Nat) :
    ∃ banks, (e.recoverBank id).report = { e.report with recoveredBanks := banks } := by
  have outcome := recoverBank_outcome e id
  generalize e.recoverBank id = e' at outcome
  cases outcome with
  | tooWarm warm => exact ⟨_, rfl⟩
  | inUse on => exact ⟨_, rfl⟩
  | enabled off => exact ⟨_, rfl⟩
  | sentHome on cool => exact sendBankHome_report e id

theorem recoverVault_report (e : Epoch) (v : Nat) :
    ∃ vaults, (e.recoverVault v).report = { e.report with recoveredVaults := vaults } := by
  unfold recoverVault
  split
  · unfold sendVaultHome
    dsimp only
    split
    · exact ⟨_, rfl⟩
    · split
      · exact ⟨_, rfl⟩
      · split
        · exact ⟨_, rfl⟩
        · exact ⟨_, rfl⟩
  · exact ⟨_, rfl⟩

/-! ### Other banks -/

/-- The switch of a bank concerns no other bank. -/
theorem switchBank_other (e : Epoch) (ne : other ≠ id) :
    (e.switchBank id).layer.temperatureOf other = e.layer.temperatureOf other ∧
      (e.switchBank id).layer.bankDisabled other = e.layer.bankDisabled other ∧
      (e.switchBank id).layer.vaults = e.layer.vaults := by
  unfold switchBank
  dsimp only
  split
  · split
    · exact ⟨rfl, bankDisabled_modifyBank_ne ne, rfl⟩
    · exact ⟨rfl, rfl, rfl⟩
  · split
    · rcases disableBank_layer e id false with ⟨c, disabled⟩
      rw [disabled]
      exact ⟨rfl, bankDisabled_modifyBank_ne ne, rfl⟩
    · exact ⟨rfl, rfl, rfl⟩

/-- Two banks that exchange rows are in their cooldown. -/
theorem migrateRows_frozen {target : Nat} (h : e.layer.Sound)
    (range : id < e.layer.geometry.totalBanks)
    (found : e.bankTarget? false (e.layer.mapping.physicalOf id) = some target) (rows : List Nat)
    (moved : other = id ∨ other = e.layer.mapping.logicalOf target) :
    (e.migrateRows id (e.layer.mapping.logicalOf target) (e.layer.mapping.physicalOf id) target
      rows).layer.bankFrozen other = true := by
  have physical_lt := h.mapping.physicalOf_lt range
  have target_lt := (bankTarget?_range found physical_lt).1
  have exchanged := through_exchangeRow_change rows h physical_lt target_lt
    (h.mapping.logicalOf_physicalOf id) rfl
  have frame := (Change.rows exchanged).frame
  have sound := (Change.rows exchanged).sound h
  have partner_lt : e.layer.mapping.logicalOf target < e.layer.geometry.totalBanks :=
    h.mapping.logicalOf_lt target_lt
  -- The rows are exchanged first, and then both banks are marked.
  rw [← frame.geometry] at range partner_lt
  rcases moved with rfl | rfl
  · have first := bankFrozen_modifyBank sound range (f := (·.markMoved _)) fun entry => rfl
    exact (Ages.modifyBank _ _ Entry.ages_markMoved).bankFrozen ⟨rfl, rfl, rfl, rfl⟩ first
  · exact bankFrozen_modifyBank (f := (·.markMoved _)) sound.modifyBank partner_lt fun entry => rfl

/-! ## Vaults -/

end Epoch

/-- A turn that leaves the vaults alone. -/
def Turn.OfBanks : Turn → Prop
  | switchBank _ | recoverBank _ | relieveBank _ _ | recoverRows => True
  | switchVault _ | recoverVault _ | relieveVault _ => False

namespace Epoch

variable {e e' : Epoch} {t : Turn}

theorem returnRow_vaults (row home : Nat) (r : RowReturn) :
    (returnRow row r home).epoch.layer.vaults = r.epoch.layer.vaults := by
  rcases returnRow_cases r row home with same | ⟨_, _, _, _, _, _, moved⟩
  · rw [same]
  · rw [moved]
    rfl

theorem RowStep.vaults (step : RowStep e e') : e'.layer.vaults = e.layer.vaults := by
  cases step with
  | returnRow row home owners => exact returnRow_vaults row home ⟨e, owners⟩
  | dropIdentities => rfl
  | report f => rfl

theorem recoverRows_vaults (e : Epoch) : e.recoverRows.layer.vaults = e.layer.vaults := by
  have steps := recoverRows_steps e
  generalize e.recoverRows = e' at steps ⊢
  induction steps with
  | refl => rfl
  | tail _ step ih => exact step.vaults.trans ih

theorem exchangeRow_vaults (id partner physical target : Nat) (e : Epoch) (row : Nat) :
    (exchangeRow id partner physical target e row).layer.vaults = e.layer.vaults := by
  unfold exchangeRow
  dsimp only
  split <;> rfl

theorem migrateRows_vaults (e : Epoch) (id partner physical target : Nat) (rows : List Nat) :
    (e.migrateRows id partner physical target rows).layer.vaults = e.layer.vaults := by
  have exchanged : (e.through rows (exchangeRow id partner physical target)).layer.vaults =
      e.layer.vaults := by
    induction rows generalizing e with
    | nil => rfl
    | cons row rows ih => exact (ih _).trans (exchangeRow_vaults id partner physical target e row)
  exact exchanged

theorem disableBank_vaults (e : Epoch) (id : Nat) (double : Bool) :
    (e.disableBank id double).layer.vaults = e.layer.vaults := by
  rcases disableBank_layer e id double with ⟨c, disabled⟩
  rw [disabled]
  rfl

theorem recoverBank_vaults (e : Epoch) (id : Nat) :
    (e.recoverBank id).layer.vaults = e.layer.vaults := by
  have outcome := recoverBank_outcome e id
  generalize e.recoverBank id = e' at outcome
  cases outcome with
  | tooWarm warm => rfl
  | inUse on => rfl
  | enabled off => rfl
  | sentHome on cool =>
      unfold sendBankHome
      dsimp only
      split
      · rfl
      · split
        · rfl
        · split <;> rfl

theorem relieveBank_vaults (relief : Relief) (e : Epoch) (id : Nat) :
    (relieveBank relief e id).layer.vaults = e.layer.vaults := by
  have outcome := relieveBank_outcome relief e id
  generalize relieveBank relief e id = e' at outcome
  cases outcome with
  | notNeeded calm => rfl
  | borne noted needy mild => rw [layer_of_noted noted]
  | givenUp noted needy dangerous => rw [disableBank_vaults, layer_of_noted noted]
  | swapped target needy home found =>
      unfold swapBanks
      dsimp only
      split <;> rfl
  | migrated target needy found => exact migrateRows_vaults e id _ _ target _

theorem take_vaults (e : Epoch) (h : t.OfBanks) : (e.take t).layer.vaults = e.layer.vaults := by
  cases t with
  | switchBank id =>
      simp only [take, switchBank]
      split
      · split <;> rfl
      · split
        · exact disableBank_vaults e id false
        · rfl
  | recoverBank id => exact recoverBank_vaults e id
  | relieveBank relief id => exact relieveBank_vaults relief e id
  | recoverRows => exact recoverRows_vaults e
  | switchVault v => cases h
  | recoverVault v => cases h
  | relieveVault v => cases h

end Epoch

end StackedCache
