import StackedCache.Proofs.Relocation.Reach
import StackedCache.Proofs.Step

/-!
# Relocation layers that differ in what they have counted

Forgetting all counts, `Layer.resetCounts`, forgets the counts of used rows as well.  Apart from
those, nothing that is counted decides what is done: a request finds the same places, and an epoch
takes the same decisions.  Counts of rows decide which rows a hot bank has moved, so only an epoch
that moves rows to relieve a bank is excepted.
-/

namespace StackedCache

/-! ## Entries -/

namespace Entry

theorem resetCounts_enable (e : Entry) : e.enable.resetCounts = e.resetCounts.enable := rfl

theorem resetCounts_disable (double : Bool) (e : Entry) :
    (e.disable double).resetCounts = e.resetCounts.disable double := rfl

theorem resetCounts_invalidate (e : Entry) : e.invalidate.resetCounts = e.resetCounts.invalidate :=
  rfl

theorem resetCounts_markMoved (epoch : Nat) (e : Entry) :
    (e.markMoved epoch).resetCounts = e.resetCounts.markMoved epoch := rfl

theorem resetCounts_migrateRow (row : Nat) (e : Entry) :
    (e.migrateRow row).resetCounts = e.resetCounts.migrateRow row := by
  unfold migrateRow
  cases valid : e.contentValid <;> simp [resetCounts, valid]

theorem resetCounts_recordAccess (row n : Nat) (e : Entry) :
    (e.recordAccess row n).resetCounts = e.resetCounts := by
  unfold recordAccess HotRows.record
  split
  · rfl
  · split <;> rfl

end Entry

/-! ## Layers -/

theorem map_modify {α : Type} (xs : Array α) (i : Nat) {f g : α → α} (hf : ∀ x, g (f x) = f (g x)) :
    (xs.modify i f).map g = (xs.map g).modify i f := by
  apply Array.ext_getElem?
  intro j
  rw [Array.getElem?_map, Array.getElem?_modify, Array.getElem?_modify, Array.getElem?_map]
  split
  · simp only [Option.map_map]
    congr 1
    exact funext hf
  · rfl

/-- A change that the images do not show. -/
theorem map_modify_self {α : Type} (xs : Array α) (i : Nat) {f g : α → α}
    (hf : ∀ x, g (f x) = g x) :
    (xs.modify i f).map g = xs.map g := by
  apply Array.ext_getElem?
  intro j
  rw [Array.getElem?_map, Array.getElem?_modify, Array.getElem?_map]
  split
  · rw [Option.map_map]
    congr 1
    exact funext hf
  · rfl

/-- What is recorded is forgotten. -/
theorem Ledger.resetCounts_recordAccess (l : Ledger) (id n : Nat) (hot relocated : Bool) :
    (l.recordAccess id n hot relocated).resetCounts = l.resetCounts := by
  have added : ∀ counts : Array Nat, (addTo counts id n).map (fun _ => 0) =
      counts.map fun _ => 0 := fun counts => map_modify_self counts id fun _ => rfl
  cases hot <;> cases relocated <;>
    simp only [recordAccess, resetCounts, Bool.false_eq_true, if_true, if_false, added]

namespace Layer

variable {l l' : Layer} {f : Entry → Entry}

@[simp] theorem bankDisabled_resetCounts (l : Layer) (id : Nat) :
    l.resetCounts.bankDisabled id = l.bankDisabled id := by
  simp only [bankDisabled, bank?_resetCounts, Option.any_map]
  rfl

@[simp] theorem vaultDisabled_resetCounts (l : Layer) (vault : Nat) :
    l.resetCounts.vaultDisabled vault = l.vaultDisabled vault := by
  simp only [vaultDisabled, vault?_resetCounts, Option.any_map]
  rfl

@[simp] theorem idDisabled_resetCounts (l : Layer) (id : Nat) :
    l.resetCounts.idDisabled id = l.idDisabled id := by
  simp only [idDisabled, bankDisabled_resetCounts, vaultDisabled_resetCounts]
  rfl

theorem disabled_resetCounts (l : Layer) (p : BankPlace) :
    l.resetCounts.disabled p = l.disabled p := by
  simp only [disabled, idDisabled_resetCounts]
  rfl

@[simp] theorem bankFrozen_resetCounts (l : Layer) (id : Nat) :
    l.resetCounts.bankFrozen id = l.bankFrozen id := by
  simp only [bankFrozen, frozen, bank?_resetCounts, Option.any_map]
  rfl

@[simp] theorem vaultFrozen_resetCounts (l : Layer) (vault : Nat) :
    l.resetCounts.vaultFrozen vault = l.vaultFrozen vault := by
  simp only [vaultFrozen, frozen, vault?_resetCounts, Option.any_map]
  rfl

theorem resetCounts_resetCounts (l : Layer) : l.resetCounts.resetCounts = l.resetCounts := by
  simp only [resetCounts, Ledger.resetCounts, Array.map_map]
  rfl

theorem resetCounts_modifyBank (l : Layer) (id : Nat)
    (hf : ∀ e, (f e).resetCounts = f e.resetCounts) :
    (l.modifyBank id f).resetCounts = l.resetCounts.modifyBank id f := by
  simp only [resetCounts, modifyBank, map_modify _ _ hf]

theorem resetCounts_modifyVault (l : Layer) (vault : Nat)
    (hf : ∀ e, (f e).resetCounts = f e.resetCounts) :
    (l.modifyVault vault f).resetCounts = l.resetCounts.modifyVault vault f := by
  simp only [resetCounts, modifyVault, map_modify _ _ hf]

theorem resetCounts_modifyBanks (l : Layer) (ids : List Nat)
    (hf : ∀ e, (f e).resetCounts = f e.resetCounts) :
    (l.modifyBanks ids f).resetCounts = l.resetCounts.modifyBanks ids f := by
  induction ids generalizing l with
  | nil => rfl
  | cons id ids ih =>
      have rest := ih (l.modifyBank id f)
      rw [resetCounts_modifyBank l id hf] at rest
      exact rest

/-- No bank of the layer is hot, so that none needs relief. -/
def Mild (l : Layer) : Prop :=
  ∀ id, id < l.geometry.totalBanks → (l.ledger.temperature id).below l.settings.high = true

instance (l : Layer) : Decidable l.Mild :=
  inferInstanceAs (Decidable (∀ id, id < l.geometry.totalBanks → _))

end Layer

/-! ## Decisions -/

namespace Epoch

variable {e : Epoch} {f : Entry → Entry}

/-- The epoch with a layer that has forgotten its counts. -/
def forget (e : Epoch) : Epoch := { e with layer := e.layer.resetCounts }

@[simp] theorem forget_layer (e : Epoch) : e.forget.layer = e.layer.resetCounts := rfl

@[simp] theorem forget_forget (e : Epoch) : e.forget.forget = e.forget :=
  congrArg (Epoch.mk · e.report) e.layer.resetCounts_resetCounts

@[simp] theorem forget_withMapping (e : Epoch) (m : Mapping) :
    (e.withMapping m).forget = e.forget.withMapping m := rfl

@[simp] theorem forget_counting (e : Epoch) (c : RelocationCounts → RelocationCounts) :
    (e.counting c).forget = e.forget := rfl

@[simp] theorem forget_reporting (e : Epoch) (r : Report → Report) :
    (e.reporting r).forget = e.forget.reporting r := rfl

theorem forget_modifyBank (e : Epoch) (id : Nat) (hf : ∀ e, (f e).resetCounts = f e.resetCounts) :
    (e.modifyBank id f).forget = e.forget.modifyBank id f :=
  congrArg (Epoch.mk · e.report) (e.layer.resetCounts_modifyBank id hf)

theorem forget_modifyVault (e : Epoch) (vault : Nat)
    (hf : ∀ e, (f e).resetCounts = f e.resetCounts) :
    (e.modifyVault vault f).forget = e.forget.modifyVault vault f :=
  congrArg (Epoch.mk · e.report) (e.layer.resetCounts_modifyVault vault hf)

/-- What is done is the same when the counts have been forgotten before. -/
def Blind (step : Epoch → Epoch) : Prop := ∀ e, (step e.forget).forget = (step e).forget

namespace Blind

variable {step step' : Epoch → Epoch}

theorem id : Blind fun e => e := forget_forget

theorem comp (second : Blind step') (first : Blind step) : Blind fun e => step' (step e) := by
  intro e
  calc
    (step' (step e.forget)).forget = (step' (step e.forget).forget).forget := (second _).symm
    _ = (step' (step e).forget).forget := by rw [first]
    _ = (step' (step e)).forget := second _

theorem ite {p : Epoch → Bool} (same : ∀ e, p e.forget = p e) (yes : Blind step)
    (no : Blind step') : Blind fun e => if p e then step e else step' e := by
  intro e
  simp only [same]
  cases p e with
  | true => exact yes e
  | false => exact no e

theorem modifyBank (id : Nat) (hf : ∀ e, (f e).resetCounts = f e.resetCounts) :
    Blind fun e => e.modifyBank id f := by
  intro e
  rw [forget_modifyBank _ id hf, forget_modifyBank _ id hf, forget_forget]

theorem modifyVault (vault : Nat) (hf : ∀ e, (f e).resetCounts = f e.resetCounts) :
    Blind fun e => e.modifyVault vault f := by
  intro e
  rw [forget_modifyVault _ vault hf, forget_modifyVault _ vault hf, forget_forget]

/-- The data of a vault's banks is given up. -/
theorem invalidateBanks (vault : Nat) : Blind fun e =>
    { e with
      layer := e.layer.modifyBanks (e.layer.geometry.bankIdsOf vault) Entry.invalidate } := by
  intro e
  refine congrArg (Epoch.mk · e.report) ?_
  have given := fun l : Layer =>
    l.resetCounts_modifyBanks (e.layer.geometry.bankIdsOf vault) Entry.resetCounts_invalidate
  calc
    _ = e.layer.resetCounts.resetCounts.modifyBanks _ Entry.invalidate := given _
    _ = e.layer.resetCounts.modifyBanks _ Entry.invalidate := by
      rw [Layer.resetCounts_resetCounts]
    _ = _ := (given _).symm

theorem withMapping (m : Mapping) : Blind fun e => e.withMapping m := by
  intro e
  rw [forget_withMapping, forget_withMapping, forget_forget]

theorem counting (c : RelocationCounts → RelocationCounts) : Blind fun e => e.counting c := by
  intro e
  rw [forget_counting, forget_counting, forget_forget]

theorem reporting (r : Report → Report) : Blind fun e => e.reporting r := by
  intro e
  rw [forget_reporting, forget_reporting, forget_forget]

/-! ### Banks and vaults -/

theorem bankRecovered (id : Nat) : Blind fun e => e.bankRecovered id := by
  intro e
  simp only [Epoch.bankRecovered, forget_reporting, forget_counting, forget_forget]
  rfl

theorem enableBank (id : Nat) : Blind fun e => e.enableBank id :=
  (bankRecovered id).comp (.modifyBank id Entry.resetCounts_enable)

theorem disableBank (id : Nat) (double : Bool) : Blind fun e => e.disableBank id double := by
  intro e
  have off := modifyBank id (Entry.resetCounts_disable double) e
  -- All that follows the change of the entry is counted and reported.
  cases double with
  | true =>
      simp only [Epoch.disableBank, if_true, forget_reporting, forget_counting, off]
      rfl
  | false =>
      simp only [Epoch.disableBank, Bool.false_eq_true, if_false, forget_reporting,
        forget_counting, off]
      rfl

theorem bankMoved (id : Nat) : Blind fun e => e.bankMoved id := by
  intro e
  exact modifyBank id (f := fun entry => entry.invalidate.markMoved e.layer.epoch) (fun _ => rfl) e

theorem banksMoved (a b : Nat) : Blind fun e => e.banksMoved a b := (bankMoved b).comp (bankMoved a)

theorem enableVault (vault : Nat) : Blind fun e => e.enableVault vault :=
  ((Blind.reporting _).comp (.counting _)).comp (.modifyVault vault Entry.resetCounts_enable)

theorem disableVault (vault : Nat) : Blind fun e => e.disableVault vault :=
  ((Blind.reporting _).comp (.counting _)).comp
    ((invalidateBanks vault).comp (.modifyVault vault (Entry.resetCounts_disable false)))

theorem vaultMoved (vault : Nat) : Blind fun e => e.vaultMoved vault := by
  have marked : Blind fun e => e.modifyVault vault (·.markMoved e.layer.epoch) := by
    intro e
    exact modifyVault vault (Entry.resetCounts_markMoved e.layer.epoch) e
  exact (invalidateBanks vault).comp marked

theorem vaultsMoved (a b : Nat) : Blind fun e => e.vaultsMoved a b :=
  (vaultMoved b).comp (vaultMoved a)

theorem fail (cause : RelocationFault) : Blind fun e => e.fail cause := .reporting _

/-! ### Switching off and on -/

theorem switchBank (id : Nat) : Blind fun e => e.switchBank id := by
  refine ite (p := fun e => e.layer.bankDisabled id) (fun e => e.layer.bankDisabled_resetCounts id)
    ?_ ?_
  · exact ite (p := fun e => (e.layer.temperatureOf id).below e.layer.settings.cool)
      (fun _ => rfl) (enableBank id) .id
  · exact ite (p := fun e => (e.layer.temperatureOf id).reaches e.layer.settings.high)
      (fun _ => rfl) (disableBank id false) .id

theorem switchVault (vault : Nat) : Blind fun e => e.switchVault vault := by
  refine ite (p := fun e => e.layer.vaultDisabled vault)
    (fun e => e.layer.vaultDisabled_resetCounts vault) ?_ ?_
  · exact ite (p := fun e => (e.vaultTemperatureOf vault).below e.layer.settings.cool)
      (fun _ => rfl) (enableVault vault) .id
  · exact ite (p := fun e => (e.vaultTemperatureOf vault).reaches e.layer.settings.high)
      (fun _ => rfl) (disableVault vault) .id

/-! ### Recovery -/

theorem sendBankHome (id : Nat) : Blind fun e => e.sendBankHome id := by
  intro e
  have mapping : e.forget.layer.mapping = e.layer.mapping := rfl
  simp only [Epoch.sendBankHome, mapping]
  cases e.layer.mapping.banks.source? (e.layer.mapping.slotOf id) with
  | none => exact forget_forget e
  | some occupant =>
      simp only [forget_layer, Layer.bankFrozen_resetCounts]
      split
      · exact forget_forget e
      · cases e.layer.mapping.banks.sendHome? (e.layer.mapping.slotOf id) with
        | none => exact forget_forget e
        | some sent => exact ((bankRecovered id).comp ((banksMoved id _).comp (.withMapping _))) e

theorem recoverBank (id : Nat) : Blind fun e => e.recoverBank id := by
  refine ite (p := fun e => (e.layer.temperatureOf id).reaches e.layer.settings.cool)
    (fun _ => rfl) .id ?_
  refine ite (p := fun e => e.layer.bankDisabled id) (fun e => e.layer.bankDisabled_resetCounts id)
    (enableBank id) ?_
  refine ite (p := fun e => e.bankMayGoHome id) ?_ (sendBankHome id) .id
  intro e
  simp only [bankMayGoHome, forget_layer, Layer.bankFrozen_resetCounts]
  rfl

theorem sendVaultHome (vault : Nat) : Blind fun e => e.sendVaultHome vault := by
  intro e
  have mapping : e.forget.layer.mapping = e.layer.mapping := rfl
  simp only [Epoch.sendVaultHome, mapping]
  cases e.layer.mapping.vaults.source? vault with
  | none => exact forget_forget e
  | some occupant =>
      simp only [forget_layer, Layer.vaultFrozen_resetCounts]
      split
      · exact forget_forget e
      · cases e.layer.mapping.vaults.sendHome? vault with
        | none => exact forget_forget e
        | some sent =>
            have recovered : Blind fun e => e.vaultRecovered vault :=
              (Blind.reporting _).comp (.counting _)
            exact (recovered.comp ((vaultsMoved vault _).comp (.withMapping _))) e

theorem recoverVault (vault : Nat) : Blind fun e => e.recoverVault vault := by
  refine ite (p := fun e => e.vaultMayGoHome vault) ?_ (sendVaultHome vault) .id
  intro e
  simp only [vaultMayGoHome, forget_layer, Layer.vaultFrozen_resetCounts]
  rfl

/-! ### Relief -/

theorem swapVaults (vault partner : Nat) : Blind fun e => e.swapVaults vault partner := by
  intro e
  have mapping : e.forget.layer.mapping = e.layer.mapping := rfl
  simp only [Epoch.swapVaults, mapping]
  cases e.layer.mapping.vaults.swap? vault partner with
  | none => exact forget_forget e
  | some vaults =>
      exact (((Blind.reporting _).comp (.counting _)).comp
        ((vaultsMoved vault partner).comp (.withMapping _))) e

theorem relieveVault (vault : Nat) : Blind fun e => e.relieveVault vault := by
  refine ite (p := fun e => e.vaultNeedsRelief vault) ?_ ?_ .id
  · intro e
    simp only [vaultNeedsRelief, forget_layer, Layer.vaultDisabled_resetCounts,
      Layer.vaultFrozen_resetCounts]
    rfl
  · intro e
    have eligible : e.forget.vaultEligible vault = e.vaultEligible vault := by
      funext candidate
      simp only [vaultEligible, forget_layer, Layer.vaultDisabled_resetCounts,
        Layer.vaultFrozen_resetCounts]
      rfl
    have target : e.forget.vaultTarget? vault = e.vaultTarget? vault := by
      rw [vaultTarget?, eligible]
      rfl
    simp only [target]
    cases e.vaultTarget? vault with
    | none => exact fail _ e
    | some target => exact swapVaults vault _ e

theorem swapBanks (id partner : Nat) : Blind fun e => e.swapBanks id partner := by
  intro e
  have mapping : e.forget.layer.mapping = e.layer.mapping := rfl
  simp only [Epoch.swapBanks, mapping]
  cases e.layer.mapping.banks.swap? (e.layer.mapping.slotOf id)
      (e.layer.mapping.slotOf partner) with
  | none => exact forget_forget e
  | some banks =>
      have moved := ((banksMoved id partner).comp
        (.withMapping { e.layer.mapping with banks := banks })) e
      simp only [forget_reporting, forget_counting, moved]
      rfl

/-- Whether a bank can be relieved by a change of place is decided, and done, without the counts. -/
theorem attemptRelief (e : Epoch) (id : Nat) :
    (e.forget.attemptRelief .swapping id).1 = (e.attemptRelief .swapping id).1 ∧
      (e.forget.attemptRelief .swapping id).2.forget =
        (e.attemptRelief .swapping id).2.forget := by
  have eligible : e.forget.bankEligible true (e.layer.mapping.physicalOf id) =
      e.bankEligible true (e.layer.mapping.physicalOf id) := by
    funext candidate
    simp only [bankEligible, forget_layer, Layer.idDisabled_resetCounts,
      Layer.bankFrozen_resetCounts]
    rfl
  have target : e.forget.bankTarget? true (e.layer.mapping.physicalOf id) =
      e.bankTarget? true (e.layer.mapping.physicalOf id) := by
    rw [bankTarget?, eligible]
    rfl
  have mapping : e.forget.layer.mapping = e.layer.mapping := rfl
  simp only [Epoch.attemptRelief, mapping, target]
  split
  · exact ⟨rfl, forget_forget e⟩
  · cases e.bankTarget? true (e.layer.mapping.physicalOf id) with
    | none => exact ⟨rfl, fail _ e⟩
    | some target => exact ⟨rfl, swapBanks id _ e⟩

theorem relieveBank (id : Nat) : Blind fun e => Epoch.relieveBank .swapping e id := by
  refine ite (p := fun e => e.bankNeedsRelief id) ?_ ?_ .id
  · intro e
    simp only [bankNeedsRelief, forget_layer, Layer.idDisabled_resetCounts,
      Layer.bankFrozen_resetCounts, Layer.vaultFrozen_resetCounts]
    rfl
  · intro e
    rcases attemptRelief e id with ⟨relieved, after⟩
    have dangerous : (e.forget.layer.temperatureOf id).reaches e.forget.layer.settings.dangerous =
        (e.layer.temperatureOf id).reaches e.layer.settings.dangerous := rfl
    have displaced : e.forget.layer.mapping.displaced id = e.layer.mapping.displaced id := rfl
    simp only [relieved, dangerous, displaced]
    split
    · rw [← disableBank id _ (e.forget.attemptRelief .swapping id).2, after]
      exact disableBank id _ _
    · exact after

end Blind

/-! ### Return of rows -/

namespace RowReturn

/-- The epoch forgets its counts. -/
def forget (r : RowReturn) : RowReturn := { r with epoch := r.epoch.forget }

theorem forget_forget (r : RowReturn) : r.forget.forget = r.forget :=
  congrArg (RowReturn.mk · r.owners) (Epoch.forget_forget r.epoch)

/-- The rows that return are the same when the counts have been forgotten before. -/
def Blind (step : RowReturn → RowReturn) : Prop := ∀ r, (step r.forget).forget = (step r).forget

theorem blind_foldl {α : Type} {step : RowReturn → α → RowReturn} (h : ∀ x, Blind (step · x))
    (xs : List α) : Blind fun r => xs.foldl step r := by
  induction xs with
  | nil => exact forget_forget
  | cons x xs ih =>
      intro r
      calc
        (xs.foldl step (step r.forget x)).forget
            = (xs.foldl step (step r.forget x).forget).forget := (ih _).symm
        _ = (xs.foldl step (step r x).forget).forget := by rw [h x r]
        _ = (xs.foldl step (step r x)).forget := ih _

theorem blind_returnRow (row home : Nat) : Blind (returnRow row · home) := by
  intro r
  have move : r.forget.epoch.rowMove? row home = r.epoch.rowMove? row home := rfl
  have mapping : r.forget.epoch.layer.mapping = r.epoch.layer.mapping := rfl
  have owners : r.forget.owners = r.owners := rfl
  have may : ∀ m, r.forget.epoch.rowMayReturn m = r.epoch.rowMayReturn m := by
    intro m
    simp only [rowMayReturn, forget, forget_layer, Layer.bankFrozen_resetCounts]
    rfl
  simp only [returnRow, move, mapping, owners, may]
  cases r.epoch.rowMove? row home with
  | none => exact forget_forget r
  | some m =>
      dsimp only
      split
      · cases (r.epoch.layer.mapping.rowPermutation row).sendHome? home with
        | none => exact forget_forget r
        | some sent =>
            have mapped := Blind.withMapping { r.epoch.layer.mapping with
              rows := r.epoch.layer.mapping.rows.insert row sent.2 }
            have noted := fun bank => Blind.modifyBank bank (Entry.resetCounts_migrateRow row)
            have after := ((noted (r.epoch.layer.mapping.logicalOf m.occupant)).comp
              ((noted (r.epoch.layer.mapping.logicalOf home)).comp mapped)) r.epoch
            -- What is left are counts, and the owners, which are the same in both.
            rcases sent with ⟨occupant, back⟩
            dsimp only
            split
            · exact congrArg (RowReturn.mk · r.owners) after
            · exact congrArg (RowReturn.mk · (insertAscending _ r.owners)) after
      · exact forget_forget r

theorem blind_returnRowToAll (row : Nat) : Blind (returnRowToAll · row) := by
  intro r
  have rows : r.forget.epoch.layer.mapping.rows = r.epoch.layer.mapping.rows := rfl
  simp only [returnRowToAll, rows]
  cases r.epoch.layer.mapping.rows.find? row with
  | none => exact forget_forget r
  | some p => exact blind_foldl (blind_returnRow row) p.moved r

/-- The epoch after the return, with the banks that have got rows back in its report. -/
def close (r : RowReturn) : Epoch :=
  let e := r.epoch.dropIdentities
  e.reporting fun report =>
    { report with recoveredBanks := report.recoveredBanks ++ r.owners.map e.place }

theorem forget_close (r : RowReturn) : r.forget.close.forget = r.close.forget := by
  simp only [close, forget_reporting, dropIdentities, forget_withMapping]
  exact congrArg (reporting · _) (congrArg (withMapping · _) (Epoch.forget_forget r.epoch))

end RowReturn

theorem recoverRows_eq (e : Epoch) :
    e.recoverRows = (e.layer.mapping.rows.keys.foldl returnRowToAll { epoch := e }).close := rfl

namespace Blind

theorem recoverRows : Blind fun e => e.recoverRows := by
  intro e
  have rows : e.forget.layer.mapping.rows = e.layer.mapping.rows := rfl
  have returned := RowReturn.blind_foldl RowReturn.blind_returnRowToAll
    e.layer.mapping.rows.keys { epoch := e }
  simp only [recoverRows_eq, rows]
  rw [← RowReturn.forget_close, ← RowReturn.forget_close (e.layer.mapping.rows.keys.foldl _ _)]
  exact congrArg (fun r => (RowReturn.close r).forget) returned

/-- A turn is the same for the counts, but for the relief of a bank by its rows. -/
theorem take {t : Turn} (rows : ∀ id, t ≠ .relieveBank .migrating id) : Blind (·.take t) := by
  cases t with
  | switchBank id => exact switchBank id
  | switchVault vault => exact switchVault vault
  | recoverBank id => exact recoverBank id
  | recoverVault vault => exact recoverVault vault
  | relieveVault vault => exact relieveVault vault
  | relieveBank relief id =>
      cases relief with
      | swapping => exact relieveBank id
      | migrating => exact absurd rfl (rows id)
  | recoverRows => exact recoverRows

end Blind

/-- A bank that is not hot is not relieved. -/
theorem relieveBank_of_mild {e : Epoch} {id : Nat} (h : e.layer.Sound) (mild : e.layer.Mild)
    (range : id < e.layer.geometry.totalBanks) (relief : Relief) :
    Epoch.relieveBank relief e id = e := by
  have below : (e.layer.temperatureOf id).below e.layer.settings.high = true :=
    mild _ (h.mapping.physicalOf_lt range)
  simp [Epoch.relieveBank, bankNeedsRelief, below]

theorem take_forget {t : Turn} {e : Epoch} (h : e.layer.Sound) (within : t.Within e.layer.geometry)
    (mild : ∀ id, t = .relieveBank .migrating id → e.layer.Mild) :
    (e.forget.take t).forget = (e.take t).forget := by
  by_cases migrating : ∃ id, t = .relieveBank .migrating id
  · rcases migrating with ⟨id, rfl⟩
    have sound : e.forget.layer.Sound := Layer.perform_sound h .resetCounts
    have idle : e.forget.take (.relieveBank .migrating id) = e.forget :=
      relieveBank_of_mild sound (mild id rfl) within .migrating
    have idle' : e.take (.relieveBank .migrating id) = e :=
      relieveBank_of_mild h (mild id rfl) within .migrating
    rw [idle, idle', forget_forget]
  · exact Blind.take (fun id ht => migrating ⟨id, ht⟩) e

/-- Turns do the same without the counts, if no bank is hot that would be relieved by its rows. -/
theorem takeAll_forget {turns : List Turn} {e : Epoch} (h : e.layer.Sound)
    (within : ∀ t ∈ turns, t.Within e.layer.geometry)
    (mild : (∃ id, .relieveBank .migrating id ∈ turns) → e.layer.Mild) :
    (e.forget.takeAll turns).forget = (e.takeAll turns).forget := by
  induction turns generalizing e with
  | nil => exact forget_forget e
  | cons t turns ih =>
      have here := within t List.mem_cons_self
      have later := fun u hu => within u (List.mem_cons_of_mem t hu)
      -- Both the epoch and the forgetful one go on from sound layers with the same temperatures.
      have onward : ∀ e' : Epoch, e'.layer.Sound → e'.layer.geometry = e.layer.geometry →
          (e.layer.Mild → e'.layer.Mild) →
          ((e'.take t).forget.takeAll turns).forget = ((e'.take t).takeAll turns).forget := by
        intro e' sound geometry kept
        have change := take_change sound (geometry ▸ here)
        have frame := change.frame
        refine ih (change.sound sound) ?_ ?_
        · rw [frame.geometry, geometry]
          exact later
        · rintro ⟨id, hid⟩
          have before := kept (mild ⟨id, List.mem_cons_of_mem t hid⟩)
          simpa only [Layer.Mild, frame.geometry, frame.ledger, frame.settings] using before
      have same := take_forget h here fun id ht => mild ⟨id, ht ▸ List.mem_cons_self⟩
      calc
        (e.forget.takeAll (t :: turns)).forget
            = ((e.forget.take t).forget.takeAll turns).forget :=
              (onward e.forget (Layer.perform_sound h .resetCounts) rfl fun cool => cool).symm
        _ = ((e.take t).forget.takeAll turns).forget := by rw [same]
        _ = (e.takeAll (t :: turns)).forget := onward e h rfl fun cool => cool

end Epoch

namespace Layer

variable {l l' : Layer} {row : Location}

theorem migrating_mem_turns {s : RelocationSettings} {g : Geometry} {id : Nat}
    (h : .relieveBank .migrating id ∈ s.turns g) : s.policy = .hybrid := by
  unfold RelocationSettings.turns RelocationSettings.passes at h
  cases policy : s.policy with
  | hybrid => rfl
  | disable => simp [policy, Pass.turns] at h
  | vaultDisable => simp [policy, Pass.turns] at h
  | swap =>
      cases inter : s.interVault <;> simp [policy, inter, Pass.turns] at h

/-- An epoch decides the same when the counts have been forgotten before, unless the policy moves
rows and there is a hot bank. -/
theorem runEpoch_forget (h : l.Sound)
    (mild : l.settings.enabled = true → l.settings.policy = .hybrid → l.Mild) :
    l.resetCounts.runEpoch.1 = l.runEpoch.1 ∧
      l.resetCounts.runEpoch.2.resetCounts = l.runEpoch.2.resetCounts := by
  have start : l.resetCounts.nextEpoch.forget = l.nextEpoch.forget :=
    congrArg (fun r : Layer => (⟨{ r with epoch := l.epoch + 1 }, _⟩ : Epoch))
      l.resetCounts_resetCounts
  have sound : l.nextEpoch.layer.Sound := nextEpoch_sound h
  have sound' : l.resetCounts.nextEpoch.layer.Sound :=
    nextEpoch_sound (perform_sound h .resetCounts)
  have settings : l.resetCounts.settings = l.settings := rfl
  unfold runEpoch
  rw [settings]
  cases enabled : l.settings.enabled with
  | false =>
      simp only [Bool.false_eq_true, if_false]
      exact ⟨rfl, congrArg Epoch.layer start⟩
  | true =>
      have mild' : (∃ id, .relieveBank .migrating id ∈ l.settings.turns l.geometry) → l.Mild :=
        fun ⟨id, hid⟩ => mild enabled (migrating_mem_turns hid)
      have within := fun t (ht : t ∈ l.settings.turns l.geometry) =>
        RelocationSettings.turns_within ht
      have ends : (l.resetCounts.nextEpoch.apply l.settings).forget =
          (l.nextEpoch.apply l.settings).forget := by
        rw [Epoch.apply_eq sound, Epoch.apply_eq sound']
        have after := Epoch.takeAll_forget sound within mild'
        have after' := Epoch.takeAll_forget sound' within mild'
        rw [start] at after'
        exact after'.symm.trans after
      -- The failures are counted last, and the count is forgotten.
      simp only [if_true]
      have report := congrArg Epoch.report ends
      have layer := congrArg Epoch.layer ends
      exact ⟨report, layer⟩

/-! ## Twins -/

/-- The layers differ in what they have counted only, used rows included. -/
def Twin (l l' : Layer) : Prop := l.resetCounts = l'.resetCounts

/-- What is read off a layer without its counts is the same for twins. -/
theorem Twin.same {γ : Type} {f : Layer → γ} (h : l.Twin l') (blind : ∀ l, f l.resetCounts = f l) :
    f l' = f l := by
  rw [← blind l', ← h, blind]

theorem Twin.runEpoch (h : l.Twin l') (sound : l.Sound) (sound' : l'.Sound)
    (mild : l.settings.enabled = true → l.settings.policy = .hybrid → l.Mild) :
    l'.runEpoch.1 = l.runEpoch.1 ∧ l.runEpoch.2.Twin l'.runEpoch.2 := by
  have settings : l'.settings = l.settings := h.same fun _ => rfl
  have mild' : l'.Mild ↔ l.Mild := iff_of_eq (h.same fun _ => rfl)
  rcases runEpoch_forget sound mild with ⟨report, layer⟩
  rcases runEpoch_forget sound' (by rwa [settings, mild']) with ⟨report', layer'⟩
  rw [← h] at report' layer'
  exact ⟨report'.symm.trans report, layer.symm.trans layer'⟩

theorem Twin.setTemperature (h : l.Twin l') (p : BankPlace) (t : Celsius) :
    (l.perform (.setTemperature p t)).Twin (l'.perform (.setTemperature p t)) := by
  have stored : ∀ l : Layer, (l.perform (.setTemperature p t)).resetCounts =
      l.resetCounts.perform (.setTemperature p t) := by
    intro l
    have geometry : l.resetCounts.geometry = l.geometry := rfl
    simp only [perform, Layer.setTemperature, bankId?, geometry]
    cases l.geometry.holds p <;> rfl
  rw [Twin, stored, stored, h]

theorem resetCounts_settle (l : Layer) : l.settle.resetCounts = l.resetCounts.settle := by
  simp only [settle, resetCounts, Array.map_map]
  rfl

theorem Twin.settle (h : l.Twin l') : l.settle.Twin l'.settle := by
  rw [Twin, resetCounts_settle, resetCounts_settle, h]

theorem Twin.recordAccess (h : l.Twin l') (row : Location) (n : Nat) :
    SameOutcome Twin (l.recordAccess row n) (l'.recordAccess row n) := by
  have geometry : l'.geometry = l.geometry := h.same fun _ => rfl
  have recorded : ∀ (l : Layer) (ledger : Ledger) (id : Nat),
      ledger.resetCounts = l.ledger.resetCounts →
      ((({ l with ledger := ledger } : Layer).modifyBank id (·.recordAccess row.row n)).modifyVault
        row.vault (·.recordAccess row.bank n)).resetCounts = l.resetCounts := by
    intro l ledger id same
    simp only [resetCounts, modifyBank, modifyVault, same,
      map_modify_self _ _ (Entry.resetCounts_recordAccess _ _)]
  unfold Layer.recordAccess bankId?
  rw [geometry]
  cases l.geometry.holds row.place with
  | false => exact .error _
  | true =>
      refine .ok ?_
      rw [Twin, recorded l _ _ (Ledger.resetCounts_recordAccess ..),
        recorded l' _ _ (Ledger.resetCounts_recordAccess ..)]
      exact h

theorem pending_resetCounts (l : Layer) : l.resetCounts.pending = l.pending := by
  simp only [pending, resetCounts, Array.any_map]
  rfl

end Layer

end StackedCache
