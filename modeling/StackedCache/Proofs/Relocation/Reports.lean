import StackedCache.Proofs.Relocation.Reach

/-!
# Reports and counts

A decision changes the layer, counts and reports in separate steps.  `Told` says of an epoch so far
that the three agree: the counts have grown by what the report lists, and an epoch that reports no
change has moved nothing and changed no entry.
-/

namespace StackedCache

theorem length_insertAscending {n : Nat} {ms : List Nat} (fresh : n ∉ ms) :
    (insertAscending n ms).length = ms.length + 1 := by
  induction ms with
  | nil => rfl
  | cons m ms ih =>
      rw [List.mem_cons, not_or] at fresh
      unfold insertAscending
      split
      · rfl
      · rw [if_neg fresh.1, List.length_cons, ih fresh.2, List.length_cons]

/-! ## What may be left unsaid -/

namespace Layer

variable {l l' l'' : Layer}

/-- Every row is where it was, and the entries of banks and vaults are the same. -/
structure Unmoved (l l' : Layer) : Prop where
  geometry : l'.geometry = l.geometry
  banks : l'.banks = l.banks
  vaults : l'.vaults = l.vaults
  rows : l'.mapping.physicalOfRow = l.mapping.physicalOfRow

theorem Unmoved.trans (h : Unmoved l l') (h' : Unmoved l' l'') : Unmoved l l'' where
  geometry := h'.geometry.trans h.geometry
  banks := h'.banks.trans h.banks
  vaults := h'.vaults.trans h.vaults
  rows := h'.rows.trans h.rows

theorem Unmoved.physicalLocation (h : Unmoved l l') (row : Location) :
    l'.physicalLocation row = l.physicalLocation row := by
  simp only [Layer.physicalLocation, bankId?, h.geometry, h.rows]

theorem Unmoved.entry_eq (h : Unmoved l l') (p : BankPlace) : entry? l' p = entry? l p := by
  simp only [Layer.entry?, bank?, h.geometry, h.banks]

theorem Unmoved.vault_eq (h : Unmoved l l') (v : Nat) : l'.vault? v = l.vault? v := by
  simp only [vault?, h.vaults]

theorem Unmoved.disabled (h : Unmoved l l') (p : BankPlace) : l'.disabled p = l.disabled p := by
  simp only [Layer.disabled, idDisabled, bankDisabled, vaultDisabled, bank?, vault?,
    h.geometry, h.banks, h.vaults]

/-- Redirections that do nothing can go. -/
theorem Sound.unmoved_dropIdentities {e : Epoch} (h : e.layer.Sound) :
    Unmoved e.layer e.dropIdentities.layer where
  geometry := rfl
  banks := rfl
  vaults := rfl
  rows := by
    funext row id
    exact h.mapping.redirect_dropIdentities row _

@[simp] theorem modifyBanks_counts (l : Layer) (ids : List Nat) (f : Entry → Entry) :
    (l.modifyBanks ids f).counts = l.counts := by
  rw [modifyBanks_eq]

end Layer

/-! ## Counts and reports of an epoch -/

namespace Epoch

open Layer

variable {l : Layer} {e e' : Epoch} {id vault : Nat}

/-- The counts of an epoch so far have grown by what it reports, since it started with a layer.
Failures are counted at the end. -/
structure Tallied (l : Layer) (e : Epoch) : Prop where
  epochs : e.layer.counts.epochs = l.counts.epochs + 1
  bankSwaps : e.layer.counts.bankSwaps = l.counts.bankSwaps + e.report.bankSwaps.length
  vaultSwaps : e.layer.counts.vaultSwaps = l.counts.vaultSwaps + e.report.vaultSwaps.length
  disables : e.layer.counts.disables =
    l.counts.disables + (e.report.disabledBanks.length + e.report.disabledVaults.length)
  recoveries : e.layer.counts.recoveries =
    l.counts.recoveries + (e.report.recoveredBanks.length + e.report.recoveredVaults.length)
  failures : e.layer.counts.failures = l.counts.failures

namespace Tallied

theorem nextEpoch (l : Layer) : Tallied l l.nextEpoch := ⟨rfl, rfl, rfl, rfl, rfl, rfl⟩

theorem of_eq (h : Tallied l e) (counts : e'.layer.counts = e.layer.counts)
    (report : e'.report = e.report) : Tallied l e' := by
  rcases h with ⟨epochs, bankSwaps, vaultSwaps, disables, recoveries, failures⟩
  rw [← counts] at epochs bankSwaps vaultSwaps disables recoveries failures
  rw [← report] at bankSwaps vaultSwaps disables recoveries
  exact ⟨epochs, bankSwaps, vaultSwaps, disables, recoveries, failures⟩

theorem noting (h : Tallied l e) (faults : List RelocationFault) : Tallied l (e.noting faults) :=
  ⟨h.epochs, h.bankSwaps, h.vaultSwaps, h.disables, h.recoveries, h.failures⟩

/-- Rows are counted on their own. -/
theorem countRows (h : Tallied l e) (f : Nat → Nat) :
    Tallied l (e.counting fun c => { c with rowMigrations := f c.rowMigrations }) :=
  ⟨h.epochs, h.bankSwaps, h.vaultSwaps, h.disables, h.recoveries, h.failures⟩

theorem bankRecovered (h : Tallied l e) (id : Nat) : Tallied l (e.bankRecovered id) := by
  refine ⟨h.epochs, h.bankSwaps, h.vaultSwaps, h.disables, ?_, h.failures⟩
  have before := h.recoveries
  simp only [Epoch.bankRecovered, reporting, counting, List.length_append, List.length_singleton]
  omega

theorem vaultRecovered (h : Tallied l e) (vault : Nat) : Tallied l (e.vaultRecovered vault) := by
  refine ⟨h.epochs, h.bankSwaps, h.vaultSwaps, h.disables, ?_, h.failures⟩
  have before := h.recoveries
  simp only [Epoch.vaultRecovered, reporting, counting, List.length_append, List.length_singleton]
  omega

theorem disableBank (h : Tallied l e) (id : Nat) (double : Bool) :
    Tallied l (e.disableBank id double) := by
  have before := h.disables
  -- A double disable is counted a second time, in a count of its own.
  cases double with
  | false =>
      refine ⟨h.epochs, h.bankSwaps, h.vaultSwaps, ?_, h.recoveries, h.failures⟩
      simp only [Epoch.disableBank, reporting, counting, Epoch.modifyBank, Layer.modifyBank,
        List.length_append, List.length_singleton, Bool.false_eq_true, if_false]
      omega
  | true =>
      refine ⟨h.epochs, h.bankSwaps, h.vaultSwaps, ?_, h.recoveries, h.failures⟩
      simp only [Epoch.disableBank, reporting, counting, Epoch.modifyBank, Layer.modifyBank,
        List.length_append, List.length_singleton, if_true]
      omega

theorem vaultDisabled (h : Tallied l e) (vault : Nat) :
    Tallied l
      ((e.counting fun c => { c with disables := c.disables + 1 }).reporting fun r =>
        { r with disabledVaults := r.disabledVaults ++ [vault] }) := by
  refine ⟨h.epochs, h.bankSwaps, h.vaultSwaps, ?_, h.recoveries, h.failures⟩
  have before := h.disables
  simp only [reporting, counting, List.length_append, List.length_singleton]
  omega

theorem banksSwapped (h : Tallied l e) (swap : BankPlace × BankPlace) :
    Tallied l
      ((e.counting fun c => { c with bankSwaps := c.bankSwaps + 1 }).reporting fun r =>
        { r with bankSwaps := r.bankSwaps ++ [swap] }) := by
  refine ⟨h.epochs, ?_, h.vaultSwaps, h.disables, h.recoveries, h.failures⟩
  have before := h.bankSwaps
  simp only [reporting, counting, List.length_append, List.length_singleton]
  omega

theorem vaultsSwapped (h : Tallied l e) (swap : Nat × Nat) :
    Tallied l
      ((e.counting fun c => { c with vaultSwaps := c.vaultSwaps + 1 }).reporting fun r =>
        { r with vaultSwaps := r.vaultSwaps ++ [swap] }) := by
  refine ⟨h.epochs, h.bankSwaps, ?_, h.disables, h.recoveries, h.failures⟩
  have before := h.vaultSwaps
  simp only [reporting, counting, List.length_append, List.length_singleton]
  omega

theorem vaultsMoved (h : Tallied l e) (a b : Nat) : Tallied l (e.vaultsMoved a b) := by
  have first : (e.vaultMoved a).layer.counts = e.layer.counts := modifyBanks_counts _ _ _
  have second : (e.vaultsMoved a b).layer.counts = (e.vaultMoved a).layer.counts :=
    modifyBanks_counts _ _ _
  exact h.of_eq (second.trans first) rfl

/-- Exchanges of rows are counted apart, and reported together. -/
theorem exchangeRows (h : Tallied l e) (id partner physical target : Nat) (rows : List Nat) :
    Tallied l (e.through rows (exchangeRow id partner physical target)) := by
  induction rows generalizing e with
  | nil => exact h
  | cons row rows ih =>
      apply ih
      unfold exchangeRow
      dsimp only
      split
      · exact h.of_eq rfl rfl
      · apply countRows (f := (· + 1))
        exact h.of_eq rfl rfl

end Tallied

/-- What an epoch that started with a layer has done so far is what it reports. -/
structure Told (l : Layer) (e : Epoch) : Prop extends Tallied l e where
  quiet : e.report.changed = false → l.Unmoved e.layer

namespace Told

theorem nextEpoch (l : Layer) : Told l l.nextEpoch where
  toTallied := .nextEpoch l
  quiet := fun _ => ⟨rfl, rfl, rfl, rfl⟩

/-- A change that is reported says so. -/
theorem of_loud (tallied : Tallied l e) (loud : e.report.changed = true) : Told l e :=
  ⟨tallied, fun quiet => absurd (loud.symm.trans quiet) (by decide)⟩

theorem noting (h : Told l e) (faults : List RelocationFault) : Told l (e.noting faults) :=
  ⟨h.toTallied.noting faults, h.quiet⟩

/-! ## Decisions -/

theorem bankRecovered (h : Tallied l e) (id : Nat) : Told l (e.bankRecovered id) :=
  .of_loud (h.bankRecovered id) (by simp [Epoch.bankRecovered, reporting, Report.changed])

theorem vaultRecovered (h : Tallied l e) (vault : Nat) : Told l (e.vaultRecovered vault) :=
  .of_loud (h.vaultRecovered vault) (by simp [Epoch.vaultRecovered, reporting, Report.changed])

theorem disableBank (h : Told l e) (id : Nat) (double : Bool) : Told l (e.disableBank id double) :=
  .of_loud (h.toTallied.disableBank id double)
    (by simp [Epoch.disableBank, reporting, Report.changed])

theorem disableVault (h : Told l e) (vault : Nat) : Told l (e.disableVault vault) := by
  refine .of_loud ?_ (by simp [Epoch.disableVault, reporting, Report.changed])
  apply Tallied.vaultDisabled
  exact h.of_eq (modifyBanks_counts _ _ _) rfl

theorem swapBanks (h : Told l e) (id partner : Nat) : Told l (e.swapBanks id partner) := by
  unfold Epoch.swapBanks
  dsimp only
  split
  · exact h
  · refine .of_loud ?_ (by simp [reporting, Report.changed])
    apply Tallied.banksSwapped
    exact h.of_eq rfl rfl

theorem swapVaults (h : Told l e) (vault partner : Nat) : Told l (e.swapVaults vault partner) := by
  unfold Epoch.swapVaults
  dsimp only
  split
  · exact h
  · refine .of_loud ?_ (by simp [reporting, Report.changed])
    apply Tallied.vaultsSwapped
    apply Tallied.vaultsMoved
    exact h.of_eq rfl rfl

theorem migrateRows (h : Told l e) (id partner physical target : Nat) (rows : List Nat) :
    Told l (e.migrateRows id partner physical target rows) := by
  refine .of_loud ?_ (by simp [Epoch.migrateRows, reporting, Report.changed])
  rcases h.exchangeRows id partner physical target rows with
    ⟨epochs, bankSwaps, vaultSwaps, disables, recoveries, failures⟩
  exact ⟨epochs, bankSwaps, vaultSwaps, disables, recoveries, failures⟩

theorem sendBankHome (h : Told l e) (id : Nat) : Told l (e.sendBankHome id) := by
  unfold Epoch.sendBankHome
  dsimp only
  split
  · exact h
  · split
    · exact h
    · split
      · apply bankRecovered
        exact h.of_eq rfl rfl
      · exact h

theorem sendVaultHome (h : Told l e) (vault : Nat) : Told l (e.sendVaultHome vault) := by
  unfold Epoch.sendVaultHome
  dsimp only
  split
  · exact h
  · split
    · exact h
    · split
      · apply vaultRecovered
        apply Tallied.vaultsMoved
        exact h.of_eq rfl rfl
      · exact h

/-- Every decision is reported. -/
theorem decision (h : Told l e) (decision : Decision e e') : Told l e' := by
  cases decision with
  | stay => exact h
  | enableBank id =>
      apply bankRecovered
      exact h.of_eq rfl rfl
  | switchBankOff id => exact h.disableBank id false
  | giveBankUp id => exact h.disableBank id _
  | enableVault vault =>
      apply vaultRecovered
      exact h.of_eq rfl rfl
  | disableVault vault => exact h.disableVault vault
  | sendBankHome id => exact h.sendBankHome id
  | sendVaultHome vault => exact h.sendVaultHome vault
  | swapVaults vault target => exact h.swapVaults vault _
  | swapBanks id target => exact h.swapBanks id _
  | migrateRows id target => exact h.migrateRows id _ _ target _

end Told

/-! ## The return of rows -/

/-- Of the rows that have returned so far, the owners are still to be reported. -/
structure Returned (e : Epoch) (r : RowReturn) : Prop where
  report : r.epoch.report = e.report
  counts : ∃ rows, r.epoch.layer.counts =
    { e.layer.counts with
      rowMigrations := rows
      recoveries := e.layer.counts.recoveries + r.owners.length }
  quiet : r.owners = [] → r.epoch = e

namespace Returned

variable {r : RowReturn}

theorem returnRow (h : Returned e r) (row home : Nat) : Returned e (returnRow row r home) := by
  rcases h.counts with ⟨rows, counts⟩
  unfold Epoch.returnRow
  dsimp only
  split
  · exact h
  · rename_i move found
    split
    · split
      · exact h
      · -- An owner that has got a row back before is not counted again.
        split
        · rename_i known
          refine ⟨h.report, ⟨rows + 1, ?_⟩, fun none => ?_⟩
          · simp only [counting, Epoch.modifyBank, Layer.modifyBank, withMapping, counts]
          · simp [show r.owners = [] from none] at known
        · rename_i fresh
          have length := length_insertAscending (by simpa using fresh)
          refine ⟨h.report, ⟨rows + 1, ?_⟩, fun none => ?_⟩
          · simp only [counting, Epoch.modifyBank, Layer.modifyBank, withMapping, counts, length]
            rfl
          · exact absurd (length.symm.trans (congrArg List.length none)) (Nat.succ_ne_zero _)
    · exact h

theorem returnRowToAll (h : Returned e r) (row : Nat) : Returned e (returnRowToAll r row) := by
  unfold Epoch.returnRowToAll
  split
  · exact h
  · rename_i p found
    generalize p.moved = homes
    clear found
    induction homes generalizing r with
    | nil => exact h
    | cons home homes ih => exact ih (h.returnRow row home)

theorem all (h : Returned e r) (rows : List Nat) :
    Returned e (rows.foldl Epoch.returnRowToAll r) := by
  induction rows generalizing r with
  | nil => exact h
  | cons row rows ih => exact ih (h.returnRowToAll row)

end Returned

/-- Further recoveries in a report are a change. -/
theorem changed_recoveredBanks (r : Report) (banks : List BankPlace) :
    Report.changed { r with recoveredBanks := r.recoveredBanks ++ banks } =
      (r.changed || !banks.isEmpty) := by
  have split : (r.recoveredBanks ++ banks).isEmpty = (r.recoveredBanks.isEmpty && banks.isEmpty) := by
    cases r.recoveredBanks <;> rfl
  simp only [Report.changed, split]
  cases banks.isEmpty <;> simp

theorem Tallied.recoverRows (h : Tallied l e) {r : RowReturn} (returned : Returned e r) :
    Tallied l (r.epoch.dropIdentities.reporting fun report =>
      { report with
        recoveredBanks := report.recoveredBanks ++ r.owners.map r.epoch.dropIdentities.place }) := by
  rcases returned.counts with ⟨rows, counts⟩
  have recoveries := h.recoveries
  refine ⟨?_, ?_, ?_, ?_, ?_, ?_⟩
  all_goals simp only [reporting, dropIdentities, withMapping, returned.report, counts]
  · exact h.epochs
  · exact h.bankSwaps
  · exact h.vaultSwaps
  · exact h.disables
  · simp only [List.length_append, List.length_map]
    omega
  · exact h.failures

theorem Told.recoverRows (h : Told l e) (sound : e.layer.Sound) : Told l e.recoverRows := by
  have start : Returned e { epoch := e } := ⟨rfl, ⟨_, rfl⟩, fun _ => rfl⟩
  have returned := start.all e.layer.mapping.rows.keys
  refine ⟨h.toTallied.recoverRows returned, ?_⟩
  unfold Epoch.recoverRows
  generalize e.layer.mapping.rows.keys.foldl Epoch.returnRowToAll { epoch := e } = r at returned
  intro quiet
  have listed : (e.report.changed || !r.owners.isEmpty) = false := by
    rw [← returned.report, ← quiet, ← List.isEmpty_map (f := r.epoch.dropIdentities.place)]
    exact (changed_recoveredBanks _ _).symm
  rw [Bool.or_eq_false_iff, Bool.not_eq_false', List.isEmpty_iff] at listed
  -- Without owners no row has returned, and what is dropped does nothing.
  change l.Unmoved r.epoch.dropIdentities.layer
  rw [returned.quiet listed.2]
  exact (h.quiet listed.1).trans sound.unmoved_dropIdentities

/-! ## Turns -/

theorem Told.take {t : Turn} (h : Told l e) (sound : e.layer.Sound)
    (within : t.Within e.layer.geometry) : Told l (e.take t) := by
  by_cases rows : t = .recoverRows
  · subst rows
    exact h.recoverRows sound
  · rcases take_decides within rows with ⟨faults, decision⟩
    exact (h.noting faults).decision decision

theorem Told.takeAll {turns : List Turn} (h : Told l e) (sound : e.layer.Sound)
    (within : ∀ t ∈ turns, t.Within e.layer.geometry) : Told l (e.takeAll turns) := by
  induction turns generalizing e with
  | nil => exact h
  | cons t turns ih =>
      have first := within t List.mem_cons_self
      have change := take_change sound first
      refine ih (h.take sound first) (change.sound sound) fun u hu => ?_
      rw [change.frame.geometry]
      exact within u (List.mem_cons_of_mem _ hu)

end Epoch

/-! ## Runs -/

/-- The counts have grown by what reports list, and by an epoch for each report. -/
structure RelocationCounts.Counted (c : RelocationCounts) (reports : List Report)
    (c' : RelocationCounts) : Prop where
  epochs : c'.epochs = c.epochs + reports.length
  bankSwaps : c'.bankSwaps = c.bankSwaps + (reports.map fun r => r.bankSwaps.length).sum
  vaultSwaps : c'.vaultSwaps = c.vaultSwaps + (reports.map fun r => r.vaultSwaps.length).sum
  disables : c'.disables = c.disables +
    (reports.map fun r => r.disabledBanks.length + r.disabledVaults.length).sum
  recoveries : c'.recoveries = c.recoveries +
    (reports.map fun r => r.recoveredBanks.length + r.recoveredVaults.length).sum
  failures : c'.failures = c.failures + (reports.map fun r => r.failures.length).sum

theorem RelocationCounts.Counted.refl (c : RelocationCounts) : c.Counted [] c :=
  ⟨rfl, rfl, rfl, rfl, rfl, rfl⟩

theorem RelocationCounts.Counted.cons {c c' c'' : RelocationCounts} {r : Report}
    {reports : List Report} (h : c.Counted [r] c') (h' : c'.Counted reports c'') :
    c.Counted (r :: reports) c'' := by
  rcases h with ⟨epochs, bankSwaps, vaultSwaps, disables, recoveries, failures⟩
  simp only [List.map_cons, List.map_nil, List.sum_singleton, List.length_singleton] at *
  constructor <;> simp only [List.map_cons, List.sum_cons, List.length_cons]
  · have rest := h'.epochs
    omega
  · have rest := h'.bankSwaps
    omega
  · have rest := h'.vaultSwaps
    omega
  · have rest := h'.disables
    omega
  · have rest := h'.recoveries
    omega
  · have rest := h'.failures
    omega

namespace Layer

variable {l : Layer}

/-- An epoch counts what it reports, and an epoch that reports no change makes none. -/
theorem runEpoch_told (h : l.Sound) :
    l.counts.Counted [l.runEpoch.1] l.runEpoch.2.counts ∧
      (l.runEpoch.1.changed = false → l.Unmoved l.runEpoch.2) := by
  have start := Epoch.Told.nextEpoch l
  unfold runEpoch
  dsimp only
  split
  · have told : Epoch.Told l (l.nextEpoch.takeAll (l.settings.turns l.geometry)) :=
      start.takeAll (nextEpoch_sound h) fun t ht => RelocationSettings.turns_within ht
    rw [Epoch.apply_eq (nextEpoch_sound h)]
    have failures := told.failures
    refine ⟨⟨told.epochs, told.bankSwaps, told.vaultSwaps, told.disables, told.recoveries, ?_⟩,
      fun none => ?_⟩
    · exact congrArg (· + _) failures
    · rcases told.quiet none with ⟨geometry, banks, vaults, rows⟩
      exact ⟨geometry, banks, vaults, rows⟩
  · exact ⟨⟨rfl, rfl, rfl, rfl, rfl, rfl⟩, start.quiet⟩

/-- The reports of the epochs of a run. -/
def reports (l : Layer) : List Operation → List Report
  | [] => []
  | .runEpoch :: ops => l.runEpoch.1 :: l.runEpoch.2.reports ops
  | op :: ops => (l.perform op).reports ops

/-- Only epochs and resets change the counts of decisions. -/
theorem perform_counts {op : Operation} (epoch : op ≠ .runEpoch) (reset : op ≠ .resetCounts) :
    (l.perform op).counts = l.counts := by
  cases op with
  | setTemperature p t =>
      rcases perform_setTemperature l p t with ⟨ledger, stored⟩
      rw [stored]
  | recordAccess row requests =>
      rcases perform_recordAccess l row requests with refused | ⟨ledger, recorded⟩
      · rw [refused]
      · rw [recorded]
        rfl
  | settle => rfl
  | runEpoch => exact absurd rfl epoch
  | resetCounts => exact absurd rfl reset

theorem run_counted (h : l.Sound) {ops : List Operation} (kept : .resetCounts ∉ ops) :
    l.counts.Counted (l.reports ops) (l.run ops).counts := by
  induction ops generalizing l with
  | nil => exact .refl _
  | cons op ops ih =>
      rw [List.mem_cons, not_or] at kept
      have rest := ih (perform_sound h op) kept.2
      by_cases epoch : op = .runEpoch
      · subst epoch
        exact (runEpoch_told h).1.cons rest
      · have listed : l.reports (op :: ops) = (l.perform op).reports ops := by
          cases op <;> first | rfl | exact absurd rfl epoch
        rw [perform_counts epoch (Ne.symm kept.1)] at rest
        rw [listed]
        exact rest

/-- A run starts without counts, and so does what comes after a reset. -/
theorem counts_of_reset (s : RelocationSettings) (g : Geometry) {ops : List Operation}
    (reset : ops = [] ∨ ops.getLast? = some .resetCounts) :
    ((ofSettings s g).run ops).counts = {} := by
  rcases reset with rfl | last
  · rfl
  · rcases List.getLast?_eq_some_iff.1 last with ⟨earlier, rfl⟩
    rw [run_append]
    rfl

/-- Since the last reset, counts are sums over reports; and an epoch that reports no change moves no
row and changes no state, mark or list of moved rows of a bank or vault. -/
theorem run_reports_complete (s : RelocationSettings) (g : Geometry) (before since : List Operation)
    (reset : before = [] ∨ before.getLast? = some .resetCounts) (kept : .resetCounts ∉ since) :
    let start := (ofSettings s g).run before
    let now := start.run since
    let reports := start.reports since
    now.counts.epochs = reports.length ∧
      now.counts.bankSwaps = (reports.map fun r => r.bankSwaps.length).sum ∧
      now.counts.vaultSwaps = (reports.map fun r => r.vaultSwaps.length).sum ∧
      now.counts.disables =
        (reports.map fun r => r.disabledBanks.length + r.disabledVaults.length).sum ∧
      now.counts.recoveries =
        (reports.map fun r => r.recoveredBanks.length + r.recoveredVaults.length).sum ∧
      now.counts.failures = (reports.map fun r => r.failures.length).sum ∧
      (now.runEpoch.1.changed = false →
        (∀ row, now.runEpoch.2.physicalLocation row = now.physicalLocation row) ∧
        (∀ p, now.runEpoch.2.disabled p = now.disabled p) ∧
        (∀ p, entry? now.runEpoch.2 p = now.entry? p) ∧
        ∀ v, now.runEpoch.2.vault? v = now.vault? v) := by
  intro start now reports
  have sound : start.Sound := run_sound (ofSettings_sound s g) before
  have nowSound : now.Sound := run_sound sound since
  have counted : start.counts.Counted reports now.counts := run_counted sound kept
  have clear : start.counts = {} := counts_of_reset s g reset
  rw [clear] at counted
  rcases counted with ⟨epochs, bankSwaps, vaultSwaps, disables, recoveries, failures⟩
  simp only [Nat.zero_add] at epochs bankSwaps vaultSwaps disables recoveries failures
  refine ⟨epochs, bankSwaps, vaultSwaps, disables, recoveries, failures, fun quiet => ?_⟩
  have same := (runEpoch_told nowSound).2 quiet
  exact ⟨same.physicalLocation, same.disabled, same.entry_eq, same.vault_eq⟩

/-- A hot bank changes place with its neighbour, and the next epoch finds both in their cooldown. -/
theorem run_reports_complete_swap :
    let since : List Operation := [.setTemperature ⟨0, 0⟩ ⟨90.0⟩, .runEpoch]
    let now := (ofSettings {} ⟨1, 2, 4⟩).run since
    .resetCounts ∉ since ∧ now.counts.epochs = 1 ∧ now.counts.bankSwaps = 1 ∧
      now.runEpoch.1.changed = false ∧ now.physicalPlace ⟨0, 0⟩ = .ok ⟨0, 1⟩ ∧
      entry? now.runEpoch.2 ⟨0, 0⟩ = now.entry? ⟨0, 0⟩ := by
  intro since now
  have kept : Operation.resetCounts ∉ since := by simp [since]
  have complete := run_reports_complete {} ⟨1, 2, 4⟩ [] since (.inl rfl) kept
  have quiet : now.runEpoch.1.changed = false := by decide +kernel
  have swaps : (((ofSettings {} ⟨1, 2, 4⟩).reports since).map fun r => r.bankSwaps.length).sum = 1 := by
    decide +kernel
  have held : now.geometry.holds ⟨0, 0⟩ = true := by decide +kernel
  have moved : now.geometry.bankAt (now.mapping.physicalOf (now.geometry.bankId ⟨0, 0⟩)) = ⟨0, 1⟩ := by
    decide +kernel
  exact ⟨kept, complete.1, complete.2.1.trans swaps, quiet,
    (physicalPlace_of_holds held).trans (congrArg Except.ok moved),
    (complete.2.2.2.2.2.2 quiet).2.2.1 ⟨0, 0⟩⟩

end Layer

end StackedCache
