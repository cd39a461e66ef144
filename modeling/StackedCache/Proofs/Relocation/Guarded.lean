import StackedCache.Proofs.Relocation.Reach

/-!
# Epochs that stop at a wrong index

The turns once more, with a `Panic` wherever an entry is missing, an exchange writes beyond an array
or leaves its two arrays in disagreement, or the mapping is inconsistent at the end of an epoch.  In
a sound layer none of this happens: `guardedEpoch_eq`.
-/

namespace StackedCache

/-- What stops a guarded epoch. -/
inductive Panic where
  | noBank (id : Nat)
  | noVault (vault : Nat)
  /-- An exchange writes the source of an index that has none. -/
  | noSource (index : Nat)
  /-- An exchange of two indices leaves targets and sources in disagreement. -/
  | disagreement (a b : Nat)
  | inconsistent
  deriving DecidableEq, Repr

/-! ## Guards -/

/-- A guarded loop does what the plain loop does, if an invariant lets every step pass. -/
theorem foldlM_eq_foldl {α β : Type} {guarded : β → α → Except Panic β} {plain : β → α → β}
    (Inv : β → Prop) {xs : List α}
    (step : ∀ b, ∀ x ∈ xs, Inv b → guarded b x = pure (plain b x) ∧ Inv (plain b x)) {b : β}
    (start : Inv b) : xs.foldlM guarded b = pure (xs.foldl plain b) ∧ Inv (xs.foldl plain b) := by
  induction xs generalizing b with
  | nil => exact ⟨rfl, start⟩
  | cons x xs ih =>
      rcases step b x List.mem_cons_self start with ⟨first, next⟩
      rcases ih (fun c y hy => step c y (List.mem_cons_of_mem _ hy)) next with ⟨rest, last⟩
      refine ⟨?_, last⟩
      rw [List.foldlM_cons, first, pure_bind, rest]
      rfl

namespace Permutation

/-- Exchanges two targets and looks at the sources it has written. -/
def guardedSwap? (p : Permutation) (a b : Nat) : Except Panic (Option Permutation) :=
  match p.target? a, p.target? b with
  | some x, some y =>
      if p.sources.size ≤ x then throw (.noSource x)
      else if p.sources.size ≤ y then throw (.noSource y)
      else
        match p.swap? a b with
        | none => pure none
        | some q =>
            if q.source? x = some b ∧ q.source? y = some a then pure (some q)
            else throw (.disagreement a b)
  | _, _ => pure none

def guardedSendHome? (p : Permutation) (i : Nat) : Except Panic (Option (Nat × Permutation)) :=
  if p.fixes i then pure none
  else
    match p.source? i with
    | none => pure none
    | some occupant => do
        let exchanged ← p.guardedSwap? i occupant
        return exchanged.map fun q => (occupant, q)

/-- An exchange in an inverse permutation passes. -/
theorem Inverse.guardedSwap? {p : Permutation} {n : Nat} (h : p.Inverse n) (a b : Nat) :
    p.guardedSwap? a b = pure (p.swap? a b) := by
  unfold Permutation.guardedSwap?
  split
  · rename_i x y hx hy
    have hxn : ¬p.sources.size ≤ x := Nat.not_le.2 (h.sources_size ▸ (h.lt_of_target? hx).2)
    have hyn : ¬p.sources.size ≤ y := Nat.not_le.2 (h.sources_size ▸ (h.lt_of_target? hy).2)
    rw [if_neg hxn, if_neg hyn]
    cases hswap : p.swap? a b with
    | none => rfl
    | some q =>
        have agree := sources_of_swap? h hswap hx hy
        simp [agree]
  · rename_i hnone
    cases hswap : p.swap? a b with
    | none => rfl
    | some q =>
        rcases targets_of_swap? hswap with ⟨x, y, hx, hy⟩
        exact absurd hy (hnone x y hx)

theorem Inverse.guardedSendHome? {p : Permutation} {n : Nat} (h : p.Inverse n) (i : Nat) :
    p.guardedSendHome? i = pure (p.sendHome? i) := by
  unfold Permutation.guardedSendHome? Permutation.sendHome?
  split
  · rfl
  · cases p.source? i with
    | none => rfl
    | some occupant => simp [h.guardedSwap?]

end Permutation

namespace Layer

variable {l : Layer}

/-- Stops if there is no entry for the bank. -/
def needBank (l : Layer) (id : Nat) : Except Panic Unit :=
  if (l.bank? id).isSome then pure () else throw (.noBank id)

/-- Stops if there is no entry for the vault. -/
def needVault (l : Layer) (vault : Nat) : Except Panic Unit :=
  if (l.vault? vault).isSome then pure () else throw (.noVault vault)

def needBanks (l : Layer) (ids : List Nat) : Except Panic Unit := ids.forM l.needBank

def needVaults (l : Layer) (vaults : List Nat) : Except Panic Unit := vaults.forM l.needVault

/-- Stops if there is no entry for the vault or one of its banks. -/
def needVaultAndBanks (l : Layer) (vault : Nat) : Except Panic Unit := do
  l.needVault vault
  l.needBanks (l.geometry.bankIdsOf vault)

theorem Sound.needBank (h : l.Sound) {id : Nat} (hid : id < l.geometry.totalBanks) :
    l.needBank id = pure () := by
  rcases h.exists_bank hid with ⟨entry, hentry⟩
  simp [Layer.needBank, hentry]

theorem Sound.needVault (h : l.Sound) {vault : Nat} (hv : vault < l.geometry.vaults) :
    l.needVault vault = pure () := by
  rcases h.exists_vault hv with ⟨entry, hentry⟩
  simp [Layer.needVault, hentry]

theorem Sound.needBanks (h : l.Sound) {ids : List Nat}
    (hids : ∀ id ∈ ids, id < l.geometry.totalBanks) : l.needBanks ids = pure () := by
  induction ids with
  | nil => rfl
  | cons id ids ih =>
      have first := h.needBank (hids id List.mem_cons_self)
      have rest := ih fun i hi => hids i (List.mem_cons_of_mem _ hi)
      simpa [Layer.needBanks, first] using rest

theorem Sound.needVaults (h : l.Sound) {vaults : List Nat}
    (hvaults : ∀ v ∈ vaults, v < l.geometry.vaults) : l.needVaults vaults = pure () := by
  induction vaults with
  | nil => rfl
  | cons v vaults ih =>
      have first := h.needVault (hvaults v List.mem_cons_self)
      have rest := ih fun i hi => hvaults i (List.mem_cons_of_mem _ hi)
      simpa [Layer.needVaults, first] using rest

theorem Sound.needVaultAndBanks (h : l.Sound) {vault : Nat} (hv : vault < l.geometry.vaults) :
    l.needVaultAndBanks vault = pure () := by
  have banks := h.needBanks fun id hid => Geometry.lt_of_mem_bankIdsOf hv hid
  simp [Layer.needVaultAndBanks, h.needVault hv, banks]

end Layer

/-! ## Guarded turns -/

namespace Epoch

def guardedSwitchBank (e : Epoch) (id : Nat) : Except Panic Epoch := do
  e.layer.needBank id
  return e.switchBank id

def guardedSwitchVault (e : Epoch) (vault : Nat) : Except Panic Epoch := do
  e.layer.needVault vault
  let t := e.vaultTemperatureOf vault
  -- Only a vault that is switched off now touches the entries of its banks.
  if e.layer.vaultDisabled vault then
    return if t.below e.layer.settings.cool then e.enableVault vault else e
  else if t.reaches e.layer.settings.high then
    e.layer.needBanks (e.layer.geometry.bankIdsOf vault)
    return e.disableVault vault
  else
    return e

def guardedSendBankHome (e : Epoch) (id : Nat) : Except Panic Epoch := do
  let m := e.layer.mapping
  let slot := m.slotOf id
  match m.banks.source? slot with
  | none => return e
  | some occupant =>
      let other := m.ownerOfSlot occupant
      e.layer.needBank other
      if e.layer.bankFrozen other then return e
      else
        match ← m.banks.guardedSendHome? slot with
        | some (_, banks) =>
            return ((e.withMapping { m with banks := banks }).banksMoved id other).bankRecovered id
        | none => return e

def guardedRecoverBank (e : Epoch) (id : Nat) : Except Panic Epoch := do
  if (e.layer.temperatureOf id).reaches e.layer.settings.cool then return e
  else
    e.layer.needBank id
    if e.layer.bankDisabled id then return e.enableBank id
    else if e.bankMayGoHome id then e.guardedSendBankHome id
    else return e

def guardedSendVaultHome (e : Epoch) (vault : Nat) : Except Panic Epoch := do
  let m := e.layer.mapping
  match m.vaults.source? vault with
  | none => return e
  | some occupant =>
      e.layer.needVault occupant
      if e.layer.vaultFrozen occupant then return e
      else
        match ← m.vaults.guardedSendHome? vault with
        | some (_, vaults) =>
            e.layer.needVaultAndBanks vault
            e.layer.needVaultAndBanks occupant
            return ((e.withMapping { m with vaults := vaults }).vaultsMoved vault
              occupant).vaultRecovered vault
        | none => return e

def guardedRecoverVault (e : Epoch) (vault : Nat) : Except Panic Epoch := do
  if e.layer.mapping.vaults.fixes vault then return e
  else
    e.layer.needVault vault
    if e.vaultMayGoHome vault then e.guardedSendVaultHome vault else return e

/-- The coolest vault that may take over a hot vault's data.  The entries of the logical vaults on
all cool vaults are looked at. -/
def guardedVaultTarget? (e : Epoch) (hot : Nat) : Except Panic (Option Nat) := do
  let cool := (List.range e.layer.geometry.vaults).filter fun candidate =>
    candidate ≠ hot && (e.layer.ledger.vaultTemperature candidate).below e.layer.settings.cool
  e.layer.needVaults (cool.filterMap e.layer.mapping.vaults.source?)
  return e.vaultTarget? hot

def guardedSwapVaults (e : Epoch) (vault partner : Nat) : Except Panic Epoch := do
  let m := e.layer.mapping
  match ← m.vaults.guardedSwap? vault partner with
  | none => return e
  | some _ =>
      e.layer.needVaultAndBanks vault
      e.layer.needVaultAndBanks partner
      return e.swapVaults vault partner

def guardedRelieveVault (e : Epoch) (vault : Nat) : Except Panic Epoch := do
  e.layer.needVault vault
  if e.vaultNeedsRelief vault then
    match ← e.guardedVaultTarget? vault with
    | none => return e.fail (.noVaultTarget vault (e.layer.ledger.vaultTemperature vault))
    | some target =>
        e.guardedSwapVaults vault ((e.layer.mapping.vaults.source? target).getD target)
  else return e

/-- The coolest physical bank that may take over a hot bank's data.  The entries of the logical
banks on all cool banks in scope are looked at. -/
def guardedBankTarget? (e : Epoch) (atHome : Bool) (hot : Nat) : Except Panic (Option Nat) := do
  let cool := (e.scope hot).filter fun candidate =>
    candidate ≠ hot && (e.layer.ledger.temperature candidate).below e.layer.settings.cool
  e.layer.needBanks (cool.map e.layer.mapping.logicalOf)
  return e.bankTarget? atHome hot

def guardedSwapBanks (e : Epoch) (id partner : Nat) : Except Panic Epoch := do
  let m := e.layer.mapping
  match ← m.banks.guardedSwap? (m.slotOf id) (m.slotOf partner) with
  | none => return e
  | some _ =>
      e.layer.needBanks [id, partner]
      return e.swapBanks id partner

def guardedExchangeRow (id partner physical target : Nat) (e : Epoch) (row : Nat) :
    Except Panic Epoch := do
  match ← (e.layer.mapping.rowPermutation row).guardedSwap? physical target with
  | none => return exchangeRow id partner physical target e row
  | some _ =>
      e.layer.needBanks [id, partner]
      return exchangeRow id partner physical target e row

def guardedMigrateRows (e : Epoch) (id partner physical target : Nat) (rows : List Nat) :
    Except Panic Epoch := do
  let e ← rows.foldlM (guardedExchangeRow id partner physical target) e
  e.layer.needBanks [id, partner]
  let now := e.layer.epoch
  let e := (e.modifyBank id (·.markMoved now)).modifyBank partner (·.markMoved now)
  return e.reporting fun r =>
    { r with rowMigrations := r.rowMigrations ++ [⟨e.place id, e.place partner, rows⟩] }

def guardedAttemptRelief (e : Epoch) (relief : Relief) (id : Nat) :
    Except Panic (Bool × Epoch) := do
  let physical := e.layer.mapping.physicalOf id
  match relief with
  | .swapping =>
      if e.layer.mapping.displaced id then return (false, e)
      else
        match ← e.guardedBankTarget? true physical with
        | none => return (false, e.failBank id)
        | some target =>
            return (true, ← e.guardedSwapBanks id (e.layer.mapping.logicalOf target))
  | .migrating =>
      match ← e.guardedBankTarget? false physical with
      | none => return (false, e.failBank id)
      | some target =>
          let rows := e.rowsToMove id
          if rows.isEmpty then return (false, e)
          else
            return (true,
              ← e.guardedMigrateRows id (e.layer.mapping.logicalOf target) physical target rows)

def guardedRelieveBank (relief : Relief) (e : Epoch) (id : Nat) : Except Panic Epoch := do
  e.layer.needBank id
  e.layer.needVault (e.layer.geometry.vaultOf id)
  -- Whether the bank was displaced is asked before relief is attempted.
  if e.bankNeedsRelief id then
    let displaced := e.layer.mapping.displaced id
    let dangerous := (e.layer.temperatureOf id).reaches e.layer.settings.dangerous
    let (relieved, e) ← e.guardedAttemptRelief relief id
    return if !relieved && dangerous then e.disableBank id displaced else e
  else return e

def guardedReturnRow (row : Nat) (r : RowReturn) (home : Nat) : Except Panic RowReturn := do
  let e := r.epoch
  match e.rowMove? row home with
  | none => return r
  | some move =>
      let m := e.layer.mapping
      let cool (physical : Nat) : Bool :=
        (e.layer.ledger.temperature physical).below e.layer.settings.cool
      -- Entries of owners are read only after both banks have been found cool.
      if cool move.home && cool move.place then
        e.layer.needBanks [m.logicalOf move.home, m.logicalOf move.occupant, m.logicalOf move.place]
      if e.rowMayReturn move then
        -- The exchange is checked here and made by the plain step below.
        let _ ← (m.rowPermutation row).guardedSendHome? home
        return returnRow row r home
      else return r

def guardedReturnRowToAll (r : RowReturn) (row : Nat) : Except Panic RowReturn := do
  match r.epoch.layer.mapping.rows.find? row with
  | none => return r
  | some p => p.moved.foldlM (guardedReturnRow row) r

def guardedRecoverRows (e : Epoch) : Except Panic Epoch := do
  let r ← e.layer.mapping.rows.keys.foldlM guardedReturnRowToAll { epoch := e }
  return r.epoch.dropIdentities.reporting fun report =>
    { report with recoveredBanks := report.recoveredBanks ++ r.owners.map r.epoch.dropIdentities.place }

def guardedTake (e : Epoch) : Turn → Except Panic Epoch
  | .switchBank id => e.guardedSwitchBank id
  | .switchVault vault => e.guardedSwitchVault vault
  | .recoverBank id => e.guardedRecoverBank id
  | .recoverVault vault => e.guardedRecoverVault vault
  | .relieveVault vault => e.guardedRelieveVault vault
  | .relieveBank relief id => guardedRelieveBank relief e id
  | .recoverRows => e.guardedRecoverRows

end Epoch

/-- Runs one epoch with all guards. -/
def Layer.guardedEpoch (l : Layer) : Except Panic (Report × Layer) := do
  if l.settings.enabled then
    let e ← l.turns.foldlM Epoch.guardedTake l.nextEpoch
    if e.layer.mapping.consistent then
      return (e.countFailures.report, e.countFailures.layer)
    else
      throw .inconsistent
  else
    return (l.nextEpoch.report, l.nextEpoch.layer)

/-! ## Guards pass -/

namespace Epoch

variable {e : Epoch} {id vault : Nat}

theorem guardedSwitchBank_eq (h : e.layer.Sound) (range : id < e.layer.geometry.totalBanks) :
    e.guardedSwitchBank id = pure (e.switchBank id) := by
  simp [guardedSwitchBank, h.needBank range]

theorem guardedSwitchVault_eq (h : e.layer.Sound) (range : vault < e.layer.geometry.vaults) :
    e.guardedSwitchVault vault = pure (e.switchVault vault) := by
  have banks := h.needBanks fun id hid => Geometry.lt_of_mem_bankIdsOf range hid
  simp only [guardedSwitchVault, switchVault, h.needVault range, banks, pure_bind]
  split
  · rfl
  · split
    · rfl
    · rfl

theorem guardedSendBankHome_eq (h : e.layer.Sound) (id : Nat) :
    e.guardedSendBankHome id = pure (e.sendBankHome id) := by
  simp only [guardedSendBankHome, sendBankHome]
  cases hsource : e.layer.mapping.banks.source? (e.layer.mapping.slotOf id) with
  | none => rfl
  | some occupant =>
      -- The owner of an occupied slot is in range, since the banks are an inverse pair.
      have occupant_lt := (h.mapping.banks.lt_of_source? hsource).1
      have other := h.needBank (h.mapping.ownerOfSlot_lt occupant_lt)
      simp only [other, h.mapping.banks.guardedSendHome?, pure_bind]
      split
      · rfl
      · cases e.layer.mapping.banks.sendHome? (e.layer.mapping.slotOf id) with
        | none => rfl
        | some sent => rfl

theorem guardedRecoverBank_eq (h : e.layer.Sound) (range : id < e.layer.geometry.totalBanks) :
    e.guardedRecoverBank id = pure (e.recoverBank id) := by
  simp only [guardedRecoverBank, recoverBank, h.needBank range, guardedSendBankHome_eq h, pure_bind]
  split
  · rfl
  · split
    · rfl
    · split
      · rfl
      · rfl

theorem guardedSendVaultHome_eq (h : e.layer.Sound) (range : vault < e.layer.geometry.vaults) :
    e.guardedSendVaultHome vault = pure (e.sendVaultHome vault) := by
  simp only [guardedSendVaultHome, sendVaultHome]
  cases hsource : e.layer.mapping.vaults.source? vault with
  | none => rfl
  | some occupant =>
      have occupant_lt := (h.mapping.vaults.lt_of_source? hsource).1
      simp only [h.needVault occupant_lt, h.needVaultAndBanks range,
        h.needVaultAndBanks occupant_lt, h.mapping.vaults.guardedSendHome?, pure_bind]
      split
      · rfl
      · cases e.layer.mapping.vaults.sendHome? vault with
        | none => rfl
        | some sent => rfl

theorem guardedRecoverVault_eq (h : e.layer.Sound) (range : vault < e.layer.geometry.vaults) :
    e.guardedRecoverVault vault = pure (e.recoverVault vault) := by
  simp only [guardedRecoverVault, recoverVault, h.needVault range, guardedSendVaultHome_eq h range,
    pure_bind]
  split
  · rename_i home
    simp [vaultMayGoHome, home]
  · split
    · rfl
    · rfl

theorem guardedVaultTarget?_eq (h : e.layer.Sound) (hot : Nat) :
    e.guardedVaultTarget? hot = pure (e.vaultTarget? hot) := by
  -- Whatever filter the search applies, an owner it finds is a vault of the stack.
  have owners : ∀ candidates : List Nat,
      e.layer.needVaults (candidates.filterMap e.layer.mapping.vaults.source?) = pure () := by
    intro candidates
    apply h.needVaults
    intro owner howner
    rcases List.mem_filterMap.1 howner with ⟨candidate, _, hsource⟩
    exact (h.mapping.vaults.lt_of_source? hsource).1
  simp only [guardedVaultTarget?, owners, pure_bind]

theorem guardedSwapVaults_eq {partner : Nat} (h : e.layer.Sound)
    (vault_lt : vault < e.layer.geometry.vaults)
    (partner_lt : partner < e.layer.geometry.vaults) :
    e.guardedSwapVaults vault partner = pure (e.swapVaults vault partner) := by
  simp only [guardedSwapVaults, h.mapping.vaults.guardedSwap?, h.needVaultAndBanks vault_lt,
    h.needVaultAndBanks partner_lt, pure_bind]
  cases hswap : e.layer.mapping.vaults.swap? vault partner with
  | none => simp [swapVaults, hswap]
  | some q => rfl

theorem guardedRelieveVault_eq (h : e.layer.Sound) (range : vault < e.layer.geometry.vaults) :
    e.guardedRelieveVault vault = pure (e.relieveVault vault) := by
  simp only [guardedRelieveVault, relieveVault, h.needVault range, guardedVaultTarget?_eq h,
    pure_bind]
  split
  · cases found : e.vaultTarget? vault with
    | none => rfl
    | some target =>
        have partner_lt := h.mapping.vaults.source_lt (vaultTarget?_range found).1
        exact guardedSwapVaults_eq h range partner_lt
  · rfl

theorem guardedBankTarget?_eq {hot : Nat} (h : e.layer.Sound) (atHome : Bool)
    (hot_lt : hot < e.layer.geometry.totalBanks) :
    e.guardedBankTarget? atHome hot = pure (e.bankTarget? atHome hot) := by
  have owners : ∀ keep : Nat → Bool,
      e.layer.needBanks (((e.scope hot).filter keep).map e.layer.mapping.logicalOf) = pure () := by
    intro keep
    apply h.needBanks
    intro owner howner
    rcases List.mem_map.1 howner with ⟨candidate, hcandidate, rfl⟩
    exact h.mapping.logicalOf_lt (scope_lt hot_lt (List.mem_filter.1 hcandidate).1)
  simp only [guardedBankTarget?, owners, pure_bind]

theorem needBanks_pair {partner : Nat} (h : e.layer.Sound)
    (id_lt : id < e.layer.geometry.totalBanks)
    (partner_lt : partner < e.layer.geometry.totalBanks) :
    e.layer.needBanks [id, partner] = pure () :=
  h.needBanks (by simp [id_lt, partner_lt])

theorem guardedSwapBanks_eq {partner : Nat} (h : e.layer.Sound)
    (id_lt : id < e.layer.geometry.totalBanks) (partner_lt : partner < e.layer.geometry.totalBanks) :
    e.guardedSwapBanks id partner = pure (e.swapBanks id partner) := by
  simp only [guardedSwapBanks, h.mapping.banks.guardedSwap?, needBanks_pair h id_lt partner_lt,
    pure_bind]
  cases hswap : e.layer.mapping.banks.swap? (e.layer.mapping.slotOf id)
      (e.layer.mapping.slotOf partner) with
  | none => simp [swapBanks, hswap]
  | some q => rfl

theorem guardedExchangeRow_eq {partner : Nat} (h : e.layer.Sound)
    (id_lt : id < e.layer.geometry.totalBanks) (partner_lt : partner < e.layer.geometry.totalBanks)
    (physical target row : Nat) :
    guardedExchangeRow id partner physical target e row =
      pure (exchangeRow id partner physical target e row) := by
  simp only [guardedExchangeRow, (h.mapping.rowPermutation_inverse row).guardedSwap?,
    needBanks_pair h id_lt partner_lt, pure_bind]
  cases (e.layer.mapping.rowPermutation row).swap? physical target with
  | none => rfl
  | some q => rfl

theorem guardedMigrateRows_eq {partner physical target : Nat} (h : e.layer.Sound)
    (id_lt : id < e.layer.geometry.totalBanks) (partner_lt : partner < e.layer.geometry.totalBanks)
    (physical_lt : physical < e.layer.geometry.totalBanks)
    (target_lt : target < e.layer.geometry.totalBanks)
    (owner : e.layer.mapping.logicalOf physical = id)
    (other : e.layer.mapping.logicalOf target = partner) (rows : List Nat) :
    e.guardedMigrateRows id partner physical target rows =
      pure (e.migrateRows id partner physical target rows) := by
  -- Rows change no owner, so the two banks own the same places throughout the loop.
  let Inv (e' : Epoch) : Prop :=
    e'.layer.Sound ∧ e'.layer.geometry = e.layer.geometry ∧
      e'.layer.mapping.logicalOf = e.layer.mapping.logicalOf
  have step : ∀ e', ∀ row ∈ rows, Inv e' →
      guardedExchangeRow id partner physical target e' row =
          pure (exchangeRow id partner physical target e' row) ∧
        Inv (exchangeRow id partner physical target e' row) := by
    intro e' row _ inv
    rcases inv with ⟨sound, hg, hm⟩
    obtain ⟨change, same⟩ := exchangeRow_change row sound (hg ▸ physical_lt) (hg ▸ target_lt)
      (hm ▸ owner) (hm ▸ other)
    have change := Layer.Change.rows change
    exact ⟨guardedExchangeRow_eq sound (hg ▸ id_lt) (hg ▸ partner_lt) physical target row,
      change.sound sound, change.frame.geometry.trans hg, same.trans hm⟩
  rcases foldlM_eq_foldl Inv step ⟨h, rfl, rfl⟩ with ⟨passed, sound, hg, _⟩
  have marked := needBanks_pair sound (hg ▸ id_lt) (hg ▸ partner_lt)
  simp only [guardedMigrateRows, passed, marked, pure_bind]
  rfl

theorem guardedAttemptRelief_eq (h : e.layer.Sound) (range : id < e.layer.geometry.totalBanks)
    (relief : Relief) :
    e.guardedAttemptRelief relief id = pure (e.attemptRelief relief id) := by
  have physical_lt := h.mapping.physicalOf_lt range
  cases relief with
  | swapping =>
      simp only [guardedAttemptRelief, attemptRelief, guardedBankTarget?_eq h true physical_lt,
        pure_bind]
      split
      · rfl
      · cases found : e.bankTarget? true (e.layer.mapping.physicalOf id) with
        | none => rfl
        | some target =>
            have target_lt := (bankTarget?_range found physical_lt).1
            simp [guardedSwapBanks_eq h range (h.mapping.logicalOf_lt target_lt)]
  | migrating =>
      simp only [guardedAttemptRelief, attemptRelief, guardedBankTarget?_eq h false physical_lt,
        pure_bind]
      cases found : e.bankTarget? false (e.layer.mapping.physicalOf id) with
      | none => rfl
      | some target =>
          have target_lt := (bankTarget?_range found physical_lt).1
          have passed := guardedMigrateRows_eq h range (h.mapping.logicalOf_lt target_lt)
            physical_lt target_lt (h.mapping.logicalOf_physicalOf id) rfl
          simp only [passed, pure_bind]
          split
          · rfl
          · rfl

theorem guardedRelieveBank_eq (h : e.layer.Sound) (range : id < e.layer.geometry.totalBanks)
    (relief : Relief) : guardedRelieveBank relief e id = pure (relieveBank relief e id) := by
  simp only [guardedRelieveBank, relieveBank, h.needBank range,
    h.needVault (Geometry.vaultOf_lt range), guardedAttemptRelief_eq h range relief, pure_bind]
  split
  · rfl
  · rfl

theorem guardedReturnRow_eq {r : RowReturn} (h : r.epoch.layer.Sound) (row home : Nat) :
    guardedReturnRow row r home = pure (returnRow row r home) := by
  cases hmove : r.epoch.rowMove? row home with
  | none => simp [guardedReturnRow, returnRow, hmove]
  | some move =>
      rcases rowMove?_eq_some_iff.1 hmove with ⟨p, hfind, rfl, _, hsource, htarget⟩
      -- Home, occupant and place come out of one row's permutation, hence are in range.
      have hp := h.mapping.rows _ (Table.mem_of_find? hfind)
      rcases hp.lt_of_source? hsource with ⟨occupant_lt, home_lt⟩
      rcases hp.lt_of_target? htarget with ⟨_, place_lt⟩
      have owners : r.epoch.layer.needBanks
          [r.epoch.layer.mapping.logicalOf move.home, r.epoch.layer.mapping.logicalOf move.occupant,
            r.epoch.layer.mapping.logicalOf move.place] = pure () :=
        h.needBanks (by
          simp only [List.mem_cons, List.not_mem_nil, or_false, forall_eq_or_imp, forall_eq]
          exact ⟨h.mapping.logicalOf_lt home_lt, h.mapping.logicalOf_lt occupant_lt,
            h.mapping.logicalOf_lt place_lt⟩)
      simp only [guardedReturnRow, hmove, owners,
        (h.mapping.rowPermutation_inverse row).guardedSendHome?, pure_bind]
      split
      · split
        · simp
        · rename_i stays
          simp [returnRow, hmove, stays]
      · split
        · simp
        · rename_i stays
          simp [returnRow, hmove, stays]

theorem guardedReturnRowToAll_eq {r : RowReturn} (h : r.epoch.layer.Sound) (row : Nat) :
    guardedReturnRowToAll r row = pure (returnRowToAll r row) ∧
      (returnRowToAll r row).epoch.layer.Sound := by
  simp only [guardedReturnRowToAll, returnRowToAll]
  cases r.epoch.layer.mapping.rows.find? row with
  | none => exact ⟨rfl, h⟩
  | some p =>
      refine foldlM_eq_foldl (fun r : RowReturn => r.epoch.layer.Sound) (fun r home _ sound => ?_) h
      exact ⟨guardedReturnRow_eq sound row home,
        (Layer.Change.rows (returnRow_change sound)).sound sound⟩

theorem guardedRecoverRows_eq (h : e.layer.Sound) :
    e.guardedRecoverRows = pure e.recoverRows := by
  have step : ∀ r, ∀ row ∈ e.layer.mapping.rows.keys, r.epoch.layer.Sound →
      guardedReturnRowToAll r row = pure (returnRowToAll r row) ∧
        (returnRowToAll r row).epoch.layer.Sound :=
    fun _ row _ sound => guardedReturnRowToAll_eq sound row
  have returned := foldlM_eq_foldl (fun r : RowReturn => r.epoch.layer.Sound) step (b := ⟨e, []⟩) h
  simp only [guardedRecoverRows, returned.1, pure_bind]
  rfl

/-- All guards of a turn pass in a sound layer. -/
theorem guardedTake_eq {t : Turn} (h : e.layer.Sound) (within : t.Within e.layer.geometry) :
    e.guardedTake t = pure (e.take t) := by
  cases t with
  | switchBank id => exact guardedSwitchBank_eq h within
  | switchVault vault => exact guardedSwitchVault_eq h within
  | recoverBank id => exact guardedRecoverBank_eq h within
  | recoverVault vault => exact guardedRecoverVault_eq h within
  | relieveVault vault => exact guardedRelieveVault_eq h within
  | relieveBank relief id => exact guardedRelieveBank_eq h within relief
  | recoverRows => exact guardedRecoverRows_eq h

end Epoch

/-- A sound layer runs its epoch without a panic. -/
theorem Layer.Sound.guardedEpoch_eq {l : Layer} (h : l.Sound) :
    l.guardedEpoch = .ok l.runEpoch := by
  -- The turns are those of the geometry at the start, so the invariant keeps it.
  let Inv (e : Epoch) : Prop := e.layer.Sound ∧ e.layer.geometry = l.geometry
  have step : ∀ e, ∀ t ∈ l.turns, Inv e → e.guardedTake t = pure (e.take t) ∧ Inv (e.take t) := by
    intro e t ht inv
    rcases inv with ⟨sound, hg⟩
    have within : t.Within e.layer.geometry := hg ▸ Layer.turns_within ht
    have change := Epoch.take_change sound within
    exact ⟨Epoch.guardedTake_eq sound within, change.sound sound, change.frame.geometry.trans hg⟩
  have start := Layer.nextEpoch_sound h
  rcases foldlM_eq_foldl Inv step ⟨start, rfl⟩ with ⟨passed, sound, _⟩
  unfold Layer.guardedEpoch Layer.runEpoch
  cases henabled : l.settings.enabled with
  | false => rfl
  | true =>
      have turns : l.turns = l.settings.turns l.geometry := by simp [Layer.turns, henabled]
      have passes : l.nextEpoch.apply l.settings = l.turns.foldl Epoch.take l.nextEpoch := by
        rw [Epoch.apply_eq start, turns]
        rfl
      simp only [passed, passes, sound.mapping.consistent, if_true, pure_bind]
      rfl

end StackedCache
