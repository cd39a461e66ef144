import StackedCache.Proofs.Relocation.Journal
import StackedCache.Proofs.Relocation.Outcome
import StackedCache.Proofs.Relocation.Sweep
import StackedCache.Proofs.Settings.Valid

/-!
# Thermal safety

After an epoch, no bank stays in use on a dangerously hot physical bank unless it, or its vault, has
moved too recently; and where vaults have no turns, no bank stays out of use on a cool one.

Both are proved pass by pass: the turn of a bank establishes the property for that bank, and the
other turns keep it, although they move banks onto the places it depends on.
-/

namespace StackedCache

open Relation (ReflTransGen)

namespace Layer

variable {l l' : Layer} {id : Nat}

/-! ## Dangerous heat -/

/-- The bank is not on dangerously hot silicon, or it is out of use, or it or its vault has moved
recently. -/
def Covered (l : Layer) (id : Nat) : Prop :=
  (l.temperatureOf id).reaches l.settings.dangerous = true →
    l.idDisabled id = true ∨ l.bankFrozen id = true ∨ l.vaultFrozen (l.geometry.vaultOf id) = true

/-- A change that neither moves a bank nor takes it into use leaves it covered. -/
theorem Covered.change (h : l.Covered id) (change : Change l l')
    (place : l'.temperatureOf id = l.temperatureOf id)
    (bank : l.bankDisabled id = true → l'.bankDisabled id = true) (vaults : l'.vaults = l.vaults) :
    l'.Covered id := by
  intro hot
  have frame := change.frame
  rw [place, frame.settings] at hot
  rw [frame.geometry]
  rcases h hot with off | frozen | frozen
  · left
    simp only [idDisabled, Bool.or_eq_true] at off ⊢
    have same : ∀ v, l'.vaultDisabled v = l.vaultDisabled v := by
      intro v
      simp only [vaultDisabled, vault?, vaults]
    rw [same, frame.geometry]
    exact off.imp_left bank
  · exact .inr (.inl (change.ages.bankFrozen frame frozen))
  · exact .inr (.inr (change.ages.vaultFrozen frame frozen))

end Layer

namespace Epoch

open Layer

variable {s : RelocationSettings} {g : Geometry} {e e' : Epoch} {id other : Nat}

/-- The relief of a bank covers it: it changes place, or it is dangerously hot and given up. -/
theorem relieveBank_covers (valid : s.Valid) (relief : Relief) (h : e.layer.Under s g)
    (range : id < g.totalBanks) : (relieveBank relief e id).layer.Covered id := by
  have range : id < e.layer.geometry.totalBanks := h.geometry ▸ range
  have outcome := relieveBank_outcome relief e id
  generalize relieveBank relief e id = e' at outcome
  cases outcome with
  | notNeeded calm =>
      intro hot
      rw [h.settings] at hot
      have notBelow : (e.layer.temperatureOf id).below e.layer.settings.high = false := by
        rw [h.settings]
        exact Celsius.below_of_reaches (valid.reaches_high hot)
      -- A dangerously hot bank is spared only for being out of use or in a cooldown.
      simpa only [bankNeedsRelief, notBelow, Bool.not_false, Bool.and_true, Bool.and_eq_false_iff,
        Bool.not_eq_false', or_assoc] using calm
  | borne noted needy mild =>
      intro hot
      rw [layer_of_noted noted, mild] at hot
      cases hot
  | givenUp noted needy dangerous =>
      intro _
      rcases disableBank_layer _ id (e.layer.mapping.displaced id) with ⟨c, disabled⟩
      rw [disabled, layer_of_noted noted]
      have off := bankDisabled_disable h.sound range (e.layer.mapping.displaced id)
      left
      rw [idDisabled, Bool.or_eq_true]
      exact .inl off
  | swapped target needy home found =>
      intro _
      rcases swapBanks_exchange h.sound range found with ⟨partner_lt, _, q, c, swap, moved⟩
      rw [moved]
      exact .inr (.inl (bankFrozen_exchangeBanks h.sound range partner_lt swap c (.inl rfl)))
  | migrated target needy found =>
      intro _
      exact .inr (.inl (migrateRows_frozen h.sound range found _ (.inl rfl)))

/-- The relief of one bank leaves the others covered; its partner is in a cooldown then. -/
theorem relieveBank_keeps_covered (relief : Relief) (h : e.layer.Under s g)
    (range : id < g.totalBanks) (ne : other ≠ id) (covered : e.layer.Covered other) :
    (relieveBank relief e id).layer.Covered other := by
  have range : id < e.layer.geometry.totalBanks := h.geometry ▸ range
  have change : Change e.layer (relieveBank relief e id).layer :=
    take_change (t := .relieveBank relief id) h.sound range
  have vaults := relieveBank_vaults relief e id
  have outcome := relieveBank_outcome relief e id
  generalize relieveBank relief e id = e' at outcome change vaults
  cases outcome with
  | notNeeded calm => exact covered
  | borne noted needy mild => rwa [layer_of_noted noted]
  | givenUp noted needy dangerous =>
      rcases disableBank_layer _ id (e.layer.mapping.displaced id) with ⟨c, disabled⟩
      rw [disabled, layer_of_noted noted] at change vaults ⊢
      refine covered.change change rfl (fun off => ?_) vaults
      exact (bankDisabled_modifyBank_ne ne).trans off
  | swapped target needy home found =>
      rcases swapBanks_exchange h.sound range found with ⟨partner_lt, _, q, c, swap, moved⟩
      rw [moved] at change vaults ⊢
      by_cases partner : other = e.layer.mapping.logicalOf target
      · exact fun _ =>
          .inr (.inl (bankFrozen_exchangeBanks h.sound range partner_lt swap c (.inr partner)))
      · have place := temperatureOf_exchangeBanks h.sound range partner_lt swap c other
        rw [if_neg partner, if_neg ne] at place
        refine covered.change change place (fun off => ?_) vaults
        exact (bankDisabled_exchangeBanks e.layer q _ _ c other).trans off
  | migrated target needy found =>
      have kept := rows_kept (migrateRows_change h.sound range found (e.rowsToMove id)) other
      exact covered.change change kept.1 (fun off => kept.2.trans off) vaults

/-- The switch of a bank covers it: a dangerously hot bank is out of use afterwards. -/
theorem switchBank_covers (valid : s.Valid) (h : e.layer.Under s g) (range : id < g.totalBanks) :
    (e.switchBank id).layer.Covered id := by
  have range : id < e.layer.geometry.totalBanks := h.geometry ▸ range
  have hot_high : ∀ {t : Celsius}, t.reaches e.layer.settings.dangerous = true →
      t.reaches e.layer.settings.high = true := by
    intro t
    rw [h.settings]
    exact valid.reaches_high
  have high_cool : ∀ {t : Celsius}, t.reaches e.layer.settings.high = true →
      t.below e.layer.settings.cool = false := by
    intro t
    rw [h.settings]
    exact fun high => Celsius.below_of_reaches (valid.reaches_cool high)
  unfold switchBank
  dsimp only
  split
  · rename_i off
    split
    · rename_i cool
      intro hot
      have hot : (e.layer.temperatureOf id).reaches e.layer.settings.dangerous = true := hot
      rw [high_cool (hot_high hot)] at cool
      cases cool
    · intro _
      left
      rw [idDisabled, off, Bool.true_or]
  · split
    · intro _
      left
      rcases disableBank_layer e id false with ⟨c, disabled⟩
      rw [disabled, idDisabled, Bool.or_eq_true]
      exact .inl (bankDisabled_disable h.sound range false)
    · rename_i mild
      exact fun hot => absurd (hot_high hot) mild

end Epoch

namespace RelocationSettings

variable {s : RelocationSettings}

/-- A policy for banks ends its epochs with a pass in which every bank is switched or relieved. -/
theorem turns_last (g : Geometry) (policy : s.policy ≠ .vaultDisable) :
    ∃ (first : List Turn) (last : Nat → Turn), s.turns g = first ++ g.bankIds.map last ∧
      (last = .switchBank ∨ ∃ relief, last = .relieveBank relief) := by
  have passes : ∃ first last, s.passes = first ++ [last] ∧
      (last = .switchBanks ∨ ∃ relief, last = .relieveBanks relief) := by
    unfold RelocationSettings.passes
    cases hp : s.policy with
    | disable => exact ⟨[], _, rfl, .inl rfl⟩
    | vaultDisable => exact absurd hp policy
    | swap => exact ⟨_, _, rfl, .inr ⟨_, rfl⟩⟩
    | hybrid => exact ⟨[.recoverBanks, .recoverRows], _, rfl, .inr ⟨_, rfl⟩⟩
  rcases passes with ⟨first, last, passes, kind⟩
  have turns : s.turns g = first.flatMap (Pass.turns g) ++ last.turns g := by
    simp [RelocationSettings.turns, passes]
  rcases kind with rfl | ⟨relief, rfl⟩
  · exact ⟨_, _, turns, .inl rfl⟩
  · exact ⟨_, _, turns, .inr ⟨_, rfl⟩⟩

end RelocationSettings

namespace Layer

open Epoch

variable {s : RelocationSettings} {g : Geometry} {l : Layer}

/-- After an epoch for banks all banks are covered. -/
theorem runEpoch_covered (valid : s.Valid) (h : l.Under s g) (enabled : s.enabled = true)
    (policy : s.policy ≠ .vaultDisable) : ∀ id < g.totalBanks, l.runEpoch.2.Covered id := by
  rcases runEpoch_takeAll h enabled with ⟨c, ends⟩
  rcases s.turns_last g policy with ⟨first, last, turns, kind⟩
  have within : ∀ t ∈ s.turns g, t.Within g := fun t ht => RelocationSettings.turns_within ht
  rw [turns] at within
  have under := h.nextEpoch.takeAll fun t ht => within t (List.mem_append_left _ ht)
  intro id range
  have settled : (((l.nextEpoch.takeAll first).takeAll (g.bankIds.map last)).layer).Covered id := by
    refine takeAll_establishes (s := s) (g := g) (fun id hid => within _ (List.mem_append_right _
      (List.mem_map_of_mem hid))) ?_ ?_ under id (Geometry.mem_bankIds.2 range)
    · intro e id hid h
      have range := Geometry.mem_bankIds.1 hid
      rcases kind with rfl | ⟨relief, rfl⟩
      · exact switchBank_covers valid h range
      · exact relieveBank_covers valid relief h range
    · intro e id hid other _ h ne covered
      have range := Geometry.mem_bankIds.1 hid
      rcases kind with rfl | ⟨relief, rfl⟩
      · rcases switchBank_other e ne with ⟨place, bank, vaults⟩
        have change : Change e.layer (e.switchBank id).layer :=
          take_change (t := .switchBank id) h.sound (h.geometry ▸ range)
        exact covered.change change place (fun off => bank.trans off) vaults
      · exact relieveBank_keeps_covered relief h range ne covered
  rw [ends, turns, takeAll_append]
  exact settled

end Layer

/-! ## Cool banks -/

/-- Vaults have no turns. -/
structure RelocationSettings.BanksOnly (s : RelocationSettings) : Prop where
  policy : s.policy ≠ .vaultDisable
  scope : s.policy = .swap → s.interVault = false

namespace RelocationSettings.BanksOnly

variable {s : RelocationSettings}

/-- A policy that moves data recovers all banks first, and then no bank is taken into use. -/
theorem turns_recover (h : s.BanksOnly) (g : Geometry) (moves : s.policy ≠ .disable) :
    ∃ rest, s.turns g = g.bankIds.map .recoverBank ++ rest ∧
      ∀ t ∈ rest, t = .recoverRows ∨ ∃ relief id, t = .relieveBank relief id := by
  have passes : ∃ rest, s.passes = .recoverBanks :: rest ∧
      ∀ p ∈ rest, p = .recoverRows ∨ ∃ relief, p = .relieveBanks relief := by
    unfold RelocationSettings.passes
    cases policy : s.policy with
    | disable => exact absurd policy moves
    | vaultDisable => exact absurd policy h.policy
    | swap => exact ⟨_, rfl, by simp [h.scope policy]⟩
    | hybrid => exact ⟨_, rfl, by simp⟩
  rcases passes with ⟨rest, passes, kinds⟩
  refine ⟨rest.flatMap (Pass.turns g), by simp [RelocationSettings.turns, passes, Pass.turns], ?_⟩
  intro t ht
  rcases List.mem_flatMap.1 ht with ⟨p, hp, ht⟩
  rcases kinds p hp with rfl | ⟨relief, rfl⟩
  · exact .inl (List.mem_singleton.1 ht)
  · rcases List.mem_map.1 ht with ⟨id, _, rfl⟩
    exact .inr ⟨relief, id, rfl⟩

theorem turns_ofBanks (h : s.BanksOnly) (g : Geometry) : ∀ t ∈ s.turns g, t.OfBanks := by
  intro t ht
  by_cases disable : s.policy = .disable
  · have turns : s.turns g = g.bankIds.map .switchBank := by
      simp [RelocationSettings.turns, RelocationSettings.passes, disable, Pass.turns]
    rw [turns] at ht
    rcases List.mem_map.1 ht with ⟨id, _, rfl⟩
    trivial
  · rcases h.turns_recover g disable with ⟨rest, turns, kinds⟩
    rw [turns] at ht
    rcases List.mem_append.1 ht with recovers | later
    · rcases List.mem_map.1 recovers with ⟨id, _, rfl⟩
      trivial
    · rcases kinds t later with rfl | ⟨relief, id, rfl⟩ <;> trivial

end RelocationSettings.BanksOnly

namespace Layer

/-- The bank is out of use only while its physical bank is not cool. -/
def Warm (l : Layer) (id : Nat) : Prop :=
  l.bankDisabled id = true → (l.temperatureOf id).reaches l.settings.cool = true

/-- The bank is out of use only while its physical bank is not below the bound of cool banks. -/
def NotCool (l : Layer) (id : Nat) : Prop :=
  l.bankDisabled id = true → (l.temperatureOf id).below l.settings.cool = false

theorem Warm.notCool {l : Layer} {id : Nat} (h : l.Warm id) : l.NotCool id :=
  fun off => Celsius.below_of_reaches (h off)

theorem Warm.rows {l l' : Layer} {id : Nat} (h : l.Warm id) (steps : ReflTransGen RowChange l l') :
    l'.Warm id := by
  intro off
  have kept := rows_kept steps id
  rw [kept.1, (Change.rows steps).frame.settings]
  exact h (kept.2.symm.trans off)

end Layer

namespace Epoch

open Layer

variable {s : RelocationSettings} {g : Geometry} {e e' : Epoch} {t : Turn} {id other : Nat}

/-- The switch of a bank leaves it out of use only where it is not cool. -/
theorem switchBank_notCool (valid : s.Valid) (h : e.layer.Under s g) (id : Nat) :
    (e.switchBank id).layer.NotCool id := by
  unfold switchBank
  dsimp only
  split
  · split
    · intro still
      have on : (e.enableBank id).layer.bankDisabled id = false := bankDisabled_enable e.layer id
      rw [on] at still
      cases still
    · rename_i mild
      exact fun _ => by simpa using mild
  · rename_i on
    split
    · rename_i hot
      intro _
      rcases disableBank_layer e id false with ⟨c, disabled⟩
      rw [disabled]
      have cool := valid.reaches_cool (h.settings ▸ hot)
      rw [← h.settings] at cool
      exact Celsius.below_of_reaches cool
    · exact fun off => absurd off on

/-- The recovery of a bank leaves it out of use only where it is warm. -/
theorem recoverBank_warm (h : e.layer.Sound) (id : Nat) : (e.recoverBank id).layer.Warm id := by
  have outcome := recoverBank_outcome e id
  generalize e.recoverBank id = e' at outcome
  cases outcome with
  | tooWarm warm => exact fun _ => warm
  | inUse on =>
      intro off
      rw [on] at off
      cases off
  | enabled off =>
      intro still
      have on : (e.enableBank id).layer.bankDisabled id = false := bankDisabled_enable e.layer id
      rw [on] at still
      cases still
  | sentHome on cool =>
      intro off
      rcases sendBankHome_exchange h id with stays | ⟨other, q, c, _, _, _, _, _, moved⟩
      · rw [stays, on] at off
        cases off
      · rw [moved, bankDisabled_exchangeBanks, on] at off
        cases off

/-- The recovery of a bank keeps the others warm.  A bank that gives up its place for it was on cool
silicon, so it was in use. -/
theorem recoverBank_keeps_warm (h : e.layer.Sound) (range : id < e.layer.geometry.totalBanks)
    (ne : other ≠ id) (warm : e.layer.Warm other) : (e.recoverBank id).layer.Warm other := by
  have outcome := recoverBank_outcome e id
  generalize e.recoverBank id = e' at outcome
  cases outcome with
  | tooWarm _ => exact warm
  | inUse on => exact warm
  | enabled off =>
      intro still
      have same : (e.enableBank id).layer.bankDisabled other = e.layer.bankDisabled other :=
        bankDisabled_modifyBank_ne ne
      exact warm (same.symm.trans still)
  | sentHome on cool =>
      rcases sendBankHome_exchange h id with
        stays | ⟨owner, q, c, owner_lt, _, _, place, swap, moved⟩
      · rwa [stays]
      · intro off
        rw [moved] at off ⊢
        rw [bankDisabled_exchangeBanks] at off
        have hot := warm off
        by_cases heq : other = owner
        · rw [heq, temperatureOf, place, cool] at hot
          cases hot
        · have same := temperatureOf_exchangeBanks h range owner_lt swap c other
          rw [if_neg heq, if_neg ne] at same
          rw [same]
          exact hot

/-- The relief of a bank keeps all banks warm: those that move are in use, and those that are given
up are dangerously hot. -/
theorem relieveBank_keeps_warm (valid : s.Valid) (relief : Relief) (h : e.layer.Under s g)
    (range : id < g.totalBanks) (warm : e.layer.Warm other) :
    (relieveBank relief e id).layer.Warm other := by
  have range : id < e.layer.geometry.totalBanks := h.geometry ▸ range
  have outcome := relieveBank_outcome relief e id
  generalize relieveBank relief e id = e' at outcome
  cases outcome with
  | notNeeded calm => exact warm
  | borne noted needy mild => rwa [layer_of_noted noted]
  | givenUp noted needy dangerous =>
      rcases disableBank_layer _ id (e.layer.mapping.displaced id) with ⟨c, disabled⟩
      rw [disabled, layer_of_noted noted]
      intro off
      by_cases heq : other = id
      · subst heq
        have hot : (e.layer.temperatureOf other).reaches s.dangerous = true :=
          h.settings ▸ dangerous
        have cool := valid.reaches_cool (valid.reaches_high hot)
        rw [← h.settings] at cool
        exact cool
      · exact warm ((bankDisabled_modifyBank_ne heq).symm.trans off)
  | swapped target needy home found =>
      rcases swapBanks_exchange h.sound range found with ⟨partner_lt, _, q, c, swap, moved⟩
      rw [moved]
      intro off
      rw [bankDisabled_exchangeBanks] at off
      have stays : other ≠ e.layer.mapping.logicalOf target ∧ other ≠ id := by
        constructor
        · rintro rfl
          rw [bankDisabled_of_target found] at off
          cases off
        · rintro rfl
          rw [bankDisabled_of_needy needy] at off
          cases off
      have same := temperatureOf_exchangeBanks h.sound range partner_lt swap c other
      rw [if_neg stays.1, if_neg stays.2] at same
      rw [same]
      exact warm off
  | migrated target needy found =>
      have moved := migrateRows_change h.sound range found (e.rowsToMove id)
      exact warm.rows moved

end Epoch

namespace Layer

open Epoch

variable {s : RelocationSettings} {g : Geometry} {l l' : Layer} {id : Nat}

/-- Without moves of data, every bank is switched by its own temperature. -/
theorem takeAll_switch_notCool {e : Epoch} (valid : s.Valid) (h : e.layer.Under s g) :
    ∀ id ∈ g.bankIds, (e.takeAll (g.bankIds.map .switchBank)).layer.NotCool id := by
  refine takeAll_establishes (fun id hid => Geometry.mem_bankIds.1 hid) ?_ ?_ h
  · exact fun e id _ h => switchBank_notCool valid h id
  · intro e id hid other _ h ne mild off
    rcases switchBank_other e ne with ⟨place, bank, _⟩
    have range : id < e.layer.geometry.totalBanks := h.geometry ▸ Geometry.mem_bankIds.1 hid
    rw [(take_change (t := .switchBank id) h.sound range).frame.settings]
    exact place ▸ mild (bank.symm.trans off)

/-- A policy that moves data leaves no bank out of use on a cool physical bank. -/
theorem takeAll_recover_notCool {e : Epoch} (valid : s.Valid) (h : e.layer.Under s g)
    (banks : s.BanksOnly) (moves : s.policy ≠ .disable) :
    ∀ id ∈ g.bankIds, (e.takeAll (s.turns g)).layer.NotCool id := by
  have within : ∀ t ∈ s.turns g, t.Within g := fun t ht => RelocationSettings.turns_within ht
  rcases banks.turns_recover g moves with ⟨rest, turns, kinds⟩
  rw [turns] at within ⊢
  rw [takeAll_append]
  have recovered : ∀ id ∈ g.bankIds, (e.takeAll (g.bankIds.map .recoverBank)).layer.Warm id := by
    refine takeAll_establishes (fun id hid => Geometry.mem_bankIds.1 hid) ?_ ?_ h
    · exact fun e id _ h => recoverBank_warm h.sound id
    · intro e id hid other _ h ne warm
      exact recoverBank_keeps_warm h.sound (h.geometry ▸ Geometry.mem_bankIds.1 hid) ne warm
  have under := h.takeAll fun t ht => within t (List.mem_append_left _ ht)
  -- The later turns take no bank into use, so they need not establish anything anew.
  have kept : ∀ id ∈ g.bankIds,
      ((e.takeAll (g.bankIds.map .recoverBank)).takeAll rest).layer.Warm id := by
    refine takeAll_keeps (P := fun l => ∀ id ∈ g.bankIds, l.Warm id)
      (fun t ht => within t (List.mem_append_right _ ht)) ?_ under recovered
    intro e t ht h warm id hid
    rcases kinds t ht with rfl | ⟨relief, i, rfl⟩
    · exact (warm id hid).rows (recoverRows_change h.sound)
    · have range : i < g.totalBanks := within (.relieveBank relief i) (List.mem_append_right _ ht)
      exact relieveBank_keeps_warm valid relief h range (warm id hid)
  exact fun id hid => (kept id hid).notCool

/-- After an epoch in which vaults have no turns, no bank is out of use on a cool physical bank. -/
theorem runEpoch_notCool (valid : s.Valid) (h : l.Under s g) (enabled : s.enabled = true)
    (banks : s.BanksOnly) (range : id < g.totalBanks) : l.runEpoch.2.NotCool id := by
  have mem := Geometry.mem_bankIds.2 range
  rcases runEpoch_takeAll h enabled with ⟨c, ends⟩
  rw [ends]
  by_cases disable : s.policy = .disable
  · have turns : s.turns g = g.bankIds.map .switchBank := by
      simp [RelocationSettings.turns, RelocationSettings.passes, disable, Pass.turns]
    rw [turns]
    exact takeAll_switch_notCool valid h.nextEpoch id mem
  · exact takeAll_recover_notCool valid h.nextEpoch banks disable id mem

/-! ### Vaults in use -/

/-- Where vaults have no turns, an epoch leaves them alone. -/
theorem runEpoch_vaults (h : l.Under s g) (banks : s.BanksOnly) :
    l.runEpoch.2.vaults = l.vaults := by
  cases enabled : s.enabled with
  | false =>
      have off : l.settings.enabled = false := by rw [h.settings, enabled]
      simp only [Layer.runEpoch, off]
      rfl
  | true =>
      rcases runEpoch_takeAll h enabled with ⟨c, ends⟩
      have kept := takeAll_keeps (P := fun l' => l'.vaults = l.vaults)
        (fun t ht => RelocationSettings.turns_within ht)
        (fun e t ht _ same => (take_vaults e (banks.turns_ofBanks g t ht)).trans same)
        h.nextEpoch rfl
      rw [ends]
      exact kept

/-- Where vaults have no turns, no operation takes one out of use. -/
theorem perform_vaultDisabled (banks : s.BanksOnly) (h : l.Under s g) {op : Operation} {v : Nat}
    (off : (l.perform op).vaultDisabled v = true) : l.vaultDisabled v = true := by
  cases op with
  | setTemperature p t =>
      rcases perform_setTemperature l p t with ⟨ledger, stored⟩
      rw [stored] at off
      exact off
  | recordAccess row requests =>
      rcases perform_recordAccess l row requests with refused | ⟨ledger, recorded⟩
      · rwa [refused] at off
      · rw [recorded] at off
        exact vaultDisabled_modifyVault (f := (·.recordAccess row.bank requests)) (v := row.vault)
          (fun _ h => h) off
  | runEpoch =>
      simp only [perform, vaultDisabled, vault?, runEpoch_vaults h banks] at off
      exact off
  | settle =>
      have settled : l.settle.vault? v = (l.vault? v).map Entry.settle := by simp [vault?, settle]
      simp only [perform, vaultDisabled, settled, Option.any_map] at off
      exact off
  | resetCounts =>
      have reset : l.resetCounts.vault? v = (l.vault? v).map Entry.resetCounts := by
        simp [vault?, resetCounts]
      simp only [perform, vaultDisabled, reset, Option.any_map] at off
      exact off

theorem run_vaultDisabled (banks : s.BanksOnly) (h : l.Under s g)
    (start : ∀ v, l.vaultDisabled v = false) (ops : List Operation) (v : Nat) :
    (l.run ops).vaultDisabled v = false := by
  induction ops generalizing l with
  | nil => exact start v
  | cons op ops ih =>
      refine ih (h.perform op) fun v => ?_
      cases off : (l.perform op).vaultDisabled v with
      | false => rfl
      | true => exact absurd (perform_vaultDisabled banks h off) (by simp [start v])

theorem ofSettings_vaultDisabled (s : RelocationSettings) (g : Geometry) (v : Nat) :
    (ofSettings s g).vaultDisabled v = false := by
  simp only [vaultDisabled, ofSettings, vault?, Array.getElem?_map]
  cases (Array.range g.vaults)[v]? <;> simp [Entry.fresh]

/-! ## Every epoch of a run -/

/-- The reading of the place of a bank is the temperature that its turn looks at. -/
theorem temperatureOf_of_physicalPlace {p q : BankPlace} {t : Celsius}
    (place : l.physicalPlace p = .ok q) (reading : l.temperature? q = some t) :
    l.geometry.holds p = true ∧ l.temperatureOf (l.geometry.bankId p) = t := by
  cases held : l.geometry.holds p with
  | false => simp [physicalPlace, bankId?, held, Except.map] at place
  | true =>
      rw [physicalPlace_of_holds held] at place
      cases place
      unfold temperature? at reading
      split at reading
      · rw [Geometry.bankId_bankAt] at reading
        exact ⟨rfl, Option.some.inj reading⟩
      · cases reading

/-- With valid settings and a policy for banks, an epoch after any operations leaves no bank in use
on a dangerously hot physical bank, unless the bank or its vault is in its cooldown.  Unless vaults
change place as well, it leaves no bank out of use on a physical bank that has cooled down.  A
reading that is not a number reaches no threshold and is below none. -/
theorem runEpoch_safe {s : Settings} (valid : s.check = .ok ())
    (enabled : s.relocation.enabled = true) (policy : s.relocation.policy ≠ .vaultDisable)
    (ops : List Operation) :
    let l := ((ofSettings s.relocation (.ofSettings s.stack)).run ops).runEpoch.2
    (∀ p q t, l.physicalPlace p = .ok q → l.temperature? q = some t →
      t.reaches s.relocation.dangerous = true →
        l.disabled p = true ∨ l.frozen (l.entry? p) = true ∨ l.vaultFrozen p.vault = true) ∧
      ((s.relocation.policy = .swap → s.relocation.interVault = false) →
        ∀ p q t, l.physicalPlace p = .ok q → l.temperature? q = some t →
          l.disabled p = true → t.below s.relocation.cool = false) := by
  intro l
  have settings := (Settings.check_eq_ok_iff.1 valid).relocation
  have under := (ofSettings_under s.relocation (.ofSettings s.stack)).run ops
  have after : l.Under s.relocation (.ofSettings s.stack) := under.perform .runEpoch
  refine ⟨?_, ?_⟩
  · intro p q t place reading hot
    rcases temperatureOf_of_physicalPlace place reading with ⟨held, rfl⟩
    have covered : l.Covered (l.geometry.bankId p) :=
      runEpoch_covered settings under enabled policy _ (after.geometry ▸ bankId_lt held)
    rw [Covered, after.settings, l.geometry.vaultOf_bankId (Geometry.holds_iff.1 held).2] at covered
    simpa only [disabled, entry?, bankFrozen, held, Bool.true_and, if_true] using covered hot
  · intro scope p q t place reading off
    rcases temperatureOf_of_physicalPlace place reading with ⟨held, rfl⟩
    have banks : s.relocation.BanksOnly := ⟨policy, scope⟩
    have notCool : l.NotCool (l.geometry.bankId p) :=
      runEpoch_notCool settings under enabled banks (after.geometry ▸ bankId_lt held)
    rw [NotCool, after.settings] at notCool
    -- No vault is out of use, so it is the bank's own entry that says so.
    have vaults : ∀ v, l.vaultDisabled v = false := fun v =>
      run_vaultDisabled banks under (run_vaultDisabled banks (ofSettings_under _ _)
        (ofSettings_vaultDisabled _ _) ops) [.runEpoch] v
    simp only [disabled, idDisabled, held, vaults, Bool.true_and, Bool.or_false] at off
    exact notCool off

end Layer

/-- Two banks in one vault, relieved by a policy. -/
def Settings.twoBanks (policy : Policy) : Settings where
  stack := { vaults := 1, vaultSize := 65536, bankSize := 32768 }
  cache := { sets := 2 }
  relocation := { policy := policy }

namespace Layer

/-- A bank that takes over the dangerously hot place of its neighbour is in its cooldown. -/
theorem runEpoch_safe_swap :
    let s := Settings.twoBanks .swap
    let l := ((ofSettings s.relocation (.ofSettings s.stack)).run
      [.setTemperature ⟨0, 0⟩ ⟨96.0⟩]).runEpoch.2
    s.check = .ok () ∧ s.relocation.enabled = true ∧ s.relocation.policy ≠ .vaultDisable ∧
      l.physicalPlace ⟨0, 1⟩ = .ok ⟨0, 0⟩ ∧
      (∃ t, l.temperature? ⟨0, 0⟩ = some t ∧ t.reaches s.relocation.dangerous = true) ∧
      (l.disabled ⟨0, 1⟩ = true ∨ l.frozen (l.entry? ⟨0, 1⟩) = true ∨ l.vaultFrozen 0 = true) := by
  intro s l
  have valid : s.check = .ok () := by decide +kernel
  have policy : s.relocation.policy ≠ .vaultDisable := by decide
  have held : l.geometry.holds ⟨0, 1⟩ = true := by decide +kernel
  have moved : l.geometry.bankAt (l.mapping.physicalOf (l.geometry.bankId ⟨0, 1⟩)) = ⟨0, 0⟩ := by
    decide +kernel
  have place := (physicalPlace_of_holds held).trans (congrArg Except.ok moved)
  have reading : (l.temperature? ⟨0, 0⟩).any (·.reaches s.relocation.dangerous) = true := by
    decide +kernel
  rcases (Option.any_eq_true _ _).1 reading with ⟨t, ht, hot⟩
  have safe := runEpoch_safe valid rfl policy [.setTemperature ⟨0, 0⟩ ⟨96.0⟩]
  exact ⟨valid, rfl, policy, place, ⟨t, ht, hot⟩, safe.1 ⟨0, 1⟩ ⟨0, 0⟩ t place ht hot⟩

end Layer

end StackedCache
