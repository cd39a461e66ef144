import Mathlib.Logic.Relation
import StackedCache.Relocation.Run

/-!
# Turns and decisions

An epoch is a list of turns, `RelocationSettings.turns`: the passes of the policy one after the
other, each with a turn for every bank or vault.

What a turn may do is said once, in `Decision`, together with what has to hold for it: each turn is
one decision, but for the return of rows, which is a chain of `RowStep`s.
-/

namespace StackedCache

/-! ## Turns -/

/-- The turn of one bank or vault in a pass.  The return of rows is one turn for all of them. -/
inductive Turn where
  | switchBank (id : Nat)
  | switchVault (vault : Nat)
  | recoverBank (id : Nat)
  | recoverVault (vault : Nat)
  | relieveVault (vault : Nat)
  | relieveBank (relief : Epoch.Relief) (id : Nat)
  | recoverRows
  deriving DecidableEq, Repr

/-- The bank or vault whose turn it is belongs to the stack. -/
def Turn.Within (g : Geometry) : Turn → Prop
  | switchBank id | recoverBank id | relieveBank _ id => id < g.totalBanks
  | switchVault vault | recoverVault vault | relieveVault vault => vault < g.vaults
  | recoverRows => True

/-- A pass over all banks or vaults, or over all redirected rows. -/
inductive Pass where
  | switchBanks
  | switchVaults
  | recoverBanks
  | recoverVaults
  | relieveVaults
  | relieveBanks (relief : Epoch.Relief)
  | recoverRows
  deriving DecidableEq, Repr

/-- The turns of a pass. -/
def Pass.turns (g : Geometry) : Pass → List Turn
  | switchBanks => g.bankIds.map .switchBank
  | switchVaults => (List.range g.vaults).map .switchVault
  | recoverBanks => g.bankIds.map .recoverBank
  | recoverVaults => (List.range g.vaults).map .recoverVault
  | relieveVaults => (List.range g.vaults).map .relieveVault
  | relieveBanks relief => g.bankIds.map (.relieveBank relief)
  | recoverRows => [.recoverRows]

namespace RelocationSettings

/-- The passes of an epoch. -/
def passes (s : RelocationSettings) : List Pass :=
  match s.policy with
  | .disable => [.switchBanks]
  | .vaultDisable => [.switchVaults]
  | .swap =>
      [.recoverBanks] ++ (if s.interVault then [.recoverVaults, .relieveVaults] else [])
        ++ [.relieveBanks .swapping]
  | .hybrid => [.recoverBanks, .recoverRows, .relieveBanks .migrating]

/-- The turns of an epoch. -/
def turns (s : RelocationSettings) (g : Geometry) : List Turn := s.passes.flatMap (Pass.turns g)

end RelocationSettings

theorem Pass.turns_within {p : Pass} {g : Geometry} {t : Turn} (h : t ∈ p.turns g) :
    t.Within g := by
  cases p with
  | recoverRows =>
      cases List.mem_singleton.1 h
      trivial
  | switchVaults =>
      rcases List.mem_map.1 h with ⟨v, hv, rfl⟩
      exact List.mem_range.1 hv
  | recoverVaults =>
      rcases List.mem_map.1 h with ⟨v, hv, rfl⟩
      exact List.mem_range.1 hv
  | relieveVaults =>
      rcases List.mem_map.1 h with ⟨v, hv, rfl⟩
      exact List.mem_range.1 hv
  | switchBanks =>
      rcases List.mem_map.1 h with ⟨id, hid, rfl⟩
      exact Geometry.mem_bankIds.1 hid
  | recoverBanks =>
      rcases List.mem_map.1 h with ⟨id, hid, rfl⟩
      exact Geometry.mem_bankIds.1 hid
  | relieveBanks relief =>
      rcases List.mem_map.1 h with ⟨id, hid, rfl⟩
      exact Geometry.mem_bankIds.1 hid

theorem RelocationSettings.turns_within {s : RelocationSettings} {g : Geometry} {t : Turn}
    (h : t ∈ s.turns g) : t.Within g := by
  rcases List.mem_flatMap.1 h with ⟨p, _, ht⟩
  exact Pass.turns_within ht

namespace Epoch

/-- Takes a turn. -/
def take (e : Epoch) : Turn → Epoch
  | .switchBank id => e.switchBank id
  | .switchVault vault => e.switchVault vault
  | .recoverBank id => e.recoverBank id
  | .recoverVault vault => e.recoverVault vault
  | .relieveVault vault => e.relieveVault vault
  | .relieveBank relief id => relieveBank relief e id
  | .recoverRows => e.recoverRows

/-- Takes turns in order. -/
def takeAll (e : Epoch) (turns : List Turn) : Epoch := turns.foldl take e

/-- Goes through a pass. -/
def pass (e : Epoch) (p : Pass) : Epoch := e.takeAll (p.turns e.layer.geometry)

/-- The epoch goes through its passes. -/
theorem apply_eq_passes (e : Epoch) (s : RelocationSettings) :
    e.apply s = s.passes.foldl pass e := by
  have turns : ∀ (ids : List Nat) (turn : Nat → Turn) (e : Epoch),
      e.takeAll (ids.map turn) = e.through ids fun e id => e.take (turn id) := by
    intro ids turn e
    simp only [takeAll, through, List.foldl_map]
  unfold apply RelocationSettings.passes
  -- No pass changes the geometry, so each reads its turns off the layer it starts from.
  cases s.policy with
  | disable => exact (turns _ .switchBank e).symm
  | vaultDisable => exact (turns _ .switchVault e).symm
  | swap =>
      cases s.interVault with
      | false =>
          simp only [List.cons_append, List.nil_append, List.foldl_cons, List.foldl_nil, pass,
            Pass.turns, turns, Bool.false_eq_true, if_false]
          rfl
      | true =>
          simp only [List.cons_append, List.nil_append, List.foldl_cons, List.foldl_nil, pass,
            Pass.turns, turns, if_true]
          rfl
  | hybrid =>
      simp only [List.foldl_cons, List.foldl_nil, pass, Pass.turns, turns]
      rfl

/-! ## Decisions -/

/-- One step of the return of rows. -/
inductive RowStep : Epoch → Epoch → Prop where
  /-- A row returns to a physical bank, if it is time. -/
  | returnRow {e : Epoch} (row home : Nat) (owners : List Nat) :
      RowStep e (Epoch.returnRow row ⟨e, owners⟩ home).epoch
  | dropIdentities {e : Epoch} : RowStep e e.dropIdentities
  | report {e : Epoch} (f : Report → Report) : RowStep e (e.reporting f)

/-- Notes failures in the report. -/
def noting (e : Epoch) (faults : List RelocationFault) : Epoch :=
  e.reporting fun r => { r with failures := r.failures ++ faults }

@[simp] theorem noting_nil (e : Epoch) : e.noting [] = e := by
  simp [noting, reporting]

/-- One decision of an epoch and what has to hold for it. -/
inductive Decision : Epoch → Epoch → Prop where
  /-- The layer stays as it is. -/
  | stay {e : Epoch} : Decision e e
  /-- A disabled bank that is not too warm is used again. -/
  | enableBank {e : Epoch} (id : Nat) (range : id < e.layer.geometry.totalBanks)
      (off : e.layer.bankDisabled id = true)
      (mild : (e.layer.temperatureOf id).reaches e.layer.settings.cool = false) :
      Decision e (e.enableBank id)
  /-- A bank in use is hot, and the policy does not relieve banks. -/
  | switchBankOff {e : Epoch} (id : Nat) (range : id < e.layer.geometry.totalBanks)
      (on : e.layer.bankDisabled id = false)
      (hot : (e.layer.temperatureOf id).reaches e.layer.settings.high = true) :
      Decision e (e.disableBank id false)
  /-- A bank that needs relief and has not got it is dangerously hot. -/
  | giveBankUp {e : Epoch} (id : Nat) (range : id < e.layer.geometry.totalBanks)
      (needy : e.bankNeedsRelief id = true)
      (dangerous : (e.layer.temperatureOf id).reaches e.layer.settings.dangerous = true) :
      Decision e (e.disableBank id (e.layer.mapping.displaced id))
  | enableVault {e : Epoch} (vault : Nat) (range : vault < e.layer.geometry.vaults)
      (off : e.layer.vaultDisabled vault = true)
      (cool : (e.vaultTemperatureOf vault).below e.layer.settings.cool = true) :
      Decision e (e.enableVault vault)
  | disableVault {e : Epoch} (vault : Nat) (range : vault < e.layer.geometry.vaults)
      (on : e.layer.vaultDisabled vault = false)
      (hot : (e.vaultTemperatureOf vault).reaches e.layer.settings.high = true) :
      Decision e (e.disableVault vault)
  | sendBankHome {e : Epoch} (id : Nat) (range : id < e.layer.geometry.totalBanks)
      (on : e.layer.bankDisabled id = false)
      (mild : (e.layer.temperatureOf id).reaches e.layer.settings.cool = false)
      (ready : e.bankMayGoHome id = true) :
      Decision e (e.sendBankHome id)
  | sendVaultHome {e : Epoch} (vault : Nat) (range : vault < e.layer.geometry.vaults)
      (ready : e.vaultMayGoHome vault = true) :
      Decision e (e.sendVaultHome vault)
  | swapVaults {e : Epoch} (vault target : Nat) (range : vault < e.layer.geometry.vaults)
      (needy : e.vaultNeedsRelief vault = true) (found : e.vaultTarget? vault = some target) :
      Decision e (e.swapVaults vault ((e.layer.mapping.vaults.source? target).getD target))
  | swapBanks {e : Epoch} (id target : Nat) (range : id < e.layer.geometry.totalBanks)
      (needy : e.bankNeedsRelief id = true) (home : e.layer.mapping.displaced id = false)
      (found : e.bankTarget? true (e.layer.mapping.physicalOf id) = some target) :
      Decision e (e.swapBanks id (e.layer.mapping.logicalOf target))
  | migrateRows {e : Epoch} (id target : Nat) (range : id < e.layer.geometry.totalBanks)
      (needy : e.bankNeedsRelief id = true)
      (found : e.bankTarget? false (e.layer.mapping.physicalOf id) = some target)
      (rows : e.rowsToMove id ≠ []) :
      Decision e
        (e.migrateRows id (e.layer.mapping.logicalOf target) (e.layer.mapping.physicalOf id) target
          (e.rowsToMove id))

open Relation (ReflTransGen)

theorem returnRows_steps (row : Nat) (homes : List Nat) (r : RowReturn) :
    ReflTransGen RowStep r.epoch (homes.foldl (returnRow row) r).epoch := by
  -- The owners gathered so far change with each home, hence the general `r`.
  induction homes generalizing r with
  | nil => exact .refl
  | cons home homes ih =>
      have first : RowStep r.epoch (returnRow row r home).epoch := .returnRow row home r.owners
      exact .head first (ih _)

theorem returnRowsToAll_steps (rows : List Nat) (r : RowReturn) :
    ReflTransGen RowStep r.epoch (rows.foldl returnRowToAll r).epoch := by
  induction rows generalizing r with
  | nil => exact .refl
  | cons row rows ih =>
      refine .trans ?_ (ih _)
      unfold returnRowToAll
      split
      · exact .refl
      · exact returnRows_steps row _ r

/-- The return of rows is a chain of its steps. -/
theorem recoverRows_steps (e : Epoch) : ReflTransGen RowStep e e.recoverRows := by
  have rows := returnRowsToAll_steps e.layer.mapping.rows.keys { epoch := e }
  have dropped := rows.tail .dropIdentities
  unfold recoverRows
  exact dropped.tail (.report _)

/-- A bank gets no relief, which may be noted, or there is a decision for it. -/
theorem attemptRelief_decides {e : Epoch} {id : Nat} (relief : Relief)
    (range : id < e.layer.geometry.totalBanks) (needy : e.bankNeedsRelief id = true) :
    (∃ faults, e.attemptRelief relief id = (false, e.noting faults)) ∨
      ∃ e', Decision e e' ∧ e.attemptRelief relief id = (true, e') := by
  unfold attemptRelief
  cases relief with
  | swapping =>
      cases home : e.layer.mapping.displaced id with
      | true => exact .inl ⟨[], by simp⟩
      | false =>
          cases found : e.bankTarget? true (e.layer.mapping.physicalOf id) with
          | none => exact .inl ⟨[_], by simp [found, failBank, fail]; rfl⟩
          | some target =>
              exact .inr ⟨_, .swapBanks id target range needy home found, by simp [found]⟩
  | migrating =>
      cases found : e.bankTarget? false (e.layer.mapping.physicalOf id) with
      | none => exact .inl ⟨[_], by simp [found, failBank, fail]; rfl⟩
      | some target =>
          by_cases rows : e.rowsToMove id = []
          · exact .inl ⟨[], by simp [found, rows]⟩
          · exact .inr ⟨_, .migrateRows id target range needy found rows, by simp [found, rows]⟩

theorem relieveBank_decides {e : Epoch} {id : Nat} (relief : Relief)
    (range : id < e.layer.geometry.totalBanks) :
    ∃ faults, Decision (e.noting faults) (relieveBank relief e id) := by
  unfold relieveBank
  split
  · rename_i needy
    -- Without relief, a dangerously hot bank is given up on the spot.
    rcases attemptRelief_decides relief range needy with
      ⟨faults, failed⟩ | ⟨e', decided, relieved⟩
    · simp only [failed]
      split
      · rename_i hot
        simp only [Bool.not_false, Bool.true_and] at hot
        -- The temperature is read after the report, which does not touch the layer.
        exact ⟨faults, .giveBankUp (e := e.noting faults) id range needy hot⟩
      · exact ⟨faults, .stay⟩
    · simp only [relieved, Bool.not_true, Bool.false_and, Bool.false_eq_true, if_false]
      exact ⟨[], (noting_nil e).symm ▸ decided⟩
  · exact ⟨[], (noting_nil e).symm ▸ .stay⟩

/-- A turn other than the return of rows is one decision, perhaps after failures are noted. -/
theorem take_decides {e : Epoch} {t : Turn} (within : t.Within e.layer.geometry)
    (single : t ≠ .recoverRows) : ∃ faults, Decision (e.noting faults) (e.take t) := by
  -- Most turns note nothing.
  have silent : ∀ {e'}, Decision e e' → ∃ faults, Decision (e.noting faults) e' :=
    fun decided => ⟨[], (noting_nil e).symm ▸ decided⟩
  cases t with
  | switchBank id =>
      -- Each guard of the turn becomes a field of the decision behind it.
      simp only [take, switchBank]
      split
      · rename_i off
        split
        · rename_i cool
          exact silent (.enableBank id within off (Celsius.reaches_of_below cool))
        · exact silent .stay
      · rename_i on
        split
        · rename_i hot
          exact silent (.switchBankOff id within (by simpa using on) hot)
        · exact silent .stay
  | switchVault vault =>
      simp only [take, switchVault]
      split
      · rename_i off
        split
        · rename_i cool
          exact silent (.enableVault vault within off cool)
        · exact silent .stay
      · rename_i on
        split
        · rename_i hot
          exact silent (.disableVault vault within (by simpa using on) hot)
        · exact silent .stay
  | recoverBank id =>
      simp only [take, recoverBank]
      split
      · exact silent .stay
      · rename_i mild
        have mild : (e.layer.temperatureOf id).reaches e.layer.settings.cool = false := by
          simpa using mild
        split
        · rename_i off
          exact silent (.enableBank id within off mild)
        · rename_i on
          split
          · rename_i ready
            exact silent (.sendBankHome id within (by simpa using on) mild ready)
          · exact silent .stay
  | recoverVault vault =>
      simp only [take, recoverVault]
      split
      · rename_i ready
        exact silent (.sendVaultHome vault within ready)
      · exact silent .stay
  | relieveVault vault =>
      simp only [take, relieveVault]
      split
      · rename_i needy
        cases found : e.vaultTarget? vault with
        | none => exact ⟨[_], .stay⟩
        | some target => exact silent (.swapVaults vault target within needy found)
      · exact silent .stay
  | relieveBank relief id => exact relieveBank_decides relief within
  | recoverRows => exact absurd rfl single

end Epoch

end StackedCache
