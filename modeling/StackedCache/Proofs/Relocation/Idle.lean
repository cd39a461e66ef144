import StackedCache.Proofs.Relocation.Bijection
import StackedCache.Proofs.Relocation.Journal
import StackedCache.Proofs.Relocation.Outcome
import StackedCache.Proofs.Relocation.Sweep

/-!
# Banks out of use

What keeps a bank idle while it is out of use.  Between two settlements, a bank that comes out of use
has its data dropped, and what is dropped stays so.  Under a policy that moves whole banks or vaults
no row is redirected, so all rows of a bank are on the physical bank that it is on.
-/

namespace StackedCache

/-! ## Whole banks -/

/-- A turn that moves no single rows. -/
def Turn.Whole : Turn → Prop
  | recoverRows | relieveBank .migrating _ => False
  | switchBank _ | recoverBank _ | relieveBank .swapping _ => True
  | switchVault _ | recoverVault _ | relieveVault _ => True

namespace RelocationSettings

variable {s : RelocationSettings}

/-- Only the policy for rows moves single rows. -/
theorem turns_whole (policy : s.policy ≠ .hybrid) (g : Geometry) : ∀ t ∈ s.turns g, t.Whole := by
  have passes : ∀ p ∈ s.passes, p ≠ .recoverRows ∧ p ≠ .relieveBanks .migrating := by
    unfold RelocationSettings.passes
    cases hp : s.policy with
    | disable => simp
    | vaultDisable => simp
    | swap => cases s.interVault <;> simp
    | hybrid => exact absurd hp policy
  intro t ht
  rcases List.mem_flatMap.1 ht with ⟨p, hp, ht⟩
  have kind := passes p hp
  cases p with
  | recoverRows => exact absurd rfl kind.1
  | relieveBanks relief =>
      cases relief with
      | migrating => exact absurd rfl kind.2
      | swapping =>
          rcases List.mem_map.1 ht with ⟨id, _, rfl⟩
          trivial
  | switchBanks | switchVaults | recoverBanks | recoverVaults | relieveVaults =>
      rcases List.mem_map.1 ht with ⟨id, _, rfl⟩
      trivial

end RelocationSettings

namespace Epoch

open Layer

variable {s : RelocationSettings} {g : Geometry} {e e' : Epoch} {t : Turn}

theorem disableBank_rows (e : Epoch) (id : Nat) (double : Bool) :
    (e.disableBank id double).layer.mapping.rows = e.layer.mapping.rows := by
  rcases disableBank_layer e id double with ⟨c, disabled⟩
  rw [disabled]
  rfl

theorem sendBankHome_rows (e : Epoch) (id : Nat) :
    (e.sendBankHome id).layer.mapping.rows = e.layer.mapping.rows := by
  unfold sendBankHome
  dsimp only
  split
  · rfl
  · split
    · rfl
    · split <;> rfl

theorem vaultsMoved_rows (e : Epoch) (v w : Nat) :
    (e.vaultsMoved v w).layer.mapping.rows = e.layer.mapping.rows := by
  simp only [vaultsMoved, vaultMoved, modifyBanks_mapping, modifyVault, Layer.modifyVault]

/-- Where whole banks move, rows go with their banks. -/
theorem take_rows (whole : t.Whole) : (e.take t).layer.mapping.rows = e.layer.mapping.rows := by
  cases t with
  | switchBank id =>
      simp only [take, switchBank]
      split
      · split <;> rfl
      · split
        · exact disableBank_rows e id false
        · rfl
  | switchVault v =>
      simp only [take, switchVault]
      split
      · split <;> rfl
      · split
        · simp only [disableVault, reporting, counting, modifyBanks_mapping, modifyVault,
            Layer.modifyVault]
        · rfl
  | recoverBank id =>
      have outcome := recoverBank_outcome e id
      rw [take]
      generalize e.recoverBank id = e' at outcome
      cases outcome with
      | tooWarm warm => rfl
      | inUse on => rfl
      | enabled off => rfl
      | sentHome on cool => exact sendBankHome_rows e id
  | recoverVault v =>
      simp only [take, recoverVault]
      split
      · unfold sendVaultHome
        dsimp only
        split
        · rfl
        · split
          · rfl
          · split
            · exact vaultsMoved_rows _ _ _
            · rfl
      · rfl
  | relieveVault v =>
      simp only [take, relieveVault]
      split
      · split
        · rfl
        · unfold swapVaults
          dsimp only
          split
          · rfl
          · exact vaultsMoved_rows _ _ _
      · rfl
  | relieveBank relief id =>
      have outcome := relieveBank_outcome relief e id
      rw [take]
      generalize relieveBank relief e id = e' at outcome
      cases outcome with
      | notNeeded calm => rfl
      | borne noted needy mild => rw [layer_of_noted noted]
      | givenUp noted needy dangerous => rw [disableBank_rows, layer_of_noted noted]
      | swapped target needy home found =>
          unfold swapBanks
          dsimp only
          split <;> rfl
      | migrated target needy found => exact whole.elim
  | recoverRows => exact whole.elim

end Epoch

namespace Layer

variable {s : RelocationSettings} {g : Geometry} {l l' : Layer} {p q : BankPlace} {row : Location}

/-- A policy that moves whole banks leaves the redirected rows alone. -/
theorem runEpoch_rows (h : l.Under s g) (policy : s.policy ≠ .hybrid) :
    l.runEpoch.2.mapping.rows = l.mapping.rows := by
  cases enabled : s.enabled with
  | false =>
      have off : l.settings.enabled = false := by rw [h.settings, enabled]
      simp only [Layer.runEpoch, off]
      rfl
  | true =>
      rcases runEpoch_takeAll h enabled with ⟨c, ends⟩
      have kept := Epoch.takeAll_keeps (P := fun l' => l'.mapping.rows = l.mapping.rows)
        (fun t ht => RelocationSettings.turns_within ht)
        (fun e t ht _ same =>
          (Epoch.take_rows (RelocationSettings.turns_whole policy g t ht)).trans same)
        h.nextEpoch rfl
      rw [ends]
      exact kept

theorem perform_rows (h : l.Under s g) (policy : s.policy ≠ .hybrid) (op : Operation) :
    (l.perform op).mapping.rows = l.mapping.rows := by
  cases op with
  | setTemperature p t =>
      rcases perform_setTemperature l p t with ⟨ledger, stored⟩
      rw [stored]
  | recordAccess row requests =>
      rcases perform_recordAccess l row requests with refused | ⟨ledger, recorded⟩
      · rw [refused]
      · rw [recorded]
        rfl
  | runEpoch => exact runEpoch_rows h policy
  | settle => rfl
  | resetCounts => rfl

/-! ## Redirected rows -/

/-- A row is on a physical bank, although its bank is on another one. -/
structure Redirects (l : Layer) (row : Location) (p : BankPlace) : Prop where
  here : ∃ physical, l.physicalLocation row = .ok physical ∧ physical.place = p
  elsewhere : l.physicalPlace row.place ≠ .ok p

/-- Without redirections, a row is where its bank is. -/
theorem physicalPlace_of_location {physical : Location} (rows : l.mapping.rows = [])
    (located : l.physicalLocation row = .ok physical) :
    l.physicalPlace row.place = .ok physical.place := by
  cases held : l.geometry.holds row.place with
  | false =>
      rw [physicalLocation_of_not_holds held] at located
      cases located
  | true =>
      rw [physicalLocation_of_holds held] at located
      cases located
      have straight : ∀ n physical, l.mapping.redirect n physical = physical := by
        intro n physical
        rw [Mapping.redirect, rows]
        rfl
      rw [physicalPlace_of_holds held]
      simp only [Location.place, Mapping.physicalOfRow, straight]

theorem not_redirects (rows : l.mapping.rows = []) : ¬l.Redirects row p := by
  rintro ⟨⟨physical, located, rfl⟩, elsewhere⟩
  exact elsewhere (physicalPlace_of_location rows located)

/-- A row on the physical bank of another bank is redirected. -/
theorem redirects_of_logicalPlace {physical : Location} (h : l.Sound)
    (located : l.physicalLocation row = .ok physical) (here : physical.place = p)
    (owner : l.logicalPlace p = .ok q) (ne : q ≠ row.place) : l.Redirects row p := by
  refine ⟨⟨physical, located, here⟩, fun place => ?_⟩
  cases held : l.geometry.holds row.place with
  | false =>
      rw [physicalLocation_of_not_holds held] at located
      cases located
  | true =>
      rcases h.toPhysical held with ⟨q', _, forth, back⟩
      rw [place] at forth
      cases forth
      rw [back] at owner
      cases owner
      exact ne rfl

/-! ## Data of banks out of use -/

theorem contentValid_eq (l : Layer) (p : BankPlace) :
    l.contentValid p = !(l.geometry.holds p && l.dropped (l.geometry.bankId p)) := by
  unfold contentValid entry? dropped
  cases l.geometry.holds p with
  | false => rfl
  | true => cases l.bank? (l.geometry.bankId p) <;> simp

/-- A bank out of use whose data may be used has been so all along. -/
theorem Journals.used (h : Journals l l') (off : l'.disabled p = true)
    (valid : l'.contentValid p = true) : l.disabled p = true ∧ l.contentValid p = true := by
  rw [disabled, h.geometry, Bool.and_eq_true] at off
  rw [contentValid_eq, h.geometry, off.1, Bool.true_and, Bool.not_eq_true'] at valid
  have kept : l.dropped (l.geometry.bankId p) = false := by
    by_contra dropped
    rw [Bool.not_eq_false] at dropped
    rw [h.entries.dropped dropped] at valid
    cases valid
  constructor
  · rw [disabled, off.1, Bool.true_and]
    by_contra used
    rw [Bool.not_eq_true] at used
    rw [h.idDisabled (bankId_lt off.1) off.2 used] at valid
    cases valid
  · rw [contentValid_eq, kept, Bool.and_false, Bool.not_false]

end Layer

end StackedCache
