import StackedCache.Proofs.Relocation.Guarded
import StackedCache.Proofs.Settings.Valid

/-!
# Places correspond one to one

After any operations on a layer with valid settings, logical and physical banks correspond one to
one, and so do they for every single row.  The next epoch then runs without a panic.
-/

namespace StackedCache

namespace Layer

variable {l : Layer} {p q : BankPlace}

/-- All permutations of the layer are inverse pairs, and places are translated one to one. -/
structure Bijective (l : Layer) : Prop where
  vaults : l.mapping.vaults.Inverse l.geometry.vaults
  banks : l.mapping.banks.Inverse l.geometry.totalBanks
  rows : ∀ entry ∈ l.mapping.rows, entry.2.Inverse l.geometry.totalBanks
  toPhysical : ∀ p, l.geometry.holds p = true →
    ∃ q, l.geometry.holds q = true ∧ l.physicalPlace p = .ok q ∧ l.logicalPlace q = .ok p
  toLogical : ∀ q, l.geometry.holds q = true →
    ∃ p, l.geometry.holds p = true ∧ l.logicalPlace q = .ok p ∧ l.physicalPlace p = .ok q
  /-- A logical row is in a bank of the stack, under its own number. -/
  location : ∀ row p, l.geometry.holds p = true →
    ∃ q, l.geometry.holds q = true ∧
      l.physicalLocation ⟨p.vault, p.bank, row⟩ = .ok ⟨q.vault, q.bank, row⟩
  /-- No two logical banks share a place for a row. -/
  separate : ∀ row p p', l.geometry.holds p = true → l.geometry.holds p' = true →
    l.physicalLocation ⟨p.vault, p.bank, row⟩ = l.physicalLocation ⟨p'.vault, p'.bank, row⟩ → p = p'

namespace Sound

theorem toPhysical (h : l.Sound) (hp : l.geometry.holds p = true) :
    ∃ q, l.geometry.holds q = true ∧ l.physicalPlace p = .ok q ∧ l.logicalPlace q = .ok p := by
  have held : l.geometry.holds
      (l.geometry.bankAt (l.mapping.physicalOf (l.geometry.bankId p))) = true :=
    Geometry.holds_bankAt (h.mapping.physicalOf_lt (bankId_lt hp))
  refine ⟨_, held, physicalPlace_of_holds hp, ?_⟩
  rw [logicalPlace_of_holds held, Geometry.bankId_bankAt, h.mapping.logicalOf_physicalOf,
    bankAt_bankId hp]

theorem toLogical (h : l.Sound) (hq : l.geometry.holds q = true) :
    ∃ p, l.geometry.holds p = true ∧ l.logicalPlace q = .ok p ∧ l.physicalPlace p = .ok q := by
  have held : l.geometry.holds
      (l.geometry.bankAt (l.mapping.logicalOf (l.geometry.bankId q))) = true :=
    Geometry.holds_bankAt (h.mapping.logicalOf_lt (bankId_lt hq))
  refine ⟨_, held, logicalPlace_of_holds hq, ?_⟩
  rw [physicalPlace_of_holds held, Geometry.bankId_bankAt, h.mapping.physicalOf_logicalOf,
    bankAt_bankId hq]

theorem separate {p' : BankPlace} (h : l.Sound) (row : Nat) (hp : l.geometry.holds p = true)
    (hp' : l.geometry.holds p' = true)
    (heq : l.physicalLocation ⟨p.vault, p.bank, row⟩ =
      l.physicalLocation ⟨p'.vault, p'.bank, row⟩) : p = p' := by
  have first := physicalLocation_of_holds (r := ⟨p.vault, p.bank, row⟩) hp
  have second := physicalLocation_of_holds (r := ⟨p'.vault, p'.bank, row⟩) hp'
  rw [first, second] at heq
  simp only [Except.ok.injEq, Location.mk.injEq, and_true] at heq
  have places : l.geometry.bankAt (l.mapping.physicalOfRow row (l.geometry.bankId p)) =
      l.geometry.bankAt (l.mapping.physicalOfRow row (l.geometry.bankId p')) := by
    rw [BankPlace.mk.injEq]
    exact heq
  -- Places are compared as pairs, permutations are injective on numbers.
  have ids := congrArg l.geometry.bankId places
  simp only [Geometry.bankId_bankAt] at ids
  have banks := congrArg l.geometry.bankAt (h.mapping.physicalOfRow_injective ids)
  rwa [bankAt_bankId hp, bankAt_bankId hp'] at banks

theorem bijective (h : l.Sound) : l.Bijective where
  vaults := h.mapping.vaults
  banks := h.mapping.banks
  rows := h.mapping.rows
  toPhysical := fun _ => h.toPhysical
  toLogical := fun _ => h.toLogical
  location := fun row _ hp =>
    ⟨_, Geometry.holds_bankAt (h.mapping.physicalOfRow_lt (bankId_lt hp)),
      physicalLocation_of_holds (r := ⟨_, _, row⟩) hp⟩
  separate := fun row _ _ hp hp' => h.separate row hp hp'

end Sound

/-- With valid settings, every state of the layer is a one-to-one correspondence between the banks
of the stack, and its next epoch passes all guards. -/
theorem run_bijective {s : Settings} (valid : s.check = .ok ()) (fit : s.stack.CountsFit)
    (ops : List Operation) :
    let l := (ofSettings s.relocation (.ofSettings s.stack)).run ops
    l.geometry =
        ⟨s.stack.vaults.toNat, s.stack.vaultSize.toNat / s.stack.bankSize.toNat,
          s.stack.bankSize.toNat / s.stack.rowSize.toNat⟩ ∧
      l.geometry.totalBanks < 2 ^ 32 ∧ l.Bijective ∧ l.mapping.consistent = true ∧
      l.guardedEpoch = .ok l.runEpoch := by
  intro l
  have start := ofSettings_sound s.relocation (.ofSettings s.stack)
  have sound : l.Sound := run_sound start ops
  have geometry : l.geometry = .ofSettings s.stack := run_geometry start ops
  have stack := (Settings.check_eq_ok_iff.1 valid).stack
  refine ⟨?_, ?_, sound.bijective, sound.mapping.consistent, sound.guardedEpoch_eq⟩
  · rw [geometry, Geometry.ofSettings, fit.banksPerVault, fit.rowsPerBank]
  · rw [geometry]
    exact stack.banks_lt

/-- The default settings, a hot bank and an epoch. -/
theorem run_bijective_default :
    ({} : Settings).check = .ok () ∧ ({} : Settings).stack.CountsFit ∧
      ((ofSettings ({} : Settings).relocation (.ofSettings ({} : Settings).stack)).run
        [.setTemperature ⟨0, 1⟩ ⟨90.0⟩, .runEpoch]).Bijective := by
  have valid : ({} : Settings).check = .ok () := rfl
  have fit : ({} : Settings).stack.CountsFit := ⟨by decide, by decide⟩
  exact ⟨valid, fit,
    (run_bijective valid fit [.setTemperature ⟨0, 1⟩ ⟨90.0⟩, .runEpoch]).2.2.1⟩

end Layer

end StackedCache
