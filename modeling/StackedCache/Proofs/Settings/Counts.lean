import StackedCache.Proofs.Settings.Valid
import StackedCache.Stack.Basic
import StackedCache.Timing.Transition

/-!
# Counts that fit into a word

The banks of a vault and the rows of a bank are quotients of 64-bit sizes, kept in 32 bits, and the
check of settings looks at what is kept.  So it bounds the banks of the stack, but it accepts sizes
whose quotient is lost altogether.  `Settings.check_exact_iff` says when nothing is lost: the stack
is exact if both quotients fit, and so do two sums of cycles, neither of which is checked.
-/

namespace StackedCache

/-! ## Sums of cycles -/

namespace Speed

variable {s : Speed}

/-- The longest ways through a write and through a read take a 32-bit number of cycles. -/
structure SumsFit (s : Speed) : Prop where
  write : s.writeRecovery + s.rp.toNat < 2 ^ 32
  read : s.rtp.toNat + s.rp.toNat < 2 ^ 32

/-- All transitions take a 32-bit number of cycles if the two longest sums do. -/
theorem sumsFit_iff :
    s.SumsFit ↔ ∀ before next n, s.transitionCycles? before next = some n → n < 2 ^ 32 := by
  constructor
  · intro fit before next n cycles
    have write := fit.write
    have read := fit.read
    have word : ∀ w : UInt32, w.toNat < 2 ^ 32 := fun w => w.toNat_lt
    unfold transitionCycles? at cycles
    split at cycles
    -- All but three transitions are parameters of their own, hence words.
    all_goals cases cycles
    all_goals first | exact word _ | omega
  · intro small
    exact ⟨small .wra .act _ rfl, small .rda .act _ rfl⟩

end Speed

/-! ## Bit fields -/

/-- The exponent of a power of two that fits into a word is below the width of the word. -/
theorem fieldBits_lt {size width : Nat} (power : size.isPowerOfTwo) (fits : size < 2 ^ width) :
    fieldBits size < width := by
  rcases power with ⟨k, rfl⟩
  rw [fieldBits_two_pow]
  exact (Nat.pow_lt_pow_iff_right (by decide)).1 fits

/-- A power of two that does not fit into 32 bits loses all of them. -/
theorem narrow_eq_zero {n : Nat} (power : n.isPowerOfTwo) (large : 2 ^ 32 ≤ n) : narrow n = 0 := by
  rcases power with ⟨k, rfl⟩
  have exponent : 32 ≤ k := (Nat.pow_le_pow_iff_right (by decide)).1 large
  exact Nat.mod_eq_zero_of_dvd (Nat.pow_dvd_pow 2 exponent)

/-- The widths by which units and addresses are shifted to find their place. -/
def Geometry.shifts (g : Geometry) (chunk : Nat) : List Nat :=
  [fieldBits g.rows, fieldBits g.rows + fieldBits g.vaults, fieldBits chunk, fieldBits g.vaults,
    fieldBits g.banks]

theorem Geometry.Regular.shifts_lt {g : Geometry} {chunk : Nat} (h : g.Regular)
    (power : chunk.isPowerOfTwo) (word : chunk < 2 ^ addressBits) :
    ∀ width ∈ g.shifts chunk, width < addressBits := by
  have vaults := fieldBits_lt h.vaults h.vaults_lt
  have banks := fieldBits_lt h.banks h.banks_lt
  have rows := fieldBits_lt h.rows h.rows_lt
  have unit := fieldBits_lt power word
  simp only [shifts, List.mem_cons, List.not_mem_nil, or_false, forall_eq_or_imp, forall_eq,
    addressBits] at unit ⊢
  omega

/-! ## Vaults and banks of a new stack -/

/-- The vault has so many banks, and each of them so many rows. -/
structure Vault.Sized (v : Vault) (banks rows : Nat) : Prop where
  banks : v.banks.size = banks
  rows : ∀ b ∈ v.banks, b.rows = rows

namespace Vault

theorem ofSizes_sized (id vaultSize bankSize rowSize : Nat) (autoPrecharge : Bool) (speed : Speed) :
    (ofSizes id vaultSize bankSize rowSize autoPrecharge speed).Sized (vaultSize / bankSize)
      (bankSize / rowSize) where
  banks := Array.size_replicate
  rows := by
    intro b member
    rcases Array.mem_replicate.1 member with ⟨_, rfl⟩
    rfl

theorem Sized.setRefreshInterval {v : Vault} {banks rows : Nat} (h : v.Sized banks rows)
    (interval : Time) : (v.setRefreshInterval interval).Sized banks rows where
  banks := Array.size_map.trans h.banks
  rows := by
    intro b member
    rcases Array.mem_map.1 member with ⟨old, inside, rfl⟩
    exact h.rows old inside

end Vault

/-- The geometry counts the vaults, the banks and the rows that the stack has. -/
structure Stack.Measured (s : Stack) : Prop where
  vaults : s.vaults.size = s.geometry.vaults
  sized : ∀ v ∈ s.vaults, v.Sized s.geometry.banks s.geometry.rows

/-- A new vault has as many banks and rows as the sizes allow, whatever the geometry says. -/
theorem Stack.ofSettings_sized {s : StackSettings} {v : Vault}
    (member : v ∈ (Stack.ofSettings s).vaults) :
    v.Sized (s.vaultSize.toNat / s.bankSize.toNat) (s.bankSize.toNat / s.rowSize.toNat) := by
  simp only [Stack.ofSettings, Array.mem_map] at member
  rcases member with ⟨id, _, rfl⟩
  have fresh := Vault.ofSizes_sized id s.vaultSize.toNat s.bankSize.toNat s.rowSize.toNat
    s.autoPrecharge s.speed
  split
  · exact fresh.setRefreshInterval _
  · exact fresh

/-! ## Exact stacks -/

namespace StackSettings

/-- No number that follows from the sizes or from the cycles is lost. -/
structure Exact (s : StackSettings) : Prop where
  banks : s.banksPerVault = s.vaultSize.toNat / s.bankSize.toNat
  rows : s.rowsPerBank = s.bankSize.toNat / s.rowSize.toNat
  /-- Banks are numbered by division by their count. -/
  banks_pos : 0 < s.banksPerVault
  rows_pos : 0 < s.rowsPerBank
  total : s.totalBanks < 2 ^ 32
  shifts : ∀ width ∈ (Geometry.ofSettings s).shifts s.requestBytes.toNat, width < addressBits
  measured : (Stack.ofSettings s).Measured
  cycles : ∀ before next n, s.speed.transitionCycles? before next = some n → n < 2 ^ 32

variable {s : StackSettings}

theorem CountsFit.measured (fit : s.CountsFit) : (Stack.ofSettings s).Measured where
  vaults := by simp [Stack.ofSettings, Geometry.ofSettings]
  sized := by
    intro v member
    have sized := Stack.ofSettings_sized member
    rwa [← fit.banksPerVault, ← fit.rowsPerBank] at sized

/-- Valid settings whose counts and sums fit are exact. -/
theorem Valid.exact (valid : s.Valid) (fit : s.CountsFit) (sums : s.speed.SumsFit) : s.Exact := by
  have regular := valid.regular fit
  exact
    { banks := fit.banksPerVault
      rows := fit.rowsPerBank
      banks_pos := Nat.pos_of_isPowerOfTwo regular.banks
      rows_pos := Nat.pos_of_isPowerOfTwo regular.rows
      total := valid.banks_lt
      shifts := regular.shifts_lt valid.requestBytes s.requestBytes.toNat_lt
      measured := fit.measured
      cycles := Speed.sumsFit_iff.1 sums }

/-- What is exact fits. -/
theorem Exact.fits (h : s.Exact) : s.CountsFit ∧ s.speed.SumsFit := by
  have word : ∀ n, narrow n < 2 ^ 32 := fun n => Nat.mod_lt _ (by decide)
  refine ⟨⟨?_, ?_⟩, Speed.sumsFit_iff.2 h.cycles⟩
  · rw [← h.banks]
    exact word _
  · rw [← h.rows]
    exact word _

/-- A count that does not fit is lost altogether, and a field for it is as wide as an address. -/
theorem count_lost {n : Nat} (power : n.isPowerOfTwo) (large : 2 ^ 32 ≤ n) :
    narrow n = 0 ∧ fieldBits (narrow n) = addressBits := by
  have lost := narrow_eq_zero power large
  exact ⟨lost, by rw [lost]; rfl⟩

end StackSettings

/-- Settings that pass the check have fewer than `2 ^ 32` banks by the counts that are kept.  They
are exact if the two quotients and the two sums fit; a quotient that does not fit counts as zero. -/
theorem Settings.check_exact_iff {s : Settings} (accepted : s.check = .ok ()) :
    s.stack.totalBanks < 2 ^ 32 ∧
      (s.stack.Exact ↔ s.stack.CountsFit ∧ s.stack.speed.SumsFit) ∧
      (2 ^ 32 ≤ s.stack.vaultSize.toNat / s.stack.bankSize.toNat →
        s.stack.banksPerVault = 0 ∧ fieldBits s.stack.banksPerVault = addressBits) ∧
      (2 ^ 32 ≤ s.stack.bankSize.toNat / s.stack.rowSize.toNat →
        s.stack.rowsPerBank = 0 ∧ fieldBits s.stack.rowsPerBank = addressBits) := by
  have valid := (Settings.check_eq_ok_iff.1 accepted).stack
  have banks := isPowerOfTwo_div valid.vaultSize valid.bankSize valid.bank_le
  have rows := isPowerOfTwo_div valid.bankSize valid.rowSize valid.row_le
  refine ⟨valid.banks_lt, ⟨StackSettings.Exact.fits, ?_⟩, ?_, ?_⟩
  · rintro ⟨fit, sums⟩
    exact valid.exact fit sums
  · exact StackSettings.count_lost banks
  · exact StackSettings.count_lost rows

/-- The default stack is exact. -/
theorem Settings.check_exact_iff_default :
    ({} : Settings).check = .ok () ∧ ({} : Settings).stack.Exact := by
  have accepted : ({} : Settings).check = .ok () := rfl
  have counts : ({} : Settings).stack.CountsFit := ⟨by decide, by decide⟩
  have sums : ({} : Settings).stack.speed.SumsFit := ⟨by decide, by decide⟩
  exact ⟨accepted, (Settings.check_exact_iff accepted).2.1.2 ⟨counts, sums⟩⟩

/-- A vault of one tebibyte in banks of 256 bytes passes the check without a bank. -/
theorem accepted_without_banks :
    let stack : StackSettings :=
      { vaults := 1, vaultSize := 1099511627776, bankSize := 256, rowSize := 256 }
    ({ stack := stack } : Settings).check = .ok () ∧ stack.banksPerVault = 0 ∧ ¬stack.Exact := by
  refine ⟨rfl, by decide, fun exact => ?_⟩
  exact absurd exact.banks_pos (by decide)

end StackedCache
