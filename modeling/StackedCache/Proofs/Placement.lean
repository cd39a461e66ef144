import Mathlib.Data.Set.Function
import Mathlib.Order.Interval.Set.Defs
import StackedCache.Proofs.Address
import StackedCache.Proofs.Settings.Counts

/-!
# Rows and addresses all over the stack

Row-sized units and chunks of addresses are placed by the digits of their number, in two different
orders.  Numbers below the capacity of the stack and its rows are in one-to-one correspondence
either way, and above the capacity the places repeat.  `Geometry.ofSettings_covers` says so of all
settings that pass the check and count their banks and rows exactly.
-/

namespace StackedCache

/-! ## Digits -/

section Digits

variable {a b c n : Nat}

/-- Three digits of a number, the first of which counts fastest. -/
def digits (a b c n : Nat) : Nat × Nat × Nat := (n % a, n / a % b, n / a / b % c)

/-- The number with three digits; the last one need not be below a bound. -/
def ofDigits (a b : Nat) (d : Nat × Nat × Nat) : Nat := (d.2.2 * b + d.2.1) * a + d.1

/-- The digits below their bounds. -/
def digitBox (a b c : Nat) : Set (Nat × Nat × Nat) := {d | d.1 < a ∧ d.2.1 < b ∧ d.2.2 < c}

theorem ofDigits_digits (h : n < a * b * c) : ofDigits a b (digits a b c n) = n := by
  have last : n / a / b % c = n / a / b := by
    rw [Nat.div_div_eq_div_mul]
    exact Nat.mod_eq_of_lt (Nat.div_lt_of_lt_mul h)
  simp only [ofDigits, digits, last, Nat.div_add_mod']

theorem digits_ofDigits {d : Nat × Nat × Nat} (h : d ∈ digitBox a b c) :
    digits a b c (ofDigits a b d) = d := by
  rcases d with ⟨x, y, z⟩
  rcases h with ⟨hx, hy, hz⟩
  simp only [digits, ofDigits, mul_add_div_of_lt hx, mul_add_div_of_lt hy,
    Nat.mul_add_mod_of_lt hx, Nat.mul_add_mod_of_lt hy, Nat.mod_eq_of_lt hz]

theorem ofDigits_lt {d : Nat × Nat × Nat} (h : d ∈ digitBox a b c) :
    ofDigits a b d < a * b * c := by
  rcases d with ⟨x, y, z⟩
  rcases h with ⟨hx, hy, hz⟩
  calc
    (z * b + y) * a + x < (z * b + y + 1) * a := by
      rw [Nat.succ_mul]
      exact Nat.add_lt_add_left hx _
    _ ≤ (z + 1) * b * a := by
      refine Nat.mul_le_mul_right _ ?_
      rw [Nat.succ_mul]
      exact Nat.add_lt_add_left hy _
    _ ≤ c * b * a := Nat.mul_le_mul_right _ (Nat.mul_le_mul_right _ hz)
    _ = a * b * c := by rw [Nat.mul_comm a b, Nat.mul_comm c, Nat.mul_right_comm]

/-- Numbers below the product of the bounds are their digits. -/
theorem digits_bijOn (ha : 0 < a) (hb : 0 < b) (hc : 0 < c) :
    Set.BijOn (digits a b c) (Set.Iio (a * b * c)) (digitBox a b c) := by
  have inverse : Set.InvOn (ofDigits a b) (digits a b c) (Set.Iio (a * b * c)) (digitBox a b c) :=
    ⟨fun n h => ofDigits_digits h, fun d h => digits_ofDigits h⟩
  refine inverse.bijOn ?_ ?_
  · exact fun n _ => ⟨Nat.mod_lt _ ha, Nat.mod_lt _ hb, Nat.mod_lt _ hc⟩
  · exact fun d h => ofDigits_lt h

/-- Digits repeat after the product of the bounds. -/
theorem digits_add (ha : 0 < a) (hb : 0 < b) (n : Nat) :
    digits a b c (n + a * b * c) = digits a b c n := by
  have first : (n + a * (b * c)) / a = n / a + b * c := Nat.add_mul_div_left _ _ ha
  have second : (n / a + b * c) / b = n / a / b + c := Nat.add_mul_div_left _ _ hb
  -- Both quotients grow by multiples of what they are reduced by next.
  rw [Nat.mul_assoc]
  simp only [digits, first, second, Nat.add_mul_mod_self_left, Nat.add_mod_right]

end Digits

namespace Geometry

variable {g : Geometry} {chunk : Nat}

/-! ## Rows of the stack -/

/-- The number of rows of the whole stack. -/
def capacity (g : Geometry) : Nat := g.vaults * g.banks * g.rows

/-- The rows of the whole stack. -/
def locations (g : Geometry) : Set Location := {l | g.holds l.place = true ∧ l.row < g.rows}

theorem capacity_lt (h : g.Regular) (banks : g.totalBanks < 2 ^ 32) :
    g.capacity < 2 ^ addressBits :=
  calc
    g.totalBanks * g.rows < 2 ^ 32 * 2 ^ 32 := Nat.mul_lt_mul'' banks h.rows_lt
    _ = 2 ^ addressBits := by decide

/-- A field of a regular stack is a remainder. -/
theorem fieldOf_eq {size : Nat} (power : size.isPowerOfTwo) (small : size < 2 ^ 32) (n : Nat) :
    fieldOf size n = n % size := by
  have fits : n % size < 2 ^ 32 :=
    Nat.lt_of_lt_of_le (Nat.mod_lt _ (Nat.pos_of_isPowerOfTwo power)) (Nat.le_of_lt small)
  rcases power with ⟨k, rfl⟩
  rw [fieldOf, fieldBits_two_pow, narrow, Nat.mod_eq_of_lt fits]

/-- The width of a field shifts by its size. -/
theorem two_pow_fieldBits {size : Nat} (power : size.isPowerOfTwo) : 2 ^ fieldBits size = size := by
  rcases power with ⟨k, rfl⟩
  rw [fieldBits_two_pow]

/-! ## Row-sized units -/

/-- A row by the digits of its unit. -/
def unitRow (d : Nat × Nat × Nat) : Location := { row := d.1, vault := d.2.1, bank := d.2.2 }

theorem unitRow_bijOn (g : Geometry) :
    Set.BijOn unitRow (digitBox g.rows g.vaults g.banks) g.locations := by
  have inverse : Set.InvOn (fun l => (l.row, l.vault, l.bank)) unitRow
      (digitBox g.rows g.vaults g.banks) g.locations := ⟨fun d _ => rfl, fun l _ => rfl⟩
  refine inverse.bijOn ?_ ?_
  · exact fun d h => ⟨holds_iff.2 ⟨h.2.1, h.2.2⟩, h.1⟩
  · exact fun l h => ⟨h.2, holds_iff.1 h.1⟩

theorem locateRow_eq (h : g.Regular) (unit : Nat) :
    g.locateRow unit = unitRow (digits g.rows g.vaults g.banks unit) := by
  simp only [locateRow, unitRow, digits, fieldOf_eq h.rows h.rows_lt,
    fieldOf_eq h.vaults h.vaults_lt, fieldOf_eq h.banks h.banks_lt, Nat.pow_add,
    two_pow_fieldBits h.rows, two_pow_fieldBits h.vaults, Nat.div_div_eq_div_mul]

theorem capacity_eq_units (g : Geometry) : g.capacity = g.rows * g.vaults * g.banks := by
  rw [capacity, Nat.mul_comm, Nat.mul_assoc]

/-- Each row is the place of one unit. -/
theorem locateRow_bijOn (h : g.Regular) :
    Set.BijOn g.locateRow (Set.Iio g.capacity) g.locations := by
  have places := g.unitRow_bijOn.comp (digits_bijOn (Nat.pos_of_isPowerOfTwo h.rows)
    (Nat.pos_of_isPowerOfTwo h.vaults) (Nat.pos_of_isPowerOfTwo h.banks))
  rw [← capacity_eq_units] at places
  exact places.congr fun unit _ => (locateRow_eq h unit).symm

theorem locateRow_add (h : g.Regular) (unit : Nat) :
    g.locateRow (unit + g.capacity) = g.locateRow unit := by
  rw [locateRow_eq h, locateRow_eq h, capacity_eq_units,
    digits_add (Nat.pos_of_isPowerOfTwo h.rows) (Nat.pos_of_isPowerOfTwo h.vaults)]

/-! ## Chunks -/

/-- A row by the digits of its chunk. -/
def chunkRow (d : Nat × Nat × Nat) : Location := { vault := d.1, bank := d.2.1, row := d.2.2 }

theorem chunkRow_bijOn (g : Geometry) :
    Set.BijOn chunkRow (digitBox g.vaults g.banks g.rows) g.locations := by
  have inverse : Set.InvOn (fun l => (l.vault, l.bank, l.row)) chunkRow
      (digitBox g.vaults g.banks g.rows) g.locations := ⟨fun d _ => rfl, fun l _ => rfl⟩
  refine inverse.bijOn ?_ ?_
  · exact fun d h => ⟨holds_iff.2 ⟨h.1, h.2.1⟩, h.2.2⟩
  · exact fun l h => ⟨(holds_iff.1 h.1).1, (holds_iff.1 h.1).2, h.2⟩

/-- An address is placed by the number of its chunk. -/
theorem locateAddress_eq (h : g.Regular) (power : chunk.isPowerOfTwo) (addr : Nat) :
    g.locateAddress addr chunk = chunkRow (digits g.vaults g.banks g.rows (addr / chunk)) := by
  simp only [locateAddress, chunkRow, digits, fieldOf_eq h.rows h.rows_lt,
    fieldOf_eq h.vaults h.vaults_lt, fieldOf_eq h.banks h.banks_lt, two_pow_fieldBits power,
    two_pow_fieldBits h.vaults, two_pow_fieldBits h.banks]

/-- The chunks of the stack. -/
structure Interleaves (g : Geometry) (chunk : Nat) : Prop where
  /-- Each row is the place of one chunk. -/
  bijOn : Set.BijOn (fun unit => g.locateAddress (unit * chunk) chunk) (Set.Iio g.capacity)
    g.locations
  /-- The bytes of a chunk are in one row. -/
  together : ∀ unit, ∀ offset < chunk,
    g.locateAddress (unit * chunk + offset) chunk = g.locateAddress (unit * chunk) chunk
  period : ∀ addr, g.locateAddress (addr + g.capacity * chunk) chunk = g.locateAddress addr chunk

theorem interleaves (h : g.Regular) (power : chunk.isPowerOfTwo) : g.Interleaves chunk where
  bijOn := by
    have positive := Nat.pos_of_isPowerOfTwo power
    have places := g.chunkRow_bijOn.comp (digits_bijOn (Nat.pos_of_isPowerOfTwo h.vaults)
      (Nat.pos_of_isPowerOfTwo h.banks) (Nat.pos_of_isPowerOfTwo h.rows))
    refine places.congr fun unit _ => ?_
    rw [locateAddress_eq h power, Nat.mul_div_cancel _ positive]
    rfl
  together := by
    intro unit offset inside
    have positive := Nat.pos_of_isPowerOfTwo power
    rw [locateAddress_eq h power, locateAddress_eq h power, mul_add_div_of_lt inside,
      Nat.mul_div_cancel _ positive]
  period := by
    intro addr
    have positive := Nat.pos_of_isPowerOfTwo power
    rw [locateAddress_eq h power, locateAddress_eq h power, Nat.add_mul_div_right _ _ positive,
      capacity, digits_add (Nat.pos_of_isPowerOfTwo h.vaults) (Nat.pos_of_isPowerOfTwo h.banks)]

/-! ## Stacks that are counted exactly -/

/-- Settings that pass the check and whose counts fit spread rows, chunks of addresses and the
numbers of banks evenly over the stack: each is in one-to-one correspondence with the places there
are, rows and chunks begin again after the last place, and no number needed for it, and no width by
which one is shifted, is too great for its word. -/
theorem ofSettings_covers {s : StackSettings} (accepted : s.check = .ok ()) (fit : s.CountsFit) :
    let g := ofSettings s
    (g.totalBanks < 2 ^ 32 ∧ g.capacity < 2 ^ addressBits) ∧
      Set.BijOn g.locateRow (Set.Iio g.capacity) g.locations ∧
      (∀ unit, g.locateRow (unit + g.capacity) = g.locateRow unit) ∧
      (∀ chunk, chunk.isPowerOfTwo → chunk < 2 ^ addressBits →
        g.capacity * chunk ≤ 2 ^ addressBits →
          (∀ width ∈ g.shifts chunk, width < addressBits) ∧
          (∀ unit < g.capacity, ∀ offset < chunk, unit * chunk + offset < 2 ^ addressBits) ∧
          g.Interleaves chunk) ∧
      (∀ p, g.holds p = true → g.bankId p < g.totalBanks ∧ g.bankAt (g.bankId p) = p) ∧
      ∀ id < g.totalBanks, g.holds (g.bankAt id) = true ∧ g.bankId (g.bankAt id) = id := by
  intro g
  have valid : s.Valid := StackSettings.check_eq_ok_iff.1 accepted
  have regular : g.Regular := valid.regular fit
  refine ⟨⟨valid.banks_lt, capacity_lt regular valid.banks_lt⟩, locateRow_bijOn regular,
    locateRow_add regular, fun chunk power word fits => ⟨?_, ?_, interleaves regular power⟩,
    fun p held => ?_, fun id inside => ⟨holds_bankAt inside, g.bankId_bankAt id⟩⟩
  · exact regular.shifts_lt power word
  · intro unit below offset inside
    calc
      unit * chunk + offset < (unit + 1) * chunk := by
        rw [Nat.succ_mul]
        exact Nat.add_lt_add_left inside _
      _ ≤ g.capacity * chunk := Nat.mul_le_mul_right _ below
      _ ≤ 2 ^ addressBits := fits
  · have inside := holds_iff.1 held
    exact ⟨bankId_lt inside.1 inside.2, g.bankAt_bankId inside.2⟩

/-- Two vaults of one bank, so that the field for the bank has no bits. -/
theorem ofSettings_covers_oneBank :
    let s : StackSettings := { vaults := 2, vaultSize := 65536, bankSize := 65536, rowSize := 8192 }
    let g := ofSettings s
    s.check = .ok () ∧ s.CountsFit ∧ g.capacity = 16 ∧
      Set.BijOn g.locateRow (Set.Iio 16) g.locations ∧ g.locateRow (9 + 16) = g.locateRow 9 ∧
      g.Interleaves 64 := by
  intro s g
  have accepted : s.check = .ok () := by decide +kernel
  have fit : s.CountsFit := ⟨by decide, by decide⟩
  have sixteen : g.capacity = 16 := by decide
  rcases ofSettings_covers accepted fit with ⟨_, units, period, chunks, _⟩
  have chunk := chunks 64 ⟨6, rfl⟩ (by decide) (by decide)
  exact ⟨accepted, fit, sixteen, sixteen ▸ units, sixteen ▸ period 9, chunk.2.2⟩

end Geometry

end StackedCache
