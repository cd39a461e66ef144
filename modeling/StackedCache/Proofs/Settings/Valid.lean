import StackedCache.Placement
import StackedCache.Settings.Check

/-!
# Valid settings

What the check of settings accepts, section by section, as a proposition:
`Settings.check_eq_ok_iff`. The numbers that follow from valid settings are not zero, and banks and
rows are counted exactly if their numbers fit into a word.
-/

namespace StackedCache

/-! ## Single rules -/

namespace Check

theorem isPowerOfTwo_iff {n : Nat} : isPowerOfTwo n = true ↔ n.isPowerOfTwo := by
  simp only [isPowerOfTwo, decide_eq_true_iff]
  constructor
  · intro h
    exact ⟨n.log2, h.symm⟩
  · rintro ⟨k, rfl⟩
    rw [Nat.log2_two_pow]

theorem require_eq_ok_iff {condition : Bool} {reason : String} :
    require condition reason = .ok () ↔ condition = true := by
  cases condition <;> simp [require]

theorem nonZero_eq_ok_iff {field : String} {value : Nat} :
    nonZero field value = .ok () ↔ value ≠ 0 := by
  simp [nonZero]

theorem bind_eq_ok_iff {first : Check} {second : Unit → Check} :
    (first >>= second) = .ok () ↔ first = .ok () ∧ second () = .ok () := by
  cases first with
  | error fault => simp [bind, Except.bind]
  | ok _ => simp [bind, Except.bind]

theorem powerOfTwo_eq_ok_iff {field : String} {value : Nat} :
    powerOfTwo field value = .ok () ↔ value.isPowerOfTwo := by
  simp only [powerOfTwo, bind_eq_ok_iff, nonZero_eq_ok_iff]
  constructor
  · rintro ⟨_, h⟩
    split at h
    · rename_i power
      exact isPowerOfTwo_iff.1 power
    · cases h
  · intro h
    -- Zero is refused on its own first, but is no power of two anyway.
    refine ⟨Nat.ne_of_gt (Nat.pos_of_isPowerOfTwo h), ?_⟩
    rw [if_pos (isPowerOfTwo_iff.2 h)]

end Check

open Check

/-! ## Sections -/

/-- Settings of the stack that pass the check. -/
structure StackSettings.Valid (s : StackSettings) : Prop where
  vaults : s.vaults.toNat.isPowerOfTwo
  vaultSize : s.vaultSize.toNat.isPowerOfTwo
  bankSize : s.bankSize.toNat.isPowerOfTwo
  rowSize : s.rowSize.toNat.isPowerOfTwo
  requestBytes : s.requestBytes.toNat.isPowerOfTwo
  bank_le : s.bankSize.toNat ≤ s.vaultSize.toNat
  row_le : s.rowSize.toNat ≤ s.bankSize.toNat
  banks_lt : s.totalBanks < 2 ^ 32
  tick : s.speed.tck.toNat ≠ 0
  bandwidth : s.bandwidth.usable = true

/-- Settings of the cache that pass the check. -/
structure CacheSettings.Valid (s : CacheSettings) : Prop where
  sets : s.sets.toNat.isPowerOfTwo
  associativity : s.associativity.toNat ≠ 0
  blockSize : s.blockSize.toNat.isPowerOfTwo
  pageSize : s.pageSize.toNat.isPowerOfTwo
  footprintEntries : s.footprintEntries.toNat ≠ 0
  tagsPerRow : s.tagsPerRow.toNat ≠ 0
  block_le : s.blockSize.toNat ≤ s.pageSize.toNat
  blocks_le : s.blocksPerPage ≤ trackedBlocks
  associativity_le : s.associativity.toNat ≤ usageLimit

/-- Settings of the segments that pass the check. -/
structure SegmentSettings.Valid (s : SegmentSettings) : Prop where
  segmentSize : s.segmentSize.toNat.isPowerOfTwo
  fastMemory : s.fastMemory.toNat ≠ 0
  slots : s.slots.toNat ≠ 0
  swapCount : s.swapCount.toNat ≠ 0
  multiple : s.fastMemory.toNat % s.segmentSize.toNat = 0

/-- Settings of the relocation that pass the check. -/
structure RelocationSettings.Valid (s : RelocationSettings) : Prop where
  finite : ∀ t ∈ s.temperatures, t.isFinite = true
  cool_le : s.high.below s.cool = false
  high_le : s.dangerous.below s.high = false
  hotRows : s.hotRows.toNat ≠ 0

/-- Settings that pass the check. -/
structure Settings.Valid (s : Settings) : Prop where
  stack : s.stack.Valid
  cache : s.cache.Valid
  segment : s.cache.design = .constant → s.segment.Valid
  memory : s.memory.bandwidth.usable = true
  relocation : s.relocation.Valid

theorem StackSettings.check_eq_ok_iff {s : StackSettings} : s.check = .ok () ↔ s.Valid := by
  simp only [StackSettings.check, usable, bind_eq_ok_iff, powerOfTwo_eq_ok_iff, nonZero_eq_ok_iff,
    require_eq_ok_iff, decide_eq_true_iff, UInt64.le_iff_toNat_le]
  constructor
  · rintro ⟨h₁, h₂, h₃, h₄, h₅, h₆, h₇, h₈, h₉, h₁₀⟩
    exact ⟨h₁, h₂, h₃, h₄, h₅, h₆, h₇, h₈, h₉, h₁₀⟩
  · rintro ⟨h₁, h₂, h₃, h₄, h₅, h₆, h₇, h₈, h₉, h₁₀⟩
    exact ⟨h₁, h₂, h₃, h₄, h₅, h₆, h₇, h₈, h₉, h₁₀⟩

theorem CacheSettings.check_eq_ok_iff {s : CacheSettings} : s.check = .ok () ↔ s.Valid := by
  simp only [CacheSettings.check, bind_eq_ok_iff, powerOfTwo_eq_ok_iff, nonZero_eq_ok_iff,
    require_eq_ok_iff, decide_eq_true_iff, UInt64.le_iff_toNat_le]
  constructor
  · rintro ⟨h₁, h₂, h₃, h₄, h₅, h₆, h₇, h₈, h₉⟩
    exact ⟨h₁, h₂, h₃, h₄, h₅, h₆, h₇, h₈, h₉⟩
  · rintro ⟨h₁, h₂, h₃, h₄, h₅, h₆, h₇, h₈, h₉⟩
    exact ⟨h₁, h₂, h₃, h₄, h₅, h₆, h₇, h₈, h₉⟩

theorem SegmentSettings.check_eq_ok_iff {s : SegmentSettings} : s.check = .ok () ↔ s.Valid := by
  simp only [SegmentSettings.check, bind_eq_ok_iff, powerOfTwo_eq_ok_iff, nonZero_eq_ok_iff,
    require_eq_ok_iff, decide_eq_true_iff]
  constructor
  · rintro ⟨h₁, h₂, h₃, h₄, h₅⟩
    exact ⟨h₁, h₂, h₃, h₄, h₅⟩
  · rintro ⟨h₁, h₂, h₃, h₄, h₅⟩
    exact ⟨h₁, h₂, h₃, h₄, h₅⟩

theorem RelocationSettings.check_eq_ok_iff {s : RelocationSettings} :
    s.check = .ok () ↔ s.Valid := by
  simp only [RelocationSettings.check, bind_eq_ok_iff, nonZero_eq_ok_iff, require_eq_ok_iff,
    List.all_eq_true, Bool.and_eq_true, Bool.not_eq_true']
  constructor
  · rintro ⟨h₁, ⟨h₂, h₃⟩, h₄⟩
    exact ⟨h₁, h₂, h₃, h₄⟩
  · rintro ⟨h₁, h₂, h₃, h₄⟩
    exact ⟨h₁, ⟨h₂, h₃⟩, h₄⟩

/-- The check accepts the valid settings and no others. -/
theorem Settings.check_eq_ok_iff {s : Settings} : s.check = .ok () ↔ s.Valid := by
  have memory : s.memory.check = .ok () ↔ s.memory.bandwidth.usable = true := require_eq_ok_iff
  -- Segments are checked by one design only, so the two chains of checks differ in length.
  by_cases constant : s.cache.design = .constant
  · simp only [Settings.check, constant, if_true, bind_eq_ok_iff, memory,
      StackSettings.check_eq_ok_iff, CacheSettings.check_eq_ok_iff, SegmentSettings.check_eq_ok_iff,
      RelocationSettings.check_eq_ok_iff]
    constructor
    · rintro ⟨h₁, h₂, h₃, h₄, h₅⟩
      exact ⟨h₁, h₂, fun _ => h₃, h₄, h₅⟩
    · rintro ⟨h₁, h₂, h₃, h₄, h₅⟩
      exact ⟨h₁, h₂, h₃ constant, h₄, h₅⟩
  · simp only [Settings.check, constant, if_false, bind_eq_ok_iff, memory,
      StackSettings.check_eq_ok_iff, CacheSettings.check_eq_ok_iff,
      RelocationSettings.check_eq_ok_iff]
    constructor
    · rintro ⟨h₁, h₂, h₄, h₅⟩
      exact ⟨h₁, h₂, fun h => absurd h constant, h₄, h₅⟩
    · rintro ⟨h₁, h₂, _, h₄, h₅⟩
      exact ⟨h₁, h₂, h₄, h₅⟩

/-! ## Thresholds -/

namespace RelocationSettings.Valid

variable {s : RelocationSettings} {t : Celsius}

theorem reaches_high (h : s.Valid) (dangerous : t.reaches s.dangerous = true) :
    t.reaches s.high = true :=
  Celsius.reaches_of_reaches dangerous (h.finite _ (by simp [temperatures])) h.high_le

theorem reaches_cool (h : s.Valid) (high : t.reaches s.high = true) : t.reaches s.cool = true :=
  Celsius.reaches_of_reaches high (h.finite _ (by simp [temperatures])) h.cool_le

end RelocationSettings.Valid

/-! ## Derived numbers -/

/-- The quotient of a power of two by a smaller one is a power of two. -/
theorem isPowerOfTwo_div {m n : Nat} (hm : m.isPowerOfTwo) (hn : n.isPowerOfTwo) (hle : n ≤ m) :
    (m / n).isPowerOfTwo := by
  rcases hm with ⟨k, rfl⟩
  rcases hn with ⟨j, rfl⟩
  have hjk : j ≤ k := (Nat.pow_le_pow_iff_right (by decide)).1 hle
  exact ⟨k - j, Nat.pow_div hjk (by decide)⟩

namespace StackSettings

variable {s : StackSettings}

/-- The banks of a vault and the rows of a bank are counted in 32 bits. -/
structure CountsFit (s : StackSettings) : Prop where
  banks : s.vaultSize.toNat / s.bankSize.toNat < 2 ^ 32
  rows : s.bankSize.toNat / s.rowSize.toNat < 2 ^ 32

theorem CountsFit.banksPerVault (h : s.CountsFit) :
    s.banksPerVault = s.vaultSize.toNat / s.bankSize.toNat :=
  Nat.mod_eq_of_lt h.banks

theorem CountsFit.rowsPerBank (h : s.CountsFit) :
    s.rowsPerBank = s.bankSize.toNat / s.rowSize.toNat :=
  Nat.mod_eq_of_lt h.rows

end StackSettings

/-- Vaults, banks and rows are counted by bit fields of a word. -/
structure Geometry.Regular (g : Geometry) : Prop where
  vaults : g.vaults.isPowerOfTwo
  banks : g.banks.isPowerOfTwo
  rows : g.rows.isPowerOfTwo
  vaults_lt : g.vaults < 2 ^ 32
  banks_lt : g.banks < 2 ^ 32
  rows_lt : g.rows < 2 ^ 32

theorem StackSettings.Valid.regular {s : StackSettings} (valid : s.Valid) (fit : s.CountsFit) :
    (Geometry.ofSettings s).Regular where
  vaults := valid.vaults
  banks := by
    have power := isPowerOfTwo_div valid.vaultSize valid.bankSize valid.bank_le
    rwa [← fit.banksPerVault] at power
  rows := by
    have power := isPowerOfTwo_div valid.bankSize valid.rowSize valid.row_le
    rwa [← fit.rowsPerBank] at power
  vaults_lt := s.vaults.toNat_lt
  banks_lt := Nat.mod_lt _ (by decide)
  rows_lt := Nat.mod_lt _ (by decide)

/-! ## Places in a regular stack -/

namespace Geometry

variable {g : Geometry}

theorem fieldOf_lt {size : Nat} (power : size.isPowerOfTwo) (n : Nat) : fieldOf size n < size := by
  rcases power with ⟨k, rfl⟩
  rw [fieldOf, fieldBits_two_pow]
  calc
    narrow (n % 2 ^ k) ≤ n % 2 ^ k := Nat.mod_le _ _
    _ < 2 ^ k := Nat.mod_lt _ (Nat.two_pow_pos k)

/-- Every row-sized unit has a place in the stack. -/
theorem locateRow_held (h : g.Regular) (unit : Nat) :
    g.holds (g.locateRow unit).place = true ∧ (g.locateRow unit).row < g.rows :=
  ⟨holds_iff.2 ⟨fieldOf_lt h.vaults _, fieldOf_lt h.banks _⟩, fieldOf_lt h.rows _⟩

/-- Every address has a place in the stack. -/
theorem locateAddress_held (h : g.Regular) (addr chunk : Nat) :
    g.holds (g.locateAddress addr chunk).place = true ∧ (g.locateAddress addr chunk).row < g.rows :=
  ⟨holds_iff.2 ⟨fieldOf_lt h.vaults _, fieldOf_lt h.banks _⟩, fieldOf_lt h.rows _⟩

end Geometry

/-! ## Taking addresses apart -/

namespace Splitter

variable {line sets : Nat}

theorem lineSize_ofSizes (power : line.isPowerOfTwo) : (ofSizes line sets).lineSize = line := by
  rcases power with ⟨k, rfl⟩
  rw [lineSize, ofSizes, fieldBits_two_pow]

theorem sets_ofSizes (power : sets.isPowerOfTwo) : (ofSizes line sets).sets = sets := by
  rcases power with ⟨k, rfl⟩
  rw [Splitter.sets, ofSizes, fieldBits_two_pow]

theorem split_set_lt (s : Splitter) (addr : Nat) : (s.split addr).set < s.sets :=
  Nat.mod_lt _ (Nat.two_pow_pos _)

theorem split_offset_lt (s : Splitter) (addr : Nat) : (s.split addr).offset < s.lineSize :=
  Nat.mod_lt _ (Nat.two_pow_pos _)

/-- The greatest tag comes from addresses that are tags altogether: a line has one byte, and there
is one set. -/
theorem sizes_of_split_tag {s : Splitter} {addr : Nat} (small : addr < 2 ^ addressBits)
    (greatest : (s.split addr).tag = 2 ^ addressBits - 1) : s.lineSize = 1 ∧ s.sets = 1 := by
  have hline : 0 < s.lineSize := Nat.two_pow_pos _
  have hsets : 0 < s.sets := Nat.two_pow_pos _
  -- With two bytes in all the lines of a tag, the greatest tag would need a longer address.
  have hle : (2 ^ addressBits - 1) * (s.lineSize * s.sets) ≤ addr := by
    calc
      (2 ^ addressBits - 1) * (s.lineSize * s.sets)
          = addr / (s.lineSize * s.sets) * (s.lineSize * s.sets) := by
            rw [← greatest, split, Nat.div_div_eq_div_mul]
      _ ≤ addr := Nat.div_mul_le_self _ _
  have hone : s.lineSize * s.sets = 1 := by
    have hpos : 0 < s.lineSize * s.sets := Nat.mul_pos hline hsets
    by_cases htwo : 2 ≤ s.lineSize * s.sets
    · have := Nat.mul_le_mul_left (2 ^ addressBits - 1) htwo
      simp only [addressBits] at *
      omega
    · omega
  exact ⟨Nat.eq_one_of_mul_eq_one_right hone, Nat.eq_one_of_mul_eq_one_left hone⟩

end Splitter

/-- The block at an offset is one of the blocks of the line. -/
theorem block_lt {block line offset : Nat} (hblock : block.isPowerOfTwo) (hline : line.isPowerOfTwo)
    (hle : block ≤ line) (hoffset : offset < line) : offset / block < line / block := by
  rcases hline with ⟨k, rfl⟩
  rcases hblock with ⟨j, rfl⟩
  have hjk : j ≤ k := (Nat.pow_le_pow_iff_right (by decide)).1 hle
  have hdvd : 2 ^ j ∣ 2 ^ k := Nat.pow_dvd_pow 2 hjk
  -- Rounding down keeps the order strictly, as the line is a whole number of blocks.
  exact Nat.div_lt_div_of_lt_of_dvd hdvd hoffset

end StackedCache
