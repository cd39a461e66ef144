import StackedCache.Proofs.Settings.Valid

/-!
# Addresses and their fields

If lines and sets are counted by powers of two, an address is its tag, set and offset, and nothing
else: taking addresses apart and putting them together are inverse to each other, also where the
fields for set and offset would be wider than an address together.  `Splitter.ofSizes_inverse` says
so, and that two addresses have the same tag and set if they are in the same line, and only then.
-/

namespace StackedCache

/-- What is less than a divisor adds nothing to the quotient. -/
theorem mul_add_div_of_lt {n r : Nat} (h : r < n) (q : Nat) : (q * n + r) / n = q := by
  have positive : 0 < n := Nat.lt_of_le_of_lt (Nat.zero_le r) h
  rw [Nat.mul_comm, Nat.mul_add_div positive, Nat.div_eq_of_lt h, Nat.add_zero]

/-- A mask keeps the remainder. -/
theorem and_lowMask {bits : Nat} (h : bits ≤ addressBits) (n : Nat) :
    n &&& lowMask bits = n % 2 ^ bits := by
  rw [lowMask, Nat.min_eq_left h, Nat.and_two_pow_sub_one_eq_mod]

namespace Splitter

variable {s : Splitter} {addr set tag offset : Nat}

/-! ## Words -/

/-- The fields are what shifts and masks of words give, and no shift is as wide as a word. -/
structure Wordwise (s : Splitter) : Prop where
  lineBits : s.lineBits < addressBits
  setBits : s.setBits < addressBits
  split : ∀ addr, s.split addr =
    { set := (addr >>> s.lineBits) &&& lowMask s.setBits
      tag := addr >>> s.lineBits >>> s.setBits
      offset := addr &&& lowMask s.lineBits }
  join : ∀ set < 2 ^ addressBits, ∀ tag, s.join set tag =
    (((BitVec.ofNat addressBits tag <<< s.setBits) ||| BitVec.ofNat addressBits set)
      <<< s.lineBits).toNat

theorem wordwise (lineBits : s.lineBits < addressBits) (setBits : s.setBits < addressBits) :
    s.Wordwise where
  lineBits := lineBits
  setBits := setBits
  split := by
    intro addr
    simp only [and_lowMask (Nat.le_of_lt lineBits), and_lowMask (Nat.le_of_lt setBits),
      Nat.shiftRight_eq_div_pow]
    rfl
  join := by
    intro set small tag
    simp only [BitVec.toNat_shiftLeft, BitVec.toNat_or, BitVec.toNat_ofNat, Nat.shiftLeft_eq,
      Nat.mod_eq_of_lt small, Nat.mod_mul_mod]
    rfl

/-! ## Fields -/

/-- Nothing of an address is lost in its fields. -/
theorem split_eq (s : Splitter) (addr : Nat) :
    ((s.split addr).tag * s.sets + (s.split addr).set) * s.lineSize + (s.split addr).offset =
      addr := by
  simp only [split, Nat.div_add_mod']

/-- An address made of fields has these fields. -/
theorem split_of_fields (hset : set < s.sets) (hoffset : offset < s.lineSize) (tag : Nat) :
    s.split ((tag * s.sets + set) * s.lineSize + offset) = ⟨set, tag, offset⟩ := by
  simp only [split, mul_add_div_of_lt hoffset, mul_add_div_of_lt hset,
    Nat.mul_add_mod_of_lt hoffset, Nat.mul_add_mod_of_lt hset]

/-- If the line has an address, no bit of the set or the tag is lost. -/
theorem join_eq (hset : set < s.sets)
    (small : (tag * s.sets + set) * s.lineSize < 2 ^ addressBits) :
    s.join set tag = (tag * s.sets + set) * s.lineSize := by
  have positive : 0 < s.lineSize := Nat.two_pow_pos _
  have group : tag * s.sets < 2 ^ addressBits :=
    calc
      tag * s.sets ≤ tag * s.sets + set := Nat.le_add_right _ _
      _ ≤ (tag * s.sets + set) * s.lineSize := Nat.le_mul_of_pos_right _ positive
      _ < 2 ^ addressBits := small
  -- The set fills only bits that the shifted tag leaves free.
  have apart : tag * s.sets ||| set = tag * s.sets + set := by
    rw [Nat.mul_comm]
    exact (Nat.two_pow_add_eq_or_of_lt hset tag).symm
  rw [join, Nat.mod_eq_of_lt group, apart, Nat.mod_eq_of_lt small]

theorem join_split_eq (small : addr < 2 ^ addressBits) :
    s.join (s.split addr).set (s.split addr).tag =
      ((s.split addr).tag * s.sets + (s.split addr).set) * s.lineSize := by
  refine join_eq (s.split_set_lt addr) (Nat.lt_of_le_of_lt ?_ small)
  have whole := s.split_eq addr
  omega

/-- Putting the fields of an address together gives it back. -/
theorem join_split (small : addr < 2 ^ addressBits) :
    s.join (s.split addr).set (s.split addr).tag + (s.split addr).offset = addr := by
  rw [join_split_eq small, split_eq]

/-- Putting fields together and taking the result apart gives them back. -/
theorem split_join (hset : set < s.sets) (hoffset : offset < s.lineSize)
    (small : (tag * s.sets + set) * s.lineSize + offset < 2 ^ addressBits) :
    s.split (s.join set tag + offset) = ⟨set, tag, offset⟩ := by
  rw [join_eq hset (Nat.lt_of_le_of_lt (Nat.le_add_right _ _) small), split_of_fields hset hoffset]

/-- The set and the tag tell the line. -/
theorem line_eq (s : Splitter) (addr : Nat) :
    addr / s.lineSize = (s.split addr).tag * s.sets + (s.split addr).set :=
  (Nat.div_add_mod' (addr / s.lineSize) s.sets).symm

theorem sameLine_iff (s : Splitter) (a b : Nat) :
    (s.split a).set = (s.split b).set ∧ (s.split a).tag = (s.split b).tag ↔
      a / s.lineSize = b / s.lineSize := by
  constructor
  · rintro ⟨set, tag⟩
    rw [line_eq, line_eq, set, tag]
  · intro line
    simp only [split, line, and_self]

/-! ## Sizes that are powers of two -/

theorem ofSizes_wordwise {line sets : Nat} (hline : line.isPowerOfTwo) (hsets : sets.isPowerOfTwo)
    (line_lt : line < 2 ^ addressBits) (sets_lt : sets < 2 ^ addressBits) :
    (ofSizes line sets).Wordwise := by
  refine wordwise ?_ ?_
  · rw [← lineSize_ofSizes hline] at line_lt
    exact (Nat.pow_lt_pow_iff_right (by decide)).1 line_lt
  · rw [← sets_ofSizes hsets] at sets_lt
    exact (Nat.pow_lt_pow_iff_right (by decide)).1 sets_lt

/-- Taking addresses apart, by shifts and masks, and putting them together are inverse to each
other.  Every address has fields within bounds, which are put together without loss; fields whose
address is in range are got back from it; and the addresses with the same set and tag are those of
one line. -/
theorem ofSizes_inverse {line sets : Nat} (hline : line.isPowerOfTwo) (hsets : sets.isPowerOfTwo)
    (line_lt : line < 2 ^ addressBits) (sets_lt : sets < 2 ^ addressBits) :
    let s := ofSizes line sets
    s.Wordwise ∧
      (∀ addr < 2 ^ addressBits,
        (s.split addr).set < sets ∧ (s.split addr).offset < line ∧
          s.join (s.split addr).set (s.split addr).tag =
            ((s.split addr).tag * sets + (s.split addr).set) * line ∧
          s.join (s.split addr).set (s.split addr).tag + (s.split addr).offset = addr) ∧
      (∀ set tag offset, set < sets → offset < line →
        tag * sets * line + set * line + offset < 2 ^ addressBits →
          s.split (s.join set tag + offset) = ⟨set, tag, offset⟩) ∧
      ∀ a < 2 ^ addressBits, ∀ b < 2 ^ addressBits,
        (s.split a).set = (s.split b).set ∧ (s.split a).tag = (s.split b).tag ↔
          a / line = b / line := by
  intro s
  have lineSize : s.lineSize = line := lineSize_ofSizes hline
  have count : s.sets = sets := sets_ofSizes hsets
  refine ⟨ofSizes_wordwise hline hsets line_lt sets_lt,
    fun addr small => ⟨?_, ?_, ?_, join_split small⟩, ?_, fun a _ b _ => ?_⟩
  · rw [← count]
    exact s.split_set_lt addr
  · rw [← lineSize]
    exact s.split_offset_lt addr
  · rw [← count, ← lineSize]
    exact join_split_eq small
  · intro set tag offset hset hoffset small
    rw [← Nat.add_mul, ← count, ← lineSize] at small
    exact split_join (count.symm ▸ hset) (lineSize.symm ▸ hoffset) small
  · rw [← lineSize]
    exact s.sameLine_iff a b

/-- Two sets of lines that take half of the addresses each: the greatest address. -/
theorem ofSizes_inverse_widest :
    let s := ofSizes (2 ^ 63) (2 ^ 63)
    s.lineBits + s.setBits = 126 ∧ s.split (2 ^ 64 - 1) = ⟨1, 0, 2 ^ 63 - 1⟩ ∧
      s.join 1 0 + (2 ^ 63 - 1) = 2 ^ 64 - 1 := by
  intro s
  have widths : s = ⟨63, 63⟩ := by
    simp only [s, ofSizes, fieldBits_two_pow]
  have joined : s.join 1 0 + (2 ^ 63 - 1) = 2 ^ 64 - 1 := by
    rw [widths]
    rfl
  rcases @ofSizes_inverse (2 ^ 63) (2 ^ 63) ⟨63, rfl⟩ ⟨63, rfl⟩ (by decide) (by decide) with
    ⟨_, _, together, _⟩
  refine ⟨congrArg (fun s : Splitter => s.lineBits + s.setBits) widths, ?_, joined⟩
  rw [← joined]
  exact together 1 0 (2 ^ 63 - 1) (by decide) (by decide) (by decide)

end Splitter

end StackedCache
