import StackedCache.Quantity.Celsius

/-!
# Temperatures as floats

Comparisons of temperatures are defined in integers, on the bits.  Here they are tied to the floats
that the bits stand for: `below_iff` and `reaches_iff` to their comparisons, and `order_lt_iff` and
`order_inj` to the total order of numbers.  The bridge is `compare_unpack`: floats are compared by
sign, exponent and mantissa, and ranks are these three read as one number.

The mean of readings that are listed by number is their sum, divided by how many there are:
`mean_range`.
-/

namespace StackedCache

open Float.Model UnpackedFloat

namespace Celsius

variable {t u : Celsius} {a b : Int}

/-! ## The parts of a float -/

/-- The sign bit, as floats are taken apart. -/
def sign (t : Celsius) : Sign := if t.negative then .negative else .positive

theorem magnitude_lt (t : Celsius) : t.magnitude < 2 ^ 63 := Nat.mod_lt _ (by decide)

theorem toNat_exponent (t : Celsius) :
    (@unpackExponent .binary64 t.value.toBits.toBitVec).toNat = t.magnitude / 2 ^ 52 := by
  simp only [unpackExponent, BitVec.toNat_cast, BitVec.extractLsb_toNat, Nat.shiftRight_eq_div_pow,
    magnitude, UInt64.toNat_toBitVec]
  omega

theorem toNat_mantissa (t : Celsius) :
    (@unpackMantissa .binary64 t.value.toBits.toBitVec).toNat = t.magnitude % 2 ^ 52 := by
  simp only [unpackMantissa, BitVec.toNat_cast, BitVec.extractLsb_toNat, Nat.shiftRight_eq_div_pow,
    magnitude, UInt64.toNat_toBitVec]
  omega

theorem sign_ofBitVec (t : Celsius) :
    Sign.ofBitVec (@unpackSign .binary64 t.value.toBits.toBitVec) = t.sign := by
  have bit : (@unpackSign .binary64 t.value.toBits.toBitVec).toNat =
      t.value.toBits.toNat / 2 ^ 63 % 2 := by
    have extracted : (@unpackSign .binary64 t.value.toBits.toBitVec).toNat =
        (t.value.toBits.toBitVec.extractLsb 63 63).toNat := rfl
    rw [extracted, BitVec.extractLsb_toNat, Nat.shiftRight_eq_div_pow, UInt64.toNat_toBitVec]
  have fits := t.value.toBits.toNat_lt
  have clear : @unpackSign .binary64 t.value.toBits.toBitVec = 0#1 ↔ t.negative = false := by
    rw [← BitVec.toNat_inj, bit, negative, decide_eq_false_iff_not]
    simp only [BitVec.toNat_ofNat]
    omega
  rw [Sign.ofBitVec, sign]
  cases h : t.negative <;> simp [clear, h]

theorem exponent_full_iff (t : Celsius) :
    @unpackExponent .binary64 t.value.toBits.toBitVec = -1#11 ↔ t.magnitude / 2 ^ 52 = 2047 := by
  rw [← BitVec.toNat_inj, t.toNat_exponent]
  rfl

theorem exponent_empty_iff (t : Celsius) :
    @unpackExponent .binary64 t.value.toBits.toBitVec = 0#11 ↔ t.magnitude / 2 ^ 52 = 0 := by
  rw [← BitVec.toNat_inj, t.toNat_exponent]
  rfl

theorem mantissa_zero_iff (t : Celsius) :
    @unpackMantissa .binary64 t.value.toBits.toBitVec = 0#52 ↔ t.magnitude % 2 ^ 52 = 0 := by
  rw [← BitVec.toNat_inj, t.toNat_mantissa]
  rfl

/-- The mantissa and the exponent of a finite float other than zero.  All but the least floats have
the leading bit. -/
structure Parts (t : Celsius) (m : Nat) (e : Int) : Prop where
  magnitude : (t.magnitude : Int) = (e + 1074) * 2 ^ 52 + m
  least : -1074 ≤ e
  below : m < 2 ^ 53
  leading : 2 ^ 52 ≤ m ∨ e = -1074

theorem toNat_leading {n : Nat} (m : BitVec n) : (1#1 ++ m).toNat = 2 ^ n + m.toNat := by
  have apart := Nat.two_pow_add_eq_or_of_lt m.isLt 1
  rw [Nat.mul_one] at apart
  rw [apart, BitVec.toNat_append, BitVec.toNat_ofNat, Nat.shiftLeft_eq, Nat.one_mul]

/-- What a float is, by its magnitude. -/
theorem unpack_cases (t : Celsius) :
    (infinity < t.magnitude ∧ t.value.toModel.unpack = .notANumber) ∨
      (t.magnitude = infinity ∧ t.value.toModel.unpack = .infinity t.sign) ∨
      (t.magnitude = 0 ∧ t.value.toModel.unpack = .zero t.sign) ∨
      ∃ (m : Nat) (e : Int) (pos : 0 < m), 0 < t.magnitude ∧ t.magnitude < infinity ∧
        t.Parts m e ∧ t.value.toModel.unpack = .finite t.sign m e pos := by
  have range := t.magnitude_lt
  have mantissa := t.toNat_mantissa
  have field := t.toNat_exponent
  let exponent : Int := (@unpackExponent .binary64 t.value.toBits.toBitVec).toNat
  have full := t.exponent_full_iff
  have empty := t.exponent_empty_iff
  have zero := t.mantissa_zero_iff
  have sign := t.sign_ofBitVec
  have finite (m : Nat) (e : Int) (pos : 0 < m) :
      UnpackedFloat.finite (Sign.ofBitVec (@unpackSign .binary64 t.value.toBits.toBitVec)) m e pos =
        .finite t.sign m e pos := by rw [sign]
  rw [infinity]
  -- A float is taken apart by three questions about its two fields, asked here in the same order.
  by_cases top : t.magnitude / 2 ^ 52 = 2047
  · by_cases bare : t.magnitude % 2 ^ 52 = 0
    · have infinite := congrArg UnpackedFloat.infinity sign
      exact .inr (.inl ⟨by omega,
        (if_pos (full.2 top)).trans ((if_pos (zero.2 bare)).trans infinite)⟩)
    · exact .inl ⟨by omega, (if_pos (full.2 top)).trans (if_neg (bare ∘ zero.1))⟩
  · by_cases low : t.magnitude / 2 ^ 52 = 0
    · by_cases bare : t.magnitude % 2 ^ 52 = 0
      · have nothing := congrArg UnpackedFloat.zero sign
        exact .inr (.inr (.inl ⟨by omega, (if_neg (top ∘ full.1)).trans
          ((if_pos (empty.2 low)).trans ((dif_pos (zero.2 bare)).trans nothing))⟩))
      · have pos : 0 < (@unpackMantissa .binary64 t.value.toBits.toBitVec).toNat := by omega
        refine .inr (.inr (.inr ⟨_, exponent - 1075 + 1, pos, by omega, by omega, ?_,
          (if_neg (top ∘ full.1)).trans ((if_pos (empty.2 low)).trans
            ((dif_neg (bare ∘ zero.1)).trans (finite _ _ pos)))⟩))
        constructor <;> omega
    · have whole : (1#1 ++ @unpackMantissa .binary64 t.value.toBits.toBitVec).toNat =
          2 ^ 52 + t.magnitude % 2 ^ 52 := (toNat_leading _).trans (congrArg (2 ^ 52 + ·) mantissa)
      have pos : 0 < (1#1 ++ @unpackMantissa .binary64 t.value.toBits.toBitVec).toNat := by omega
      refine .inr (.inr (.inr ⟨_, exponent - 1075, pos, by omega, by omega, ?_,
        (if_neg (top ∘ full.1)).trans ((if_neg (low ∘ empty.1)).trans (finite _ _ pos))⟩))
      constructor <;> omega

theorem isNaN_eq (t : Celsius) : t.isNaN = t.value.isNaN := by
  have unpacked : t.value.isNaN = t.value.toModel.unpack.isNaN := rfl
  rw [unpacked, isNaN]
  rcases t.unpack_cases with ⟨nan, here⟩ | ⟨top, here⟩ | ⟨zero, here⟩ | ⟨m, e, pos, _, lt, _, here⟩
  · rw [here, decide_eq_true nan]
    rfl
  · rw [here, decide_eq_false (by omega)]
    rfl
  · rw [here, zero]
    rfl
  · rw [here, decide_eq_false (by omega)]
    rfl

/-! ## The order of numbers -/

/-- Exponents come first, and then mantissas: together they are the magnitude. -/
theorem Parts.compare {m m' : Nat} {e e' : Int} (h : t.Parts m e) (h' : u.Parts m' e') :
    (Ord.compare e e').then (Ord.compare m m') = Ord.compare (t.magnitude : Int) u.magnitude := by
  rcases h with ⟨magnitude, least, below, leading⟩
  rcases h' with ⟨magnitude', least', below', leading'⟩
  rcases Int.lt_trichotomy e e' with lt | rfl | gt
  · rw [Int.compare_eq_lt.2 lt, Int.compare_eq_lt.2 (by omega)]
    rfl
  · have mantissas : Ord.compare (t.magnitude : Int) u.magnitude = Ord.compare m m' := by
      rcases Nat.lt_trichotomy m m' with lt | rfl | gt
      · rw [Int.compare_eq_lt.2 (by omega), Nat.compare_eq_lt.2 lt]
      · rw [Int.compare_eq_eq.2 (by omega), Nat.compare_eq_eq.2 rfl]
      · rw [Int.compare_eq_gt.2 (by omega), Nat.compare_eq_gt.2 gt]
    rw [Int.compare_eq_eq.2 rfl, mantissas]
    rfl
  · rw [Int.compare_eq_gt.2 gt, Int.compare_eq_gt.2 (by omega)]
    rfl

theorem compare_neg_neg {o : Ordering} {x y : Int} (compared : o = Ord.compare x y) :
    o.swap = Ord.compare (-x) (-y) := by
  rw [compared, Int.compare_swap]
  rcases Int.lt_trichotomy x y with lt | rfl | gt
  · rw [Int.compare_eq_gt.2 lt, Int.compare_eq_gt.2 (by omega)]
  · rw [Int.compare_eq_eq.2 rfl, Int.compare_eq_eq.2 rfl]
  · rw [Int.compare_eq_lt.2 gt, Int.compare_eq_lt.2 (by omega)]

theorem rank?_eq_some_iff : t.rank? = some a ↔
    t.magnitude ≤ infinity ∧ t.sign.apply t.magnitude = a := by
  unfold rank? isNaN sign
  by_cases nan : infinity < t.magnitude
  · simp [nan, Nat.not_le.2 nan]
  · cases negative : t.negative <;> simp [nan, Sign.apply] <;> omega

/-- Floats of ranks `a` and `b` compare as `a` and `b` do. -/
theorem compare_unpack (ht : t.rank? = some a) (hu : u.rank? = some b) :
    t.value.toModel.unpack.compare u.value.toModel.unpack = some (Ord.compare a b) := by
  rcases rank?_eq_some_iff.1 ht with ⟨number, rfl⟩
  rcases rank?_eq_some_iff.1 hu with ⟨number', rfl⟩
  have less {x y : Int} (lt : x < y) : some Ordering.lt = some (Ord.compare x y) :=
    congrArg some (Int.compare_eq_lt.2 lt).symm
  have greater {x y : Int} (gt : y < x) : some Ordering.gt = some (Ord.compare x y) :=
    congrArg some (Int.compare_eq_gt.2 gt).symm
  have equal {x y : Int} (eq : x = y) : some Ordering.eq = some (Ord.compare x y) :=
    congrArg some (Int.compare_eq_eq.2 eq).symm
  have positive : 0 < infinity := by decide
  rcases t.unpack_cases with ⟨nan, _⟩ | ⟨top, unpacked⟩ | ⟨zero, unpacked⟩ |
    ⟨m, e, pos, above, lt, parts, unpacked⟩
  · omega
  all_goals
    rcases u.unpack_cases with ⟨nan, _⟩ | ⟨top', unpacked'⟩ | ⟨zero', unpacked'⟩ |
      ⟨m', e', pos', above', lt', parts', unpacked'⟩
    · omega
    all_goals
      rw [unpacked, unpacked']
      cases t.sign <;> cases u.sign
      -- The kinds and the signs decide, except between two finite floats of one sign.
      all_goals
        dsimp only [Sign.apply]
        first
        | exact less (by omega)
        | exact greater (by omega)
        | exact equal (by omega)
        | exact congrArg some (parts.compare parts')
        | exact congrArg some (compare_neg_neg (parts.compare parts'))

/-- A NaN compares with nothing. -/
theorem compare_unpack_of_isNaN (nan : t.isNaN = true ∨ u.isNaN = true) :
    t.value.toModel.unpack.compare u.value.toModel.unpack = Option.none := by
  have alone : ∀ {t : Celsius}, t.isNaN = true → t.value.toModel.unpack = .notANumber := by
    intro t nan
    rw [isNaN, decide_eq_true_iff] at nan
    rcases t.unpack_cases with ⟨_, unpacked⟩ | ⟨top, _⟩ | ⟨zero, _⟩ | ⟨_, _, _, _, lt, _⟩
    · exact unpacked
    all_goals omega
  rcases nan with nan | nan
  · rw [alone nan]
    rfl
  · rw [alone nan]
    cases t.value.toModel.unpack with
    | infinity s => cases s <;> rfl
    | notANumber => rfl
    | zero s => rfl
    | finite s m e pos => cases s <;> rfl

theorem below_iff : t.below u = true ↔ t.value < u.value := by
  have unpacked : t.value < u.value ↔
      (t.value.toModel.unpack.compare u.value.toModel.unpack == some .lt) = true :=
    decide_eq_true_iff
  rw [unpacked, below]
  cases ht : t.rank? with
  | none => simp [compare_unpack_of_isNaN (.inl (rank?_eq_none_iff.1 ht))]
  | some a =>
      cases hu : u.rank? with
      | none => simp [compare_unpack_of_isNaN (.inr (rank?_eq_none_iff.1 hu))]
      | some b => simp [compare_unpack ht hu, Int.compare_eq_lt]

theorem reaches_iff : t.reaches u = true ↔ u.value ≤ t.value := by
  have unpacked : u.value ≤ t.value ↔
      (u.value.toModel.unpack.compare t.value.toModel.unpack).any (·.isLE) = true :=
    decide_eq_true_iff
  rw [unpacked, reaches]
  cases ht : t.rank? with
  | none => simp [compare_unpack_of_isNaN (.inr (rank?_eq_none_iff.1 ht))]
  | some a =>
      cases hu : u.rank? with
      | none => simp [compare_unpack_of_isNaN (.inl (rank?_eq_none_iff.1 hu))]
      | some b => simp [compare_unpack hu ht, Int.isLE_compare]

/-! ## The total order -/

/-- Only the same float has the same place in the total order. -/
theorem order_inj : t.order = u.order ↔ t = u := by
  refine ⟨fun same => ?_, fun same => by rw [same]⟩
  have bits : t.value.toBits.toNat = u.value.toBits.toNat := by
    have fits := t.value.toBits.toNat_lt
    have fits' := u.value.toBits.toNat_lt
    simp only [order, negative, magnitude, decide_eq_true_iff, ge_iff_le] at same
    split at same <;> split at same <;> omega
  rcases t with ⟨⟨⟨t, _⟩⟩⟩
  rcases u with ⟨⟨⟨u, _⟩⟩⟩
  cases UInt64.toNat_inj.1 bits
  rfl

/-- The total order of numbers is that of floats, with the negative zero before the positive one. -/
theorem order_lt_iff (ht : t.isNaN = false) (hu : u.isNaN = false) :
    t.order < u.order ↔ t.value < u.value ∨ t = ⟨-0.0⟩ ∧ u = ⟨0.0⟩ := by
  have rank : ∀ {t : Celsius}, t.isNaN = false →
      t.rank? = some (if t.negative then -(t.magnitude : Int) else t.magnitude) := by
    intro t number
    rw [rank?, number]
    cases t.negative <;> rfl
  have first : order ⟨-0.0⟩ = -1 := by decide +kernel
  have second : order ⟨0.0⟩ = 0 := by decide +kernel
  rw [← below_iff, below_of_rank (rank ht) (rank hu), decide_eq_true_iff, ← order_inj, ← order_inj,
    first, second]
  unfold order
  cases t.negative <;> cases u.negative <;> simp <;> omega

/-! ## Means -/

/-- The sum of the temperatures with the numbers up to `n`, added in this order. -/
def total (f : Nat → Celsius) : Nat → Float
  | 0 => (f 0).value
  | n + 1 => total f n + (f (n + 1)).value

theorem mean_range (f : Nat → Celsius) (n : Nat) :
    mean ((List.range (n + 1)).map f) = ⟨total f n / Float.ofNat (n + 1)⟩ := by
  have sum : ((List.range n).map (f ∘ Nat.succ)).foldl (fun sum u => sum + u.value) (f 0).value =
      total f n := by
    induction n with
    | zero => rfl
    | succ n ih =>
        rw [List.range_succ, List.map_append, List.foldl_append, ih]
        rfl
  rw [List.range_succ_eq_map, List.map_cons, List.map_map, mean, sum, List.length_map,
    List.length_range]

end Celsius

end StackedCache
