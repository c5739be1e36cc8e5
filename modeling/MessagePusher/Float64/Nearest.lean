import Mathlib.Data.Int.Log
import Mathlib.Data.Rat.Floor
import Mathlib.Tactic.Linarith
import Mathlib.Tactic.Positivity
import Mathlib.Tactic.Ring
import MessagePusher.Float64.Conversion

/-!
# Rounding depends on the value

The float nearest to a fraction is the one nearest to any fraction of the same value, so two
literals of the same value other than zero are read as the same float.
-/

namespace MessagePusher.Float64

variable {numerator denominator numerator' denominator' : Nat}

/-- The value of a fraction. -/
def ratio (fraction : Nat × Nat) : ℚ := fraction.1 / fraction.2

theorem scaled_denominator_pos {base : Nat} (positive : 0 < base) (bottom : 0 < denominator)
    (exponent : Int) : 0 < (scaled base numerator denominator exponent).2 := by
  unfold scaled
  split_ifs
  · exact Nat.mul_pos bottom (Nat.pow_pos positive)
  · exact bottom

theorem ratio_scaled {base : Nat} (positive : 0 < base) (exponent : Int) :
    ratio (scaled base numerator denominator exponent) =
      ratio (numerator, denominator) / (base : ℚ) ^ exponent := by
  have nonzero : (base : ℚ) ≠ 0 := Nat.cast_ne_zero.mpr positive.ne'
  unfold scaled ratio
  split_ifs with up
  · obtain ⟨power, rfl⟩ := Int.eq_ofNat_of_zero_le up
    push_cast
    rw [Int.toNat_natCast, zpow_natCast, div_div]
  · obtain ⟨power, rfl⟩ : ∃ power : Nat, exponent = -power := ⟨(-exponent).toNat, by omega⟩
    push_cast
    rw [neg_neg, Int.toNat_natCast, zpow_neg, zpow_natCast, div_inv_eq_mul, mul_div_right_comm]

/-! ### The exponent -/

/-- A logarithm is determined by the powers around the number. -/
theorem log_eq_of_between {value : ℚ} (positive : 0 < value) {power : Int}
    (low : (2 : ℚ) ^ power ≤ value) (high : value < (2 : ℚ) ^ (power + 1)) :
    Int.log 2 value = power := by
  have below := (Int.zpow_le_iff_le_log Nat.one_lt_two positive).mp (by exact_mod_cast low)
  have above := (Int.lt_zpow_iff_log_lt Nat.one_lt_two positive).mp (by exact_mod_cast high)
  omega

/-- The logarithms of its parts give that of a fraction, up to one. -/
theorem ratio_between (top : 0 < numerator) (bottom : 0 < denominator) :
    (2 : ℚ) ^ ((Nat.log2 numerator : Int) - Nat.log2 denominator - 1) ≤
        ratio (numerator, denominator) ∧
      ratio (numerator, denominator) <
        (2 : ℚ) ^ ((Nat.log2 numerator : Int) - Nat.log2 denominator + 1) := by
  have topLow : (2 : ℚ) ^ Nat.log2 numerator ≤ numerator := by
    exact_mod_cast Nat.log2_self_le top.ne'
  have topHigh : (numerator : ℚ) < 2 ^ (Nat.log2 numerator + 1) := by
    exact_mod_cast @Nat.lt_log2_self numerator
  have bottomLow : (2 : ℚ) ^ Nat.log2 denominator ≤ denominator := by
    exact_mod_cast Nat.log2_self_le bottom.ne'
  have bottomHigh : (denominator : ℚ) < 2 ^ (Nat.log2 denominator + 1) := by
    exact_mod_cast @Nat.lt_log2_self denominator
  have positive : (0 : ℚ) < denominator := Nat.cast_pos.mpr bottom
  have split (power : Int) : (2 : ℚ) ^ ((Nat.log2 numerator : Int) - Nat.log2 denominator + power) =
      2 ^ Nat.log2 numerator * 2 ^ power / 2 ^ Nat.log2 denominator := by
    rw [zpow_add₀ two_ne_zero, zpow_sub₀ two_ne_zero, zpow_natCast, zpow_natCast,
      div_mul_eq_mul_div]
  constructor
  · rw [sub_eq_add_neg, split, ratio, zpow_neg_one, div_le_div_iff₀ (by positivity) positive]
    calc (2 : ℚ) ^ Nat.log2 numerator * 2⁻¹ * denominator
        ≤ 2 ^ Nat.log2 numerator * 2⁻¹ * 2 ^ (Nat.log2 denominator + 1) := by gcongr
      _ = 2 ^ Nat.log2 numerator * 2 ^ Nat.log2 denominator := by rw [pow_succ]; ring
      _ ≤ numerator * 2 ^ Nat.log2 denominator := by gcongr
  · rw [split, ratio, zpow_one, div_lt_div_iff₀ positive (by positivity)]
    calc (numerator : ℚ) * 2 ^ Nat.log2 denominator
        < 2 ^ (Nat.log2 numerator + 1) * 2 ^ Nat.log2 denominator := by gcongr
      _ = 2 ^ Nat.log2 numerator * 2 * 2 ^ Nat.log2 denominator := by rw [pow_succ]
      _ ≤ 2 ^ Nat.log2 numerator * 2 * denominator := by gcongr

/-- The exponent of a float is that of the value, or that of the subnormal floats. -/
theorem binaryExponent_eq (top : 0 < numerator) (bottom : 0 < denominator) :
    binaryExponent numerator denominator =
      max (Int.log 2 (ratio (numerator, denominator)) - 52) (-1074) := by
  obtain ⟨low, high⟩ := ratio_between top bottom
  have positive : 0 < ratio (numerator, denominator) :=
    div_pos (Nat.cast_pos.mpr top) (Nat.cast_pos.mpr bottom)
  generalize distance : (Nat.log2 numerator : Int) - Nat.log2 denominator = power at low high
  -- The guess is one too high exactly where the value is below its power.
  have test : (scaled 2 numerator denominator (power - 52)).1 <
      2 ^ 52 * (scaled 2 numerator denominator (power - 52)).2 ↔
        ratio (numerator, denominator) < (2 : ℚ) ^ power := by
    have below := @scaled_denominator_pos numerator denominator 2 Nat.two_pos bottom (power - 52)
    have value := @ratio_scaled numerator denominator 2 Nat.two_pos (power - 52)
    rw [ratio, div_eq_iff (Nat.cast_ne_zero.mpr below.ne')] at value
    have power52 : (2 : ℚ) ^ 52 * 2 ^ (power - 52) = 2 ^ power := by
      rw [← zpow_natCast, ← zpow_add₀ two_ne_zero]
      congr 1
      push_cast
      omega
    rw [← @Nat.cast_lt ℚ, value, Nat.cast_mul, Nat.cast_pow, Nat.cast_ofNat,
      mul_lt_mul_iff_left₀ (Nat.cast_pos.mpr below), div_lt_iff₀ (zpow_pos two_pos _), power52]
  unfold binaryExponent
  rw [distance]
  dsimp only
  split_ifs with before
  · rw [log_eq_of_between positive low (by rw [sub_add_cancel]; exact test.mp before)]
    congr 1
    omega
  · rw [log_eq_of_between positive (not_lt.mp (mt test.mpr before)) high]

/-! ### The significand -/

theorem roundHalfEven_mul (numerator denominator : Nat) {factor : Nat} (positive : 0 < factor) :
    roundHalfEven (factor * numerator) (factor * denominator) =
      roundHalfEven numerator denominator := by
  have half (left right : Nat) : 2 * (factor * left) < factor * right ↔ 2 * left < right := by
    rw [Nat.mul_left_comm, Nat.mul_lt_mul_left positive]
  have tie (left right : Nat) : 2 * (factor * left) = factor * right ↔ 2 * left = right := by
    rw [Nat.mul_left_comm, Nat.mul_right_inj positive.ne']
  rw [roundHalfEven, roundHalfEven, Nat.mul_div_mul_left _ _ positive, Nat.mul_mod_mul_left]
  simp only [half, tie]

/-- Fractions of the same value are rounded alike. -/
theorem roundHalfEven_congr (bottom : 0 < denominator) (bottom' : 0 < denominator')
    (same : ratio (numerator, denominator) = ratio (numerator', denominator')) :
    roundHalfEven numerator denominator = roundHalfEven numerator' denominator' := by
  have crossed : numerator * denominator' = numerator' * denominator := by
    have equal := (div_eq_div_iff (Nat.cast_ne_zero.mpr bottom.ne')
      (Nat.cast_ne_zero.mpr bottom'.ne')).mp same
    exact_mod_cast equal
  calc roundHalfEven numerator denominator
      = roundHalfEven (denominator' * numerator) (denominator' * denominator) :=
        (roundHalfEven_mul _ _ bottom').symm
    _ = roundHalfEven (denominator * numerator') (denominator * denominator') := by
        rw [Nat.mul_comm denominator' numerator, crossed, Nat.mul_comm numerator',
          Nat.mul_comm denominator']
    _ = roundHalfEven numerator' denominator' := roundHalfEven_mul _ _ bottom

/-! ### The float -/

theorem nearest_congr (top : 0 < numerator) (bottom : 0 < denominator) (top' : 0 < numerator')
    (bottom' : 0 < denominator')
    (same : ratio (numerator, denominator) = ratio (numerator', denominator')) :
    nearest numerator denominator = nearest numerator' denominator' := by
  have exponents : binaryExponent numerator denominator = binaryExponent numerator' denominator' := by
    rw [binaryExponent_eq top bottom, binaryExponent_eq top' bottom', same]
  have significands (exponent : Int) :
      roundHalfEven (scaled 2 numerator denominator exponent).1
          (scaled 2 numerator denominator exponent).2 =
        roundHalfEven (scaled 2 numerator' denominator' exponent).1
          (scaled 2 numerator' denominator' exponent).2 := by
    refine roundHalfEven_congr (scaled_denominator_pos Nat.two_pos bottom _)
      (scaled_denominator_pos Nat.two_pos bottom' _) ?_
    rw [Prod.mk.eta, Prod.mk.eta, ratio_scaled Nat.two_pos, ratio_scaled Nat.two_pos, same]
  unfold nearest
  dsimp only
  rw [exponents, significands]

theorem scaled_numerator_pos {base : Nat} (positive : 0 < base) (top : 0 < numerator)
    (exponent : Int) : 0 < (scaled base numerator denominator exponent).1 := by
  unfold scaled
  split_ifs
  · exact top
  · exact Nat.mul_pos top (Nat.pow_pos positive)

theorem nearestDecimal_congr {digits digits' : Nat} {exponent exponent' : Int}
    (positive : 0 < digits) (positive' : 0 < digits')
    (same : (digits : ℚ) * 10 ^ exponent = digits' * 10 ^ exponent') :
    nearestDecimal digits exponent = nearestDecimal digits' exponent' := by
  have value (digits : Nat) (exponent : Int) :
      ratio (scaled 10 digits 1 (-exponent)) = digits * (10 : ℚ) ^ exponent := by
    rw [ratio_scaled (by decide), ratio, Nat.cast_one, div_one, zpow_neg, div_inv_eq_mul,
      Nat.cast_ofNat]
  have read (digits : Nat) (exponent : Int) : nearestDecimal digits exponent =
      nearest (scaled 10 digits 1 (-exponent)).1 (scaled 10 digits 1 (-exponent)).2 := rfl
  have ten : 0 < 10 := Nat.succ_pos 9
  rw [read, read]
  refine nearest_congr (scaled_numerator_pos ten positive _)
    (scaled_denominator_pos ten Nat.one_pos _) (scaled_numerator_pos ten positive' _)
    (scaled_denominator_pos ten Nat.one_pos _) ?_
  rw [Prod.mk.eta, Prod.mk.eta, value, value, same]

/-- The value of a literal is what its sign and its digits say. -/
theorem literalValue_eq (literal : String) : literalValue literal =
    (if (readDecimal literal.toList).negative then -1 else 1) *
      ((readDecimal literal.toList).digits * (10 : ℚ) ^ (readDecimal literal.toList).exponent) :=
  mul_assoc _ _ _

/-- Only zero is read from digits that are zero. -/
theorem literalValue_ne_zero {literal : String} {float : Float} (read : parseFloat literal = some float)
    (nonzero : float.magnitude.significand ≠ 0) : literalValue literal ≠ 0 := by
  obtain ⟨magnitude, found, rfl⟩ := Option.map_eq_some_iff.mp read
  have digits : (readDecimal literal.toList).digits ≠ 0 := digits_ne_zero found nonzero
  have power : (10 : ℚ) ^ (readDecimal literal.toList).exponent ≠ 0 := zpow_ne_zero _ (by norm_num)
  rw [literalValue_eq]
  refine mul_ne_zero ?_ (mul_ne_zero (Nat.cast_ne_zero.mpr digits) power)
  split_ifs
  · exact neg_ne_zero.mpr one_ne_zero
  · exact one_ne_zero

/-- Literals of the same value other than zero are read as the same float. -/
theorem parseFloat_congr {literal other : String} (nonzero : literalValue literal ≠ 0)
    (same : literalValue literal = literalValue other) : parseFloat literal = parseFloat other := by
  have nonzero' : literalValue other ≠ 0 := same ▸ nonzero
  rw [literalValue_eq, literalValue_eq] at same
  rw [literalValue_eq] at nonzero nonzero'
  unfold parseFloat
  dsimp only
  generalize readDecimal literal.toList = read at same nonzero
  generalize readDecimal other.toList = read' at same nonzero'
  have digits {read : Decimal} (nonzero : (if read.negative then (-1 : ℚ) else 1) *
      (read.digits * (10 : ℚ) ^ read.exponent) ≠ 0) : 0 < read.digits := by
    rw [Nat.pos_iff_ne_zero]
    intro zero
    rw [zero, Nat.cast_zero, zero_mul, mul_zero] at nonzero
    exact nonzero rfl
  have positive {read : Decimal} (some_ : 0 < read.digits) :
      (0 : ℚ) < read.digits * 10 ^ read.exponent :=
    mul_pos (Nat.cast_pos.mpr some_) (zpow_pos (by norm_num) _)
  have above := positive (digits nonzero)
  have above' := positive (digits nonzero')
  -- Values of different signs are apart.
  have signs : read.negative = read'.negative := by
    cases first : read.negative <;> cases second : read'.negative <;>
      simp only [first, second, if_true, Bool.false_eq_true, if_false] at same ⊢ <;> linarith
  have magnitudes : (read.digits : ℚ) * 10 ^ read.exponent = read'.digits * 10 ^ read'.exponent := by
    rw [signs] at same
    refine mul_left_cancel₀ ?_ same
    split_ifs
    · exact neg_ne_zero.mpr one_ne_zero
    · exact one_ne_zero
  rw [nearestDecimal_congr (digits nonzero) (digits nonzero') magnitudes, signs]

end MessagePusher.Float64
