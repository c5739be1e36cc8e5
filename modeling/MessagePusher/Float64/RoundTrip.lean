import MessagePusher.Float64.Nearest
import MessagePusher.Substitution.MaximalRun

/-!
# Floats are read as they were written

The float nearest to the value of a float is that float, so its shortest digits, which are tested,
and all its digits, which have its value, are read as it again.
-/

namespace MessagePusher.Float64

open JsonText (isNumber)
open Substitution (IsRun)

/-- The value of a float without its sign. -/
def Magnitude.value (magnitude : Magnitude) : ℚ := magnitude.significand * 2 ^ magnitude.exponent

/-- A significand of 53 bits, or a subnormal one, and an exponent that a float can have. -/
structure Canonical (magnitude : Magnitude) : Prop where
  least : -1074 ≤ magnitude.exponent
  most : magnitude.exponent ≤ 971
  below : magnitude.significand < 2 ^ 53
  full : magnitude.exponent = -1074 ∨ 2 ^ 52 ≤ magnitude.significand

variable {numerator denominator : Nat} {magnitude : Magnitude}

/-! ### Rounding a float -/

theorem roundHalfEven_le (numerator denominator : Nat) :
    roundHalfEven numerator denominator ≤ numerator / denominator + 1 := by
  unfold roundHalfEven
  dsimp only
  split_ifs
  · exact Nat.le_succ _
  · exact Nat.le_refl _

theorem le_roundHalfEven (numerator denominator : Nat) :
    numerator / denominator ≤ roundHalfEven numerator denominator := by
  unfold roundHalfEven
  dsimp only
  split_ifs
  · exact Nat.le_refl _
  · exact Nat.le_succ _

theorem roundHalfEven_one (number : Nat) : roundHalfEven number 1 = number := by
  rw [roundHalfEven, Nat.div_one, Nat.mod_one, if_pos (.inl Nat.one_pos)]

/-- The significand that a value is rounded to has no more than 53 bits before the point. -/
theorem ratio_scaled_lt (top : 0 < numerator) (bottom : 0 < denominator) :
    ratio (scaled 2 numerator denominator (binaryExponent numerator denominator)) < 2 ^ 53 := by
  have positive : 0 < ratio (numerator, denominator) :=
    div_pos (Nat.cast_pos.mpr top) (Nat.cast_pos.mpr bottom)
  have high : ratio (numerator, denominator) <
      (2 : ℚ) ^ (Int.log 2 (ratio (numerator, denominator)) + 1) := by
    have bound := Int.lt_zpow_succ_log_self Nat.one_lt_two (ratio (numerator, denominator))
    exact_mod_cast bound
  have power : (2 : ℚ) ^ (Int.log 2 (ratio (numerator, denominator)) + 1) ≤
      2 ^ (53 : ℤ) * 2 ^ binaryExponent numerator denominator := by
    rw [← zpow_add₀ two_ne_zero, binaryExponent_eq top bottom]
    exact zpow_le_zpow_right₀ one_le_two (by omega)
  rw [ratio_scaled Nat.two_pos, Nat.cast_ofNat, div_lt_iff₀ (zpow_pos two_pos _)]
  exact lt_of_lt_of_le high power

/-- Above the subnormal floats it has no fewer. -/
theorem le_ratio_scaled (top : 0 < numerator) (bottom : 0 < denominator)
    (normal : binaryExponent numerator denominator ≠ -1074) :
    2 ^ 52 ≤ ratio (scaled 2 numerator denominator (binaryExponent numerator denominator)) := by
  have positive : 0 < ratio (numerator, denominator) :=
    div_pos (Nat.cast_pos.mpr top) (Nat.cast_pos.mpr bottom)
  have low : (2 : ℚ) ^ Int.log 2 (ratio (numerator, denominator)) ≤
      ratio (numerator, denominator) := by
    exact_mod_cast Int.zpow_log_le_self Nat.one_lt_two positive
  have exponent := binaryExponent_eq top bottom
  have power : (2 : ℚ) ^ (52 : ℤ) * 2 ^ binaryExponent numerator denominator =
      2 ^ Int.log 2 (ratio (numerator, denominator)) := by
    rw [← zpow_add₀ two_ne_zero]
    congr 1
    omega
  rw [ratio_scaled Nat.two_pos, Nat.cast_ofNat, le_div_iff₀ (zpow_pos two_pos _)]
  exact le_of_eq_of_le (by exact_mod_cast power) low

/-- What rounding yields is a float. -/
theorem canonical_nearest (top : 0 < numerator) (bottom : 0 < denominator)
    (found : nearest numerator denominator = some magnitude) : Canonical magnitude := by
  have least : -1074 ≤ binaryExponent numerator denominator := by
    rw [binaryExponent_eq top bottom]
    exact le_max_right _ _
  have below := @scaled_denominator_pos numerator denominator 2 Nat.two_pos bottom
    (binaryExponent numerator denominator)
  have high := ratio_scaled_lt top bottom
  have low := @le_ratio_scaled numerator denominator top bottom
  unfold nearest at found
  dsimp only at found
  generalize binaryExponent numerator denominator = exponent at found least below high low
  generalize scaled 2 numerator denominator exponent = fraction at found below high low
  obtain ⟨above, under⟩ := fraction
  dsimp only at found below
  have under_ : (0 : ℚ) < under := Nat.cast_pos.mpr below
  have most : roundHalfEven above under ≤ 2 ^ 53 := by
    refine Nat.le_trans (roundHalfEven_le above under) ?_
    rw [ratio, div_lt_iff₀ under_] at high
    have whole : above < 2 ^ 53 * under := by exact_mod_cast high
    exact (Nat.div_lt_iff_lt_mul below).mpr whole
  have full : exponent = -1074 ∨ 2 ^ 52 ≤ roundHalfEven above under := by
    by_cases normal : exponent = -1074
    · exact .inl normal
    · have atLeast := low normal
      rw [ratio, le_div_iff₀ under_] at atLeast
      have whole : 2 ^ 52 * under ≤ above := by exact_mod_cast atLeast
      exact .inr (Nat.le_trans ((Nat.le_div_iff_mul_le below).mpr whole) (le_roundHalfEven _ _))
  split_ifs at found with carried inside inside
  · obtain rfl := Option.some.inj found
    have small : 2 ^ 52 < 2 ^ 53 := by decide
    exact ⟨by dsimp only; omega, inside, small, .inr (Nat.le_refl _)⟩
  · obtain rfl := Option.some.inj found
    exact ⟨least, inside, Nat.lt_of_le_of_ne most carried, full⟩

/-- A fraction with the value of a float is rounded to the float. -/
theorem nearest_of_value (canonical : Canonical magnitude) (nonzero : magnitude.significand ≠ 0)
    (top : 0 < numerator) (bottom : 0 < denominator)
    (same : ratio (numerator, denominator) = magnitude.value) :
    nearest numerator denominator = some magnitude := by
  obtain ⟨significand, exponent⟩ := magnitude
  obtain ⟨least, most, below, full⟩ := canonical
  dsimp only [Magnitude.value] at *
  have positive : (0 : ℚ) < significand := Nat.cast_pos.mpr (Nat.pos_of_ne_zero nonzero)
  have power : (0 : ℚ) < 2 ^ exponent := zpow_pos two_pos _
  have exponents : binaryExponent numerator denominator = exponent := by
    rw [binaryExponent_eq top bottom, same]
    have high : (significand : ℚ) * 2 ^ exponent < 2 ^ (exponent + 53) := by
      rw [zpow_add₀ two_ne_zero, mul_comm]
      exact mul_lt_mul_of_pos_left (by exact_mod_cast below) power
    have above : Int.log 2 ((significand : ℚ) * 2 ^ exponent) < exponent + 53 :=
      (Int.lt_zpow_iff_log_lt Nat.one_lt_two (mul_pos positive power)).mp (by exact_mod_cast high)
    rcases full with subnormal | normal
    · omega
    · have low : (2 : ℚ) ^ (exponent + 52) ≤ significand * 2 ^ exponent := by
        rw [zpow_add₀ two_ne_zero, mul_comm]
        exact mul_le_mul_of_nonneg_right (by exact_mod_cast normal) power.le
      have atLeast : exponent + 52 ≤ Int.log 2 ((significand : ℚ) * 2 ^ exponent) :=
        (Int.zpow_le_iff_le_log Nat.one_lt_two (mul_pos positive power)).mp (by exact_mod_cast low)
      omega
  have rounded : roundHalfEven (scaled 2 numerator denominator exponent).1
      (scaled 2 numerator denominator exponent).2 = significand := by
    have whole : ratio ((scaled 2 numerator denominator exponent).1,
        (scaled 2 numerator denominator exponent).2) = ratio (significand, 1) := by
      rw [Prod.mk.eta, ratio_scaled Nat.two_pos, same, ratio, Nat.cast_one, div_one,
        Nat.cast_ofNat, mul_div_cancel_right₀ _ power.ne']
    rw [roundHalfEven_congr (scaled_denominator_pos Nat.two_pos bottom _) Nat.one_pos whole,
      roundHalfEven_one]
  unfold nearest
  dsimp only
  rw [exponents, rounded, if_neg (Nat.ne_of_lt below), if_pos most]

/-! ### Digits that are read as the float -/

theorem nearestDecimal_of_value (canonical : Canonical magnitude)
    (nonzero : magnitude.significand ≠ 0) {digits : Nat} {exponent : Int}
    (same : (digits : ℚ) * 10 ^ exponent = magnitude.value) :
    nearestDecimal digits exponent = some magnitude := by
  have positive : 0 < digits := by
    rw [Nat.pos_iff_ne_zero]
    rintro rfl
    rw [Nat.cast_zero, zero_mul] at same
    exact mul_ne_zero (Nat.cast_ne_zero.mpr nonzero) (zpow_ne_zero _ two_ne_zero) same.symm
  have read : nearestDecimal digits exponent =
      nearest (scaled 10 digits 1 (-exponent)).1 (scaled 10 digits 1 (-exponent)).2 := rfl
  rw [read]
  refine nearest_of_value canonical nonzero (scaled_numerator_pos (by decide) positive _)
    (scaled_denominator_pos (by decide) Nat.one_pos _) ?_
  rw [Prod.mk.eta, ratio_scaled (by decide), ratio, Nat.cast_one, div_one, zpow_neg, div_inv_eq_mul,
    Nat.cast_ofNat, same]

/-- All digits of a float have its value. -/
theorem exactDigits_value (magnitude : Magnitude) :
    ((exactDigits magnitude).1 : ℚ) * 10 ^ (exactDigits magnitude).2 = magnitude.value := by
  unfold exactDigits Magnitude.value
  split_ifs with up
  · obtain ⟨power, same⟩ := Int.eq_ofNat_of_zero_le up
    rw [same, Int.toNat_natCast]
    push_cast
    rw [mul_one, zpow_natCast]
  · obtain ⟨power, same⟩ : ∃ power : Nat, magnitude.exponent = -power :=
      ⟨(-magnitude.exponent).toNat, by omega⟩
    rw [same, neg_neg, Int.toNat_natCast]
    push_cast
    rw [zpow_neg, zpow_neg, zpow_natCast, zpow_natCast, mul_assoc]
    congr 1
    rw [← div_eq_mul_inv, div_eq_iff (by positivity), ← div_eq_inv_mul,
      eq_div_iff (by positivity), ← mul_pow]
    norm_num

theorem nearestDecimal_candidate {count digits : Nat} {exponent : Int} {found : Nat × Int}
    (nonzero : magnitude.significand ≠ 0)
    (passed : candidate magnitude count exponent digits = some found) :
    nearestDecimal found.1 found.2 = some magnitude := by
  unfold candidate at passed
  split_ifs at passed with isRead power
  · obtain rfl := Option.some.inj passed
    have read := not_not.mp isRead
    rw [← read]
    refine nearestDecimal_congr Nat.one_pos (Nat.pos_of_ne_zero (digits_ne_zero read nonzero)) ?_
    rw [power, Nat.cast_one, one_mul, zpow_add₀ (by norm_num), mul_comm, Nat.cast_pow,
      Nat.cast_ofNat, zpow_natCast]
  · obtain rfl := Option.some.inj passed
    exact not_not.mp isRead

/-- The shortest digits of a float are read as it. -/
theorem nearestDecimal_shortest (canonical : Canonical magnitude)
    (nonzero : magnitude.significand ≠ 0) :
    nearestDecimal (shortest magnitude).1 (shortest magnitude).2 = some magnitude := by
  unfold shortest
  cases searched : ((List.range 17).map (· + 1)).findSome? (withDigits magnitude) with
  | none => exact nearestDecimal_of_value canonical nonzero (exactDigits_value magnitude)
  | some found =>
      obtain ⟨count, -, chosen⟩ := List.exists_of_findSome?_eq_some searched
      unfold withDigits at chosen
      dsimp only at chosen
      split_ifs at chosen
      · rcases Option.or_eq_some_iff.mp chosen with first | ⟨-, second⟩
        · exact nearestDecimal_candidate nonzero first
        · exact nearestDecimal_candidate nonzero second
      · rcases Option.or_eq_some_iff.mp chosen with first | ⟨-, second⟩
        · exact nearestDecimal_candidate nonzero first
        · exact nearestDecimal_candidate nonzero second

/-! ### Texts that say these digits -/

section Texts

/-- The text of a float with the sign in front. -/
def signed (negative : Bool) (text : List Char) : List Char := if negative then '-' :: text else text

/-- The text of a float without a power of ten: `strconv.FormatFloat` with the format `'f'`. -/
def fixedText (float : Float) : List Char :=
  let text :=
    if float.magnitude.significand = 0 then ['0']
    else
      let (digits, exponent) := shortest float.magnitude
      let spelled := Nat.toDigits 10 digits
      plainText spelled (spelled.length + exponent)
  signed float.negative text

/-- The text begins with a digit, and has the value of these digits with a power of ten. -/
structure Spells (text : List Char) (digits : Nat) (exponent : Int) : Prop where
  begins : BeginsDigit text
  unsigned : (readDecimal text).negative = false
  value : ((readDecimal text).digits : ℚ) * 10 ^ (readDecimal text).exponent = digits * 10 ^ exponent

/-- What is behind the digits of a number: nothing, or a power of ten. -/
def EndsDigits (tail : List Char) : Prop := tail = [] ∨ ∃ rest, tail = 'e' :: rest

variable {whole fraction tail : List Char} {digits : Nat}

theorem digitsValue_toDigits (digits : Nat) : digitsValue (Nat.toDigits 10 digits) = digits :=
  Nat.ofDigitChars_ten_toDigits

theorem digitsValue_zeros_append (count : Nat) (text : List Char) :
    digitsValue (List.replicate count '0' ++ text) = digitsValue text := by
  show Nat.ofDigitChars 10 (List.replicate count '0' ++ text) 0 = Nat.ofDigitChars 10 text 0
  rw [Nat.ofDigitChars_append, Nat.ofDigitChars_replicate_zero, Nat.mul_zero]

theorem digitsValue_append_zeros (count : Nat) (text : List Char) :
    digitsValue (text ++ List.replicate count '0') = 10 ^ count * digitsValue text := by
  show Nat.ofDigitChars 10 (text ++ List.replicate count '0') 0 =
    10 ^ count * Nat.ofDigitChars 10 text 0
  rw [Nat.ofDigitChars_append, Nat.ofDigitChars_replicate_zero]

theorem EndsDigits.stops (ends : EndsDigits tail) : ∀ char, tail.head? = some char →
    ¬ char.isDigit ∧ char ≠ '.' := by
  rcases ends with rfl | ⟨rest, rfl⟩
  · rintro char ⟨⟩
  · rintro char ⟨⟩
    decide

/-- Digits in front of it are read whole. -/
theorem EndsDigits.isRun (ends : EndsDigits tail) (all : ∀ digit ∈ whole, digit.isDigit) :
    IsRun Char.isDigit whole tail :=
  ⟨all, fun char first => Bool.eq_false_iff.mpr (ends.stops char first).1⟩

theorem not_negative_of_digits (all : ∀ digit ∈ whole, digit.isDigit) (some_ : whole ≠ [])
    (rest : List Char) : (whole ++ rest).head? ≠ some '-' := by
  obtain ⟨digit, others, rfl⟩ := List.exists_cons_of_ne_nil some_
  intro minus
  have same : digit = '-' := Option.some.inj minus
  have isDigit := all digit List.mem_cons_self
  rw [same] at isDigit
  cases isDigit

/-- How a number without a point is read. -/
theorem readDecimal_whole (all : ∀ digit ∈ whole, digit.isDigit) (some_ : whole ≠ [])
    (ends : EndsDigits tail) :
    readDecimal (whole ++ tail) = ⟨false, digitsValue whole, readExponent tail⟩ := by
  have run := ends.isRun all
  have noPoint : tail.head? ≠ some '.' := fun point => (ends.stops '.' point).2 rfl
  unfold readDecimal
  simp only [not_negative_of_digits all some_ tail, decide_false, if_false,
    run.takeWhile, run.dropWhile, noPoint, List.append_nil, List.length_nil, Nat.cast_zero, sub_zero]

/-- How a number with a point is read. -/
theorem readDecimal_point (all : ∀ digit ∈ whole, digit.isDigit) (some_ : whole ≠ [])
    (behind : ∀ digit ∈ fraction, digit.isDigit) (ends : EndsDigits tail) :
    readDecimal (whole ++ '.' :: (fraction ++ tail)) =
      ⟨false, digitsValue (whole ++ fraction), readExponent tail - fraction.length⟩ := by
  have run : IsRun Char.isDigit whole ('.' :: (fraction ++ tail)) := ⟨all, by
    rintro char ⟨⟩
    rfl⟩
  have runBehind := ends.isRun behind
  unfold readDecimal
  simp only [not_negative_of_digits all some_ _, decide_false, if_false,
    run.takeWhile, run.dropWhile, List.head?_cons, if_true, List.tail_cons, runBehind.takeWhile,
    runBehind.dropWhile]

/-- The digits of a positive number, as they are spelled. -/
theorem toDigits_all (digits : Nat) : ∀ digit ∈ Nat.toDigits 10 digits, digit.isDigit :=
  fun _ member => isDigit_of_mem_toDigits member

theorem Spelled.ne_nil (spelled : Spelled whole) : whole ≠ [] := by
  obtain ⟨digit, rest, same, -⟩ := spelled.first
  rw [same]
  exact List.cons_ne_nil _ _

/-- A text without a power of ten says its digits, the point where it is. -/
theorem spells_plainText (positive : 0 < digits) (point : Int) :
    Spells (plainText (Nat.toDigits 10 digits) point) digits
      (point - (Nat.toDigits 10 digits).length) := by
  have spelled := spelled_toDigits positive
  have all := toDigits_all digits
  have value := digitsValue_toDigits digits
  have some_ := spelled.ne_nil
  have begins := beginsDigit_plainText spelled point
  generalize Nat.toDigits 10 digits = text at *
  have zeros (count : Nat) : ∀ digit ∈ List.replicate count '0', digit.isDigit := by
    intro digit member
    rw [List.eq_of_mem_replicate member]
    rfl
  unfold plainText at begins ⊢
  split_ifs at begins ⊢ with behind short
  · have read : readDecimal ('0' :: '.' :: (List.replicate point.natAbs '0' ++ text)) =
        ⟨false, digits, point - text.length⟩ := by
      have parts := @readDecimal_point ['0'] (List.replicate point.natAbs '0' ++ text) []
        (zeros 1) (List.cons_ne_nil _ _)
        (List.forall_mem_append.mpr ⟨zeros _, all⟩) (.inl rfl)
      rw [List.append_nil] at parts
      refine parts.trans ?_
      have same : digitsValue (['0'] ++ (List.replicate point.natAbs '0' ++ text)) = digits :=
        (digitsValue_zeros_append 1 _).trans ((digitsValue_zeros_append _ _).trans value)
      rw [same, List.length_append, List.length_replicate, readExponent]
      congr 1
      omega
    exact ⟨begins, by rw [read], by rw [read]⟩
  · have read : readDecimal (text ++ List.replicate (point.natAbs - text.length) '0') =
        ⟨false, 10 ^ (point.natAbs - text.length) * digits, 0⟩ := by
      have parts := @readDecimal_whole (text ++ List.replicate (point.natAbs - text.length) '0') []
        (List.forall_mem_append.mpr ⟨all, zeros _⟩) (List.append_ne_nil_of_left_ne_nil some_ _)
        (.inl rfl)
      rw [List.append_nil, digitsValue_append_zeros, value] at parts
      exact parts
    refine ⟨begins, by rw [read], ?_⟩
    have exponent : point - text.length = (point.natAbs - text.length : Nat) := by omega
    rw [read, exponent, zpow_natCast, zpow_zero, mul_one, mul_comm]
    push_cast
    rfl
  · have read : readDecimal (text.take point.natAbs ++ '.' :: text.drop point.natAbs) =
        ⟨false, digits, point - text.length⟩ := by
      have parts := @readDecimal_point (text.take point.natAbs) (text.drop point.natAbs) []
        (fun digit member => all digit (List.mem_of_mem_take member))
        (spelled.take (by omega)).ne_nil
        (fun digit member => all digit (List.mem_of_mem_drop member)) (.inl rfl)
      rw [List.append_nil, List.take_append_drop, value, List.length_drop, readExponent] at parts
      rw [parts]
      congr 1
      omega
    exact ⟨begins, by rw [read], by rw [read]⟩

theorem readExponent_text (exponent : Int) :
    readExponent ('e' :: (if exponent < 0 then '-' else '+') :: Nat.toDigits 10 exponent.natAbs) =
      exponent := by
  split_ifs with negative
  · show -(digitsValue (Nat.toDigits 10 exponent.natAbs) : Int) = exponent
    rw [digitsValue_toDigits]
    omega
  · show (digitsValue (Nat.toDigits 10 exponent.natAbs) : Int) = exponent
    rw [digitsValue_toDigits]
    omega

/-- A text with a power of ten says its digits, the point behind the first one. -/
theorem spells_exponentText (positive : 0 < digits) (exponent : Int) :
    Spells (exponentText (Nat.toDigits 10 digits) exponent) digits
      (exponent + 1 - (Nat.toDigits 10 digits).length) := by
  have spelled := spelled_toDigits positive
  have all := toDigits_all digits
  have value := digitsValue_toDigits digits
  have begins := beginsDigit_exponentText spelled exponent
  have first := (spelled.take Nat.one_ne_zero).ne_nil
  have parts := List.take_append_drop 1 (Nat.toDigits 10 digits)
  generalize Nat.toDigits 10 digits = text at *
  have front : ∀ digit ∈ text.take 1, digit.isDigit :=
    fun digit member => all digit (List.mem_of_mem_take member)
  have power := readExponent_text exponent
  have ends : EndsDigits
      ('e' :: (if exponent < 0 then '-' else '+') :: Nat.toDigits 10 exponent.natAbs) := .inr ⟨_, rfl⟩
  unfold exponentText at begins ⊢
  generalize 'e' :: (if exponent < 0 then '-' else '+') :: Nat.toDigits 10 exponent.natAbs = tail
    at begins power ends ⊢
  split_ifs at begins ⊢ with one
  · have read : readDecimal (text.take 1 ++ [] ++ tail) = ⟨false, digits, exponent⟩ := by
      have whole : text.take 1 = text := List.take_of_length_le (Nat.le_of_eq one)
      rw [List.append_nil, readDecimal_whole front first ends, whole, value, power]
    exact ⟨begins, by rw [read], by rw [read, one, Nat.cast_one, add_sub_cancel_right]⟩
  · have read : readDecimal (text.take 1 ++ '.' :: text.drop 1 ++ tail) =
        ⟨false, digits, exponent + 1 - text.length⟩ := by
      have some_ : text.length ≠ 0 := by
        rw [Ne, List.length_eq_zero_iff]
        exact spelled.ne_nil
      rw [List.append_assoc, List.cons_append,
        readDecimal_point front first (fun digit member => all digit (List.mem_of_mem_drop member))
          ends, parts, value, power, List.length_drop]
      congr 1
      omega
    exact ⟨begins, by rw [read], by rw [read]⟩

/-! ### Reading what was written -/

variable {float : Float} {text : List Char}

/-- The sign in front of an unsigned number is all that it changes. -/
theorem readDecimal_signed {exponent : Int} (spells : Spells text digits exponent) (negative : Bool) :
    readDecimal (signed negative text) =
      ⟨negative, (readDecimal text).digits, (readDecimal text).exponent⟩ := by
  obtain ⟨digit, rest, rfl, isDigit⟩ := spells.begins
  have noMinus : (digit :: rest).head? ≠ some '-' :=
    @not_negative_of_digits [digit] (by simpa using isDigit) (List.cons_ne_nil _ _) rest
  have plain : signed false (digit :: rest) = digit :: rest := rfl
  have minus : signed true (digit :: rest) = '-' :: digit :: rest := rfl
  cases negative with
  | false =>
      rw [plain]
      conv_rhs => rw [← spells.unsigned]
  | true =>
      rw [minus]
      unfold readDecimal
      simp only [List.head?_cons, List.tail_cons, decide_true, if_true]
      simp only [List.head?_cons] at noMinus
      simp only [noMinus, if_false]

/-- A text that says digits of a float is read as the float. -/
theorem parseFloat_of_spells {exponent : Int} (spells : Spells text digits exponent)
    (positive : 0 < digits)
    (found : nearestDecimal digits exponent = some float.magnitude) :
    parseFloat (String.ofList (signed float.negative text)) = some float := by
  have read := readDecimal_signed spells float.negative
  have above : (0 : ℚ) < (readDecimal text).digits * 10 ^ (readDecimal text).exponent := by
    rw [spells.value]
    exact mul_pos (Nat.cast_pos.mpr positive) (zpow_pos (by norm_num) _)
  have some_ : 0 < (readDecimal text).digits := by
    rw [Nat.pos_iff_ne_zero]
    intro zero
    rw [zero, Nat.cast_zero, zero_mul] at above
    exact lt_irrefl _ above
  unfold parseFloat
  rw [String.toList_ofList, read]
  dsimp only
  rw [nearestDecimal_congr some_ positive spells.value, found]
  rfl

/-- The value of a text is that of its digits. -/
theorem literalValue_of_spells {exponent : Int} (spells : Spells text digits exponent) (negative : Bool) :
    literalValue (String.ofList (signed negative text)) =
      (if negative then -1 else 1) * (digits * (10 : ℚ) ^ exponent) := by
  rw [literalValue_eq, String.toList_ofList, readDecimal_signed spells negative]
  dsimp only
  rw [spells.value]

/-- The text in JSON says the shortest digits. -/
theorem spells_floatText (nonzero : float.magnitude.significand ≠ 0) :
    ∃ text, floatText float = signed float.negative text ∧
      Spells text (shortest float.magnitude).1 (shortest float.magnitude).2 := by
  have positive := shortest_positive nonzero
  unfold floatText
  rw [if_neg nonzero]
  dsimp only
  refine ⟨_, rfl, ?_⟩
  generalize shortest float.magnitude = found at *
  obtain ⟨digits, exponent⟩ := found
  have short : ((Nat.toDigits 10 digits).length + exponent) - (Nat.toDigits 10 digits).length =
      exponent := by omega
  split_ifs
  · have plain := spells_plainText positive ((Nat.toDigits 10 digits).length + exponent)
    rw [short] at plain
    exact plain
  · have spells := spells_exponentText positive ((Nat.toDigits 10 digits).length + exponent - 1)
    rw [sub_add_cancel, short] at spells
    exact spells

/-- The text without a power of ten says them as well. -/
theorem spells_fixedText (nonzero : float.magnitude.significand ≠ 0) :
    ∃ text, fixedText float = signed float.negative text ∧
      Spells text (shortest float.magnitude).1 (shortest float.magnitude).2 := by
  have positive := shortest_positive nonzero
  unfold fixedText
  rw [if_neg nonzero]
  dsimp only
  refine ⟨_, rfl, ?_⟩
  generalize shortest float.magnitude = found at *
  obtain ⟨digits, exponent⟩ := found
  have short : ((Nat.toDigits 10 digits).length + exponent) - (Nat.toDigits 10 digits).length =
      exponent := by omega
  have plain := spells_plainText positive ((Nat.toDigits 10 digits).length + exponent)
  rw [short] at plain
  exact plain

/-- A float is read as it was written. -/
theorem parseFloat_floatText (canonical : Canonical float.magnitude)
    (nonzero : float.magnitude.significand ≠ 0) :
    parseFloat (String.ofList (floatText float)) = some float := by
  obtain ⟨text, same, spells⟩ := spells_floatText nonzero
  rw [same]
  exact parseFloat_of_spells spells (shortest_positive nonzero)
    (nearestDecimal_shortest canonical nonzero)

/-- Both formats write the same value. -/
theorem literalValue_fixedText (float : Float) :
    literalValue (String.ofList (fixedText float)) = literalValue (String.ofList (floatText float)) := by
  by_cases zero : float.magnitude.significand = 0
  · have same : fixedText float = floatText float := by
      unfold fixedText floatText signed
      rw [if_pos zero, if_pos zero]
    rw [same]
  · obtain ⟨fixed, fixedSame, fixedSpells⟩ := spells_fixedText zero
    obtain ⟨text, same, spells⟩ := spells_floatText zero
    rw [fixedSame, same, literalValue_of_spells fixedSpells, literalValue_of_spells spells]

/-- A literal that is not zero is read as a float in its canonical form. -/
theorem canonical_of_parseFloat {literal : String} (read : parseFloat literal = some float)
    (nonzero : float.magnitude.significand ≠ 0) : Canonical float.magnitude := by
  obtain ⟨magnitude, found, rfl⟩ := Option.map_eq_some_iff.mp read
  have positive := Nat.pos_of_ne_zero (digits_ne_zero found nonzero)
  exact canonical_nearest (scaled_numerator_pos (by decide) positive _)
    (scaled_denominator_pos (by decide) Nat.one_pos _) found

/-! ### Integers -/

/-- A literal of digits, with a sign in front or without one. -/
def IsInteger (literal : String) : Prop :=
  ((if literal.toList.head? = some '-' then literal.toList.tail else literal.toList).all
    Char.isDigit) = true

instance (literal : String) : Decidable (IsInteger literal) :=
  inferInstanceAs (Decidable (_ = true))

theorem isInteger_signed (begins : BeginsDigit text) (negative : Bool) :
    IsInteger (String.ofList (signed negative text)) ↔ text.all Char.isDigit = true := by
  obtain ⟨digit, rest, rfl, isDigit⟩ := begins
  have noMinus : (digit :: rest).head? ≠ some '-' :=
    @not_negative_of_digits [digit] (by simpa using isDigit) (List.cons_ne_nil _ _) rest
  have plain : signed false (digit :: rest) = digit :: rest := rfl
  have minus : signed true (digit :: rest) = '-' :: digit :: rest := rfl
  unfold IsInteger
  rw [String.toList_ofList]
  cases negative with
  | false => rw [plain, if_neg noMinus]
  | true => rw [minus, List.head?_cons, if_pos rfl, List.tail_cons]

/-- A power of ten is not written in digits only. -/
theorem exponentText_not_digits (digits : List Char) (exponent : Int) :
    ¬ (exponentText digits exponent).all Char.isDigit = true := by
  intro all
  have letter : 'e' ∈ exponentText digits exponent :=
    List.mem_append_right _ List.mem_cons_self
  exact absurd (List.all_eq_true.mp all 'e' letter) (by decide)

/-- The two texts are the same, or the one in JSON has a power of ten. -/
theorem floatText_cases (float : Float) : floatText float = fixedText float ∨
    ∃ digits exponent, Spelled digits ∧
      floatText float = signed float.negative (exponentText digits exponent) := by
  unfold floatText fixedText
  by_cases zero : float.magnitude.significand = 0
  · rw [if_pos zero, if_pos zero]
    exact .inl rfl
  · have spelled := spelled_toDigits (shortest_positive zero)
    rw [if_neg zero, if_neg zero]
    dsimp only
    by_cases plain : -6 ≤ (Nat.toDigits 10 (shortest float.magnitude).1).length +
        (shortest float.magnitude).2 - 1 ∧
      (Nat.toDigits 10 (shortest float.magnitude).1).length + (shortest float.magnitude).2 - 1 < 21
    · rw [if_pos plain]
      exact .inl rfl
    · rw [if_neg plain]
      exact .inr ⟨_, _, spelled, rfl⟩

/-- They are the same when the one in JSON is an integer. -/
theorem fixedText_of_isInteger (integer : IsInteger (String.ofList (floatText float))) :
    fixedText float = floatText float := by
  rcases floatText_cases float with same | ⟨digits, exponent, spelled, written⟩
  · exact same.symm
  · rw [written, isInteger_signed (beginsDigit_exponentText spelled exponent)] at integer
    exact absurd integer (exponentText_not_digits digits exponent)

/-- The text without a power of ten is a number literal. -/
theorem isNumber_fixedText (float : Float) : isNumber (fixedText float) := by
  have sign : ∀ text : List Char, isNumber text ∧ BeginsDigit text →
      isNumber (signed float.negative text) := by
    rintro text ⟨number, begins⟩
    unfold signed
    split_ifs
    · exact isNumber_negative number begins
    · exact number
  refine sign _ ?_
  by_cases zero : float.magnitude.significand = 0
  · rw [if_pos zero]
    exact ⟨rfl, '0', [], rfl, rfl⟩
  · rw [if_neg zero]
    have spelled := spelled_toDigits (shortest_positive zero)
    exact ⟨isNumber_plainText spelled _, beginsDigit_plainText spelled _⟩

end Texts

/-! ## Whole numbers

The whole numbers with a magnitude below `2 ^ 53` are floats. Above, several of them have the same
nearest float, but none of those below is among its numbers. -/

/-- The float nearest to a whole number, `none` beyond the largest one. -/
def ofInt (number : Int) : Option Float :=
  (nearest number.natAbs 1).map fun magnitude => { negative := number < 0, magnitude }

/-- A float without its sign and what is behind the point. -/
def Magnitude.whole (magnitude : Magnitude) : Nat :=
  magnitude.fraction.1 / magnitude.fraction.2

/-- A float without what is behind the point. -/
def Float.toInt (float : Float) : Int :=
  if float.negative then -float.magnitude.whole else float.magnitude.whole

/-- The whole number that is left of one when it has been a float. -/
def roundInt (number : Int) : Int := (ofInt number).elim number Float.toInt

/-- A number that shares its float with no other whole number. -/
def Safe (number : Int) : Prop := number.natAbs < 2 ^ 53

instance (number : Int) : Decidable (Safe number) := inferInstanceAs (Decidable (_ < _))

variable {number other : Nat}

/-! ### The nearest float of a whole number -/

/-- The exponent of a whole number leaves its first 53 bits. -/
theorem binaryExponent_whole (positive : number ≠ 0) :
    binaryExponent number 1 = (Nat.log2 number : Int) - 52 := by
  have one : Nat.log2 1 = 0 := rfl
  have above : ¬ (scaled 2 number 1 ((Nat.log2 number : Int) - 52)).1 <
      2 ^ 52 * (scaled 2 number 1 ((Nat.log2 number : Int) - 52)).2 := by
    have low : 2 ^ Nat.log2 number ≤ number := Nat.log2_self_le positive
    unfold scaled
    split_ifs with large
    · have power : 2 ^ 52 * 2 ^ ((Nat.log2 number : Int) - 52).toNat = 2 ^ Nat.log2 number := by
        rw [← Nat.pow_add]
        congr 1
        omega
      rw [Nat.one_mul, power]
      exact Nat.not_lt.mpr low
    · have power : 2 ^ 52 =
          2 ^ Nat.log2 number * 2 ^ (-((Nat.log2 number : Int) - 52)).toNat := by
        rw [← Nat.pow_add]
        congr 1
        omega
      rw [Nat.mul_one, Nat.not_lt, power]
      exact Nat.mul_le_mul_right _ low
  unfold binaryExponent
  rw [one]
  dsimp only
  rw [Nat.cast_zero, sub_zero, if_neg above]
  omega

/-- A safe number is its own float. -/
theorem nearest_safe (positive : number ≠ 0) (safe : number < 2 ^ 53) :
    nearest number 1 = some ⟨number * 2 ^ (52 - Nat.log2 number), (Nat.log2 number : Int) - 52⟩ := by
  have bits : Nat.log2 number ≤ 52 := by
    have below : Nat.log2 number < 53 := (Nat.log2_lt positive).mpr safe
    omega
  have fraction : scaled 2 number 1 ((Nat.log2 number : Int) - 52) =
      (number * 2 ^ (52 - Nat.log2 number), 1) := by
    unfold scaled
    split_ifs with large
    · have same : Nat.log2 number = 52 := by omega
      rw [same, Nat.sub_self, Nat.pow_zero, Nat.mul_one]
      rfl
    · congr 2
      congr 1
      omega
  have noPower : number * 2 ^ (52 - Nat.log2 number) ≠ 2 ^ 53 := by
    have high : number < 2 ^ (Nat.log2 number + 1) := Nat.lt_log2_self
    have power : 2 ^ (Nat.log2 number + 1) * 2 ^ (52 - Nat.log2 number) = 2 ^ 53 := by
      rw [← Nat.pow_add]
      congr 1
      omega
    have below := Nat.mul_lt_mul_of_pos_right high (Nat.two_pow_pos (52 - Nat.log2 number))
    omega
  unfold nearest
  dsimp only
  rw [binaryExponent_whole positive, fraction]
  dsimp only
  rw [roundHalfEven_one, if_neg noPower, if_pos (by dsimp only; omega)]

theorem whole_safe (bits : Nat.log2 number ≤ 52) :
    (⟨number * 2 ^ (52 - Nat.log2 number), (Nat.log2 number : Int) - 52⟩ : Magnitude).whole =
      number := by
  unfold Magnitude.whole Magnitude.fraction scaled
  dsimp only
  rw [if_pos (by omega), Nat.one_mul]
  have same : (-((Nat.log2 number : Int) - 52)).toNat = 52 - Nat.log2 number := by omega
  rw [same, Nat.mul_div_cancel _ (Nat.two_pow_pos _)]

/-- Another number has a float that is not below the safe ones. -/
theorem le_whole_of_unsafe (large : 2 ^ 53 ≤ number) {magnitude : Magnitude}
    (found : nearest number 1 = some magnitude) : 2 ^ 53 ≤ magnitude.whole := by
  have positive : number ≠ 0 := by omega
  have bits : 53 ≤ Nat.log2 number := (Nat.le_log2 positive).mpr large
  obtain ⟨power, log⟩ : ∃ power, Nat.log2 number = 53 + power := Nat.exists_eq_add_of_le bits
  have exponent : (Nat.log2 number : Int) - 52 = (power + 1 : Nat) := by omega
  have fraction : scaled 2 number 1 ((power + 1 : Nat) : Int) = (number, 2 ^ (power + 1)) := by
    rw [scaled, if_pos (Int.natCast_nonneg _), Nat.one_mul, Int.toNat_natCast]
  have least : 2 ^ 52 ≤ roundHalfEven number (2 ^ (power + 1)) := by
    refine Nat.le_trans ?_ (le_roundHalfEven _ _)
    rw [Nat.le_div_iff_mul_le (Nat.two_pow_pos _), ← Nat.pow_add]
    refine Nat.le_trans (Nat.le_of_eq ?_) (Nat.log2_self_le positive)
    rw [log]
    congr 1
    omega
  -- A significand of `2 ^ 52` and an exponent of one are the least that are left.
  have value (significand : Nat) (least : 2 ^ 52 ≤ significand) (more : Nat) :
      2 ^ 53 ≤ (⟨significand, (more + 1 : Nat)⟩ : Magnitude).whole := by
    have down : -((more + 1 : Nat) : Int) < 0 := by omega
    unfold Magnitude.whole Magnitude.fraction scaled
    dsimp only
    rw [if_neg (by omega), Nat.div_one, neg_neg, Int.toNat_natCast]
    calc 2 ^ 53 = 2 ^ 52 * 2 ^ 1 := by rw [← Nat.pow_add]
      _ ≤ significand * 2 ^ (more + 1) :=
        Nat.mul_le_mul least (Nat.pow_le_pow_right Nat.two_pos (by omega))
  unfold nearest at found
  dsimp only at found
  rw [binaryExponent_whole positive, exponent, fraction] at found
  dsimp only at found
  split_ifs at found with full inside inside
  · cases found
    exact value (2 ^ 52) (Nat.le_refl _) (power + 1)
  · cases found
    exact value _ least power

/-! ### Whole numbers that stay as they are -/

theorem nearest_zero_one : nearest 0 1 = some ⟨0, -53⟩ := by decide

theorem roundInt_natAbs (number : Int) :
    (∃ magnitude, nearest number.natAbs 1 = some magnitude ∧
      roundInt number = if number < 0 then -(magnitude.whole : Int) else magnitude.whole) ∨
    roundInt number = number := by
  unfold roundInt ofInt
  cases found : nearest number.natAbs 1 with
  | none => exact .inr rfl
  | some magnitude =>
      refine .inl ⟨magnitude, rfl, ?_⟩
      simp only [Option.map_some, Option.elim_some, Float.toInt, decide_eq_true_eq]

/-- A safe number stays as it is. -/
theorem roundInt_safe {number : Int} (safe : Safe number) : roundInt number = number := by
  rcases roundInt_natAbs number with ⟨magnitude, found, same⟩ | same
  · rw [same]
    rcases eq_or_ne number.natAbs 0 with zero | positive
    · obtain rfl : number = 0 := Int.natAbs_eq_zero.mp zero
      obtain rfl := Option.some.inj (nearest_zero_one.symm.trans found)
      rfl
    · have bits : Nat.log2 number.natAbs < 53 := (Nat.log2_lt positive).mpr safe
      obtain rfl := Option.some.inj ((nearest_safe positive safe).symm.trans found)
      rw [whole_safe (by omega)]
      split_ifs
      · omega
      · omega
  · exact same

/-- Only a safe number becomes one. -/
theorem safe_of_roundInt {number : Int} (safe : Safe (roundInt number)) : Safe number := by
  by_contra large
  have least : 2 ^ 53 ≤ number.natAbs := Nat.not_lt.mp large
  rcases roundInt_natAbs number with ⟨magnitude, found, same⟩ | same
  · have above := le_whole_of_unsafe least found
    unfold Safe at safe
    rw [same] at safe
    split_ifs at safe
    · omega
    · omega
  · rw [same] at safe
    exact large safe

/-- A safe number is left of no other one. -/
theorem roundInt_eq_safe_iff {number other : Int} (safe : Safe other) :
    roundInt number = other ↔ number = other := by
  constructor
  · rintro rfl
    exact (roundInt_safe (safe_of_roundInt safe)).symm
  · rintro rfl
    exact roundInt_safe safe

example : roundInt (2 ^ 53 + 1) = 2 ^ 53 := by decide

end MessagePusher.Float64
