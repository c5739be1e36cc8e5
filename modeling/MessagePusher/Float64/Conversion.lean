import Mathlib.Data.Rat.Cast.Order
import MessagePusher.JsonText.Lexer

/-!
# Decimal literals and 64-bit floats

A literal is read as the float nearest to it, the even one of two. A float is written with the
fewest digits that are read as it again, and of these with the nearest ones: `strconv.ParseFloat`
and `strconv.AppendFloat` with `-1` digits, in the format that `encoding/json` asks for.
-/

namespace MessagePusher.Float64

/-! ### Decimal literals -/

/-- A number with a sign, decimal digits and a power of ten. -/
structure Decimal where
  negative : Bool
  digits : Nat
  exponent : Int

/-- The number that digits spell. -/
def digitsValue (digits : List Char) : Nat :=
  digits.foldl (fun value digit => 10 * value + (digit.toNat - '0'.toNat)) 0

/-- The power of ten that a literal ends with. -/
def readExponent : List Char → Int
  | [] => 0
  | _ :: '-' :: digits => -(digitsValue digits : Int)
  | _ :: '+' :: digits => digitsValue digits
  | _ :: digits => digitsValue digits

/-- What a number literal says. -/
def readDecimal (literal : List Char) : Decimal :=
  let negative := literal.head? = some '-'
  let unsigned := if negative then literal.tail else literal
  let whole := unsigned.takeWhile Char.isDigit
  let rest := unsigned.dropWhile Char.isDigit
  let (fraction, rest) :=
    if rest.head? = some '.' then
      (rest.tail.takeWhile Char.isDigit, rest.tail.dropWhile Char.isDigit)
    else ([], rest)
  { negative
    digits := digitsValue (whole ++ fraction)
    exponent := readExponent rest - fraction.length }

/-- The exact value of a number literal. -/
def literalValue (literal : String) : ℚ :=
  let decimal := readDecimal literal.toList
  (if decimal.negative then -1 else 1) * decimal.digits * (10 : ℚ) ^ decimal.exponent

/-! ### Rounding -/

/-- A fraction of two numbers over a power, as a fraction of two numbers. -/
def scaled (base numerator denominator : Nat) (exponent : Int) : Nat × Nat :=
  if 0 ≤ exponent then (numerator, denominator * base ^ exponent.toNat)
  else (numerator * base ^ (-exponent).toNat, denominator)

/-- The nearest whole number, the even one of two. -/
def roundHalfEven (numerator denominator : Nat) : Nat :=
  let quotient := numerator / denominator
  let twice := 2 * (numerator % denominator)
  if twice < denominator ∨ (twice = denominator ∧ quotient % 2 = 0) then quotient
  else quotient + 1

/-- A finite float without its sign: the significand times a power of two. -/
structure Magnitude where
  significand : Nat
  exponent : Int
deriving DecidableEq

/-- The power of two that leaves 53 bits of a fraction before the point, or that of the subnormal
floats. -/
def binaryExponent (numerator denominator : Nat) : Int :=
  let guess : Int := (Nat.log2 numerator : Int) - Nat.log2 denominator - 52
  let (top, bottom) := scaled 2 numerator denominator guess
  max (if top < 2 ^ 52 * bottom then guess - 1 else guess) (-1074)

/-- The float nearest to a fraction, `none` beyond the largest one. -/
def nearest (numerator denominator : Nat) : Option Magnitude :=
  let exponent := binaryExponent numerator denominator
  let (top, bottom) := scaled 2 numerator denominator exponent
  let significand := roundHalfEven top bottom
  let rounded : Magnitude :=
    if significand = 2 ^ 53 then ⟨2 ^ 52, exponent + 1⟩ else ⟨significand, exponent⟩
  if rounded.exponent ≤ 971 then some rounded else none

/-- The float nearest to some digits with a power of ten. -/
def nearestDecimal (digits : Nat) (exponent : Int) : Option Magnitude :=
  let (top, bottom) := scaled 10 digits 1 (-exponent)
  nearest top bottom

/-- A finite float. -/
structure Float where
  negative : Bool
  magnitude : Magnitude

/-- `strconv.ParseFloat` of a number literal, `none` for its range error. -/
def parseFloat (literal : String) : Option Float :=
  let decimal := readDecimal literal.toList
  (nearestDecimal decimal.digits decimal.exponent).map fun magnitude =>
    { negative := decimal.negative, magnitude }

/-! ### The shortest digits -/

/-- The float as a fraction. -/
def Magnitude.fraction (magnitude : Magnitude) : Nat × Nat :=
  scaled 2 magnitude.significand 1 (-magnitude.exponent)

/-- How many decimal digits are before the point; less than one for the zeros behind it. -/
def decimalPoint (numerator denominator : Nat) : Int :=
  if denominator ≤ numerator then (Nat.toDigits 10 (numerator / denominator)).length
  else 1 - (Nat.toDigits 10 ((denominator - 1) / numerator)).length

/-- Digits with a power of ten, if they are read as the float. -/
def candidate (magnitude : Magnitude) (count : Nat) (exponent : Int) (digits : Nat) :
    Option (Nat × Int) :=
  if nearestDecimal digits exponent ≠ some magnitude then none
  else if digits = 10 ^ count then some (1, exponent + count)
  else some (digits, exponent)

/-- So many digits that are read as the float, and their power of ten. -/
def withDigits (magnitude : Magnitude) (count : Nat) : Option (Nat × Int) :=
  let (numerator, denominator) := magnitude.fraction
  let exponent := decimalPoint numerator denominator - count
  let (top, bottom) := scaled 10 numerator denominator exponent
  let below := candidate magnitude count exponent (top / bottom)
  let above := candidate magnitude count exponent (top / bottom + 1)
  if 2 * (top % bottom) ≤ bottom then below.or above else above.or below

/-- All digits of the float, and their power of ten. -/
def exactDigits (magnitude : Magnitude) : Nat × Int :=
  if 0 ≤ magnitude.exponent then (magnitude.significand * 2 ^ magnitude.exponent.toNat, 0)
  else (magnitude.significand * 5 ^ (-magnitude.exponent).toNat, magnitude.exponent)

/-- The fewest digits; seventeen always do. -/
def shortest (magnitude : Magnitude) : Nat × Int :=
  (((List.range 17).map (· + 1)).findSome? (withDigits magnitude)).getD (exactDigits magnitude)

/-! ### The text of a float -/

/-- One digit before the point, and the power of ten. -/
def exponentText (digits : List Char) (exponent : Int) : List Char :=
  digits.take 1 ++ (if digits.length = 1 then [] else '.' :: digits.drop 1) ++
    'e' :: (if exponent < 0 then '-' else '+') :: Nat.toDigits 10 exponent.natAbs

/-- No power of ten; `point` digits are before the point. -/
def plainText (digits : List Char) (point : Int) : List Char :=
  if point ≤ 0 then '0' :: '.' :: (List.replicate point.natAbs '0' ++ digits)
  else if digits.length ≤ point.natAbs then
    digits ++ List.replicate (point.natAbs - digits.length) '0'
  else digits.take point.natAbs ++ '.' :: digits.drop point.natAbs

/-- The text of a float in JSON, which is short for numbers below `10 ^ 21` and above `10 ^ -7`. -/
def floatText (float : Float) : List Char :=
  let text :=
    if float.magnitude.significand = 0 then ['0']
    else
      let (digits, exponent) := shortest float.magnitude
      let spelled := Nat.toDigits 10 digits
      let point := spelled.length + exponent
      if -6 ≤ point - 1 ∧ point - 1 < 21 then plainText spelled point
      else exponentText spelled (point - 1)
  if float.negative then '-' :: text else text

/-- A number literal that has been read as a float and written again. -/
def throughFloat (literal : String) : Option String :=
  (parseFloat literal).map fun float => String.ofList (floatText float)

/-! ### What is written is a number literal -/

open JsonText

variable {phase phase' : NumberPhase} {text digits : List Char}

/-- The characters lead from one phase of a number to another. -/
def Leads (phase : NumberPhase) (text : List Char) (phase' : NumberPhase) : Prop :=
  text.foldlM NumberPhase.next phase = some phase'

/-- Texts lead from phase to phase in a row. -/
theorem Leads.append {middle : NumberPhase} {rest : List Char} (first : Leads phase text middle)
    (second : Leads middle rest phase') : Leads phase (text ++ rest) phase' := by
  rw [Leads, List.foldlM_append, first]
  exact second

theorem Leads.cons {middle : NumberPhase} {char : Char} (first : phase.next char = some middle)
    (second : Leads middle text phase') : Leads phase (char :: text) phase' := by
  rw [Leads, List.foldlM_cons, first]
  exact second

/-- Digits lead a phase to itself when each of them does. -/
theorem leads_digits (stays : ∀ digit : Char, digit.isDigit → phase.next digit = some phase)
    (all : ∀ digit ∈ digits, digit.isDigit) : Leads phase digits phase := by
  induction digits with
  | nil => rfl
  | cons digit digits ih =>
      rw [List.forall_mem_cons] at all
      exact .cons (stays digit all.1) (ih all.2)

theorem digits_stay (digit : Char) (isDigit : digit.isDigit) :
    NumberPhase.digits.next digit = some .digits := if_pos isDigit

theorem fraction_stays (digit : Char) (isDigit : digit.isDigit) :
    NumberPhase.fraction.next digit = some .fraction := if_pos isDigit

theorem exponentDigits_stay (digit : Char) (isDigit : digit.isDigit) :
    NumberPhase.exponentDigits.next digit = some .exponentDigits := if_pos isDigit

/-- The digits of a positive number as it is spelled. -/
structure Spelled (digits : List Char) : Prop where
  all : ∀ digit ∈ digits, digit.isDigit
  first : ∃ digit rest, digits = digit :: rest ∧ digit ≠ '0'

/-- Only zero is spelled with a zero in front. -/
theorem digitChar_ne_zero {value : Nat} (positive : 0 < value) (small : value < 10) :
    Nat.digitChar value ≠ '0' := by
  have each : ∀ value < 10, 0 < value → Nat.digitChar value ≠ '0' := by decide
  exact each value small positive

/-- A number is spelled with digits. -/
theorem isDigit_of_mem_toDigits {value : Nat} {digit : Char} (member : digit ∈ Nat.toDigits 10 value) :
    digit.isDigit :=
  Nat.isDigit_of_mem_toDigits (by decide) (by decide) member

/-- A positive number is spelled without a zero in front. -/
theorem spelled_toDigits {value : Nat} (positive : 0 < value) : Spelled (Nat.toDigits 10 value) := by
  refine ⟨fun digit member => isDigit_of_mem_toDigits member, ?_⟩
  induction value using Nat.strong_induction_on with
  | _ value ih =>
    rw [Nat.toDigits_eq_if (by decide)]
    split_ifs with small
    · exact ⟨_, [], rfl, digitChar_ne_zero positive small⟩
    · obtain ⟨digit, rest, split, noZero⟩ := ih (value / 10) (by omega) (by omega)
      exact ⟨digit, rest ++ [Nat.digitChar (value % 10)], by rw [split]; rfl, noZero⟩

/-- A number may begin with any digit. -/
theorem start_digit {digit : Char} (isDigit : digit.isDigit) :
    NumberPhase.start digit = some (if digit = '0' then .zero else .digits) := by
  have noMinus : digit ≠ '-' := by
    rintro rfl
    cases isDigit
  rw [NumberPhase.start, if_neg noMinus]
  by_cases zero : digit = '0'
  · rw [if_pos zero, if_pos zero]
  · rw [if_neg zero, if_neg zero, if_pos isDigit]

/-- Behind such digits a number is among its digits. -/
theorem Spelled.after (spelled : Spelled digits) (rest : List Char) :
    NumberPhase.after (digits ++ rest) = rest.foldlM NumberPhase.next .digits := by
  obtain ⟨digit, others, rfl, noZero⟩ := spelled.first
  obtain ⟨isDigit, all⟩ := List.forall_mem_cons.mp spelled.all
  have run : Leads .digits others .digits := leads_digits digits_stay all
  rw [List.cons_append, NumberPhase.after, start_digit isDigit, if_neg noZero, Option.bind_some,
    List.foldlM_append, run]
  rfl

/-- Digits and what leads to an end make a number. -/
theorem isNumber_of_leads (spelled : Spelled digits) (leads : Leads .digits text phase)
    (whole : phase.accepting) : isNumber (digits ++ text) := by
  rw [isNumber, spelled.after, leads]
  exact whole

/-- A point and digits behind it lead to a fraction. -/
theorem leads_point {rest : List Char} (some_ : rest ≠ []) (all : ∀ digit ∈ rest, digit.isDigit)
    (opens : phase.next '.' = some .point) : Leads phase ('.' :: rest) .fraction := by
  obtain ⟨digit, others, rfl⟩ := List.exists_cons_of_ne_nil some_
  rw [List.forall_mem_cons] at all
  exact .cons opens (.cons (if_pos all.1) (leads_digits fraction_stays all.2))

/-- The front of such digits is spelled so too. -/
theorem Spelled.take (spelled : Spelled digits) {count : Nat} (positive : count ≠ 0) :
    Spelled (digits.take count) := by
  obtain ⟨digit, others, rfl, noZero⟩ := spelled.first
  obtain ⟨fewer, rfl⟩ := Nat.exists_eq_succ_of_ne_zero positive
  refine ⟨fun char member => spelled.all char (List.mem_of_mem_take member), digit,
    others.take fewer, ?_, noZero⟩
  rw [List.take_succ_cons]

/-- A text without a power of ten is a number. -/
theorem isNumber_plainText (spelled : Spelled digits) (point : Int) :
    isNumber (plainText digits point) := by
  have zeros : ∀ count, ∀ digit ∈ List.replicate count '0', digit.isDigit := by
    intro count digit member
    rw [List.eq_of_mem_replicate member]
    rfl
  obtain ⟨digit, others, split, noZero⟩ := spelled.first
  unfold plainText
  split_ifs with behind short
  · have leads : Leads .zero ('.' :: (List.replicate point.natAbs '0' ++ digits)) .fraction := by
      refine leads_point (by simp [split]) (fun char member => ?_) rfl
      rcases List.mem_append.mp member with zero | listed
      · exact zeros _ char zero
      · exact spelled.all char listed
    rw [isNumber, NumberPhase.after, start_digit rfl, Option.bind_some]
    exact congrArg (Option.any NumberPhase.accepting) leads
  · exact isNumber_of_leads spelled (leads_digits digits_stay (zeros _)) rfl
  · have taken : Spelled (digits.take point.natAbs) := spelled.take (by omega)
    have dropped : digits.drop point.natAbs ≠ [] := by
      rw [ne_eq, List.drop_eq_nil_iff]
      exact short
    exact isNumber_of_leads taken (leads_point dropped
      (fun char member => spelled.all char (List.mem_of_mem_drop member)) rfl) rfl

/-- A text with a power of ten is a number. -/
theorem isNumber_exponentText (spelled : Spelled digits) (exponent : Int) :
    isNumber (exponentText digits exponent) := by
  obtain ⟨digit, others, rfl, noZero⟩ := spelled.first
  obtain ⟨isDigit, all⟩ := List.forall_mem_cons.mp spelled.all
  have one : Spelled [digit] := ⟨by simpa using isDigit, digit, [], rfl, noZero⟩
  have tail : ∀ phase : NumberPhase, phase.next 'e' = some .exponent →
      Leads phase ('e' :: (if exponent < 0 then '-' else '+') :: Nat.toDigits 10 exponent.natAbs)
        .exponentDigits := by
    intro phase opens
    have signed : NumberPhase.exponent.next (if exponent < 0 then '-' else '+') = some .sign := by
      split_ifs
      · rfl
      · rfl
    obtain ⟨first, rest, same⟩ : ∃ first rest,
        Nat.toDigits 10 exponent.natAbs = first :: rest := by
      refine List.exists_cons_of_ne_nil fun none_ => ?_
      rw [Nat.toDigits_eq_if (by decide)] at none_
      split_ifs at none_
      exact absurd (List.append_eq_nil_iff.mp none_).2 (List.cons_ne_nil _ _)
    have digitsAll : ∀ char ∈ first :: rest, char.isDigit :=
      same ▸ fun char member => isDigit_of_mem_toDigits member
    rw [List.forall_mem_cons] at digitsAll
    rw [same]
    exact .cons opens (.cons signed (.cons (if_pos digitsAll.1)
      (leads_digits exponentDigits_stay digitsAll.2)))
  rw [exponentText, List.take_succ_cons, List.take_zero, List.append_assoc]
  cases others with
  | nil => exact isNumber_of_leads one (tail .digits rfl) rfl
  | cons next others =>
      have point : Leads .digits ('.' :: next :: others) .fraction :=
        leads_point (List.cons_ne_nil _ _) all rfl
      exact isNumber_of_leads one (point.append (tail .fraction rfl)) rfl

/-- The text begins with a digit. -/
def BeginsDigit (text : List Char) : Prop := ∃ digit rest, text = digit :: rest ∧ digit.isDigit

/-- Such digits begin with a digit. -/
theorem Spelled.beginsDigit (spelled : Spelled digits) (rest : List Char) :
    BeginsDigit (digits ++ rest) := by
  obtain ⟨digit, others, split, -⟩ := spelled.first
  exact ⟨digit, others ++ rest, by rw [split]; rfl, spelled.all digit (by rw [split]; simp)⟩

/-- A number may have a sign in front. -/
theorem isNumber_negative (number : isNumber text) (begins : BeginsDigit text) :
    isNumber ('-' :: text) := by
  obtain ⟨digit, rest, rfl, isDigit⟩ := begins
  have same : NumberPhase.minus.next digit = NumberPhase.start digit := by
    rw [start_digit isDigit, NumberPhase.next]
    by_cases zero : digit = '0'
    · rw [if_pos zero, if_pos zero]
    · rw [if_neg zero, if_neg zero, if_pos isDigit]
  have after : NumberPhase.after ('-' :: digit :: rest) = NumberPhase.after (digit :: rest) := by
    rw [NumberPhase.after, NumberPhase.after, ← same]
    rfl
  rw [isNumber, after]
  exact number

theorem scaled_zero (base denominator : Nat) (exponent : Int) :
    (scaled base 0 denominator exponent).1 = 0 := by
  unfold scaled
  split_ifs
  · rfl
  · exact Nat.zero_mul _

theorem roundHalfEven_zero (denominator : Nat) : roundHalfEven 0 denominator = 0 := by
  rw [roundHalfEven, Nat.zero_div, Nat.zero_mod, if_pos]
  rcases Nat.eq_zero_or_pos denominator with rfl | positive
  · exact .inr ⟨rfl, rfl⟩
  · exact .inl positive

/-- The float nearest to zero is zero. -/
theorem nearest_zero {denominator : Nat} {magnitude : Magnitude}
    (found : nearest 0 denominator = some magnitude) : magnitude.significand = 0 := by
  unfold nearest at found
  dsimp only at found
  rcases fraction : scaled 2 0 denominator (binaryExponent 0 denominator) with ⟨top, bottom⟩
  have zero : top = 0 := by
    rw [← scaled_zero 2 denominator (binaryExponent 0 denominator), fraction]
  have noPower : (0 : Nat) ≠ 2 ^ 53 := by decide
  rw [fraction] at found
  simp only [zero, roundHalfEven_zero, if_neg noPower] at found
  split_ifs at found
  cases found
  rfl

/-- Digits that are read as a float that is not zero are not zero. -/
theorem digits_ne_zero {digits : Nat} {exponent : Int} {magnitude : Magnitude}
    (found : nearestDecimal digits exponent = some magnitude) (nonzero : magnitude.significand ≠ 0) :
    digits ≠ 0 := by
  rintro rfl
  unfold nearestDecimal at found
  rcases fraction : scaled 10 0 1 (-exponent) with ⟨top, bottom⟩
  have zero : top = 0 := by rw [← scaled_zero 10 1 (-exponent), fraction]
  rw [fraction] at found
  subst zero
  exact nonzero (nearest_zero found)

/-- No digits are zero that are nearest to a float that is not. -/
theorem candidate_positive {magnitude : Magnitude} (nonzero : magnitude.significand ≠ 0)
    {count spelled : Nat} {exponent : Int} {digits : Nat × Int}
    (found : candidate magnitude count exponent spelled = some digits) : 0 < digits.1 := by
  unfold candidate at found
  split_ifs at found with isRead power
  · cases found
    exact Nat.one_pos
  · cases found
    exact Nat.pos_of_ne_zero (digits_ne_zero (not_not.mp isRead) nonzero)

theorem withDigits_positive {magnitude : Magnitude} (nonzero : magnitude.significand ≠ 0)
    {count : Nat} {digits : Nat × Int} (found : withDigits magnitude count = some digits) :
    0 < digits.1 := by
  unfold withDigits at found
  dsimp only at found
  split_ifs at found
  · rcases Option.or_eq_some_iff.mp found with first | ⟨-, second⟩
    · exact candidate_positive nonzero first
    · exact candidate_positive nonzero second
  · rcases Option.or_eq_some_iff.mp found with first | ⟨-, second⟩
    · exact candidate_positive nonzero first
    · exact candidate_positive nonzero second

/-- The exact digits of a float are zero for zero only. -/
theorem exactDigits_positive {magnitude : Magnitude} (nonzero : magnitude.significand ≠ 0) :
    0 < (exactDigits magnitude).1 := by
  unfold exactDigits
  split_ifs
  · exact Nat.mul_pos (Nat.pos_of_ne_zero nonzero) (Nat.two_pow_pos _)
  · exact Nat.mul_pos (Nat.pos_of_ne_zero nonzero) (Nat.pow_pos (by decide))

/-- The shortest digits of a float are zero for zero only. -/
theorem shortest_positive {magnitude : Magnitude} (nonzero : magnitude.significand ≠ 0) :
    0 < (shortest magnitude).1 := by
  unfold shortest
  cases found : ((List.range 17).map (· + 1)).findSome? (withDigits magnitude) with
  | none => exact exactDigits_positive nonzero
  | some digits =>
      obtain ⟨count, -, chosen⟩ := List.exists_of_findSome?_eq_some found
      exact withDigits_positive nonzero chosen

theorem beginsDigit_plainText (spelled : Spelled digits) (point : Int) :
    BeginsDigit (plainText digits point) := by
  unfold plainText
  split_ifs with behind
  · exact ⟨'0', _, rfl, rfl⟩
  · exact spelled.beginsDigit _
  · exact (spelled.take (by omega)).beginsDigit _

theorem beginsDigit_exponentText (spelled : Spelled digits) (exponent : Int) :
    BeginsDigit (exponentText digits exponent) := by
  rw [exponentText, List.append_assoc]
  exact (spelled.take Nat.one_ne_zero).beginsDigit _

/-- A float is written as a number literal. -/
theorem isNumber_floatText (float : Float) : isNumber (floatText float) := by
  have signed : ∀ text : List Char, isNumber text ∧ BeginsDigit text →
      isNumber (if float.negative then '-' :: text else text) := by
    rintro text ⟨number, begins⟩
    split_ifs
    · exact isNumber_negative number begins
    · exact number
  refine signed _ ?_
  by_cases zero : float.magnitude.significand = 0
  · rw [if_pos zero]
    exact ⟨rfl, '0', [], rfl, rfl⟩
  · rw [if_neg zero]
    have spelled := spelled_toDigits (shortest_positive zero)
    dsimp only
    split_ifs
    · exact ⟨isNumber_plainText spelled _, beginsDigit_plainText spelled _⟩
    · exact ⟨isNumber_exponentText spelled _, beginsDigit_exponentText spelled _⟩

/-- A literal that is read as a float is written as a literal. -/
theorem isNumber_throughFloat {literal written : String} (through : throughFloat literal = some written) :
    isNumber written.toList := by
  obtain ⟨float, -, rfl⟩ := Option.map_eq_some_iff.mp through
  rw [String.toList_ofList]
  exact isNumber_floatText float

example : throughFloat "9007199254740993" = some "9007199254740992" := by decide

example : throughFloat "-0.10e-7" = some "-1e-8" := by decide

end MessagePusher.Float64
