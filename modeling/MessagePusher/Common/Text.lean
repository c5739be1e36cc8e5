import Mathlib.Algebra.Group.Int.Defs
import Mathlib.Algebra.Group.Nat.Defs
import Mathlib.Tactic.Common

/-!
# The string functions of Go's standard library that the program calls

Strings are sequences of characters here. The functions work on character lists,
so that they compute on literals.
-/

namespace MessagePusher.Common.Text

/-- `strings.Split` with a separator of one character. -/
def split (text : String) (separator : Char) : List String :=
  (text.toList.splitOn separator).map String.ofList

/-- `strings.ReplaceAll` with one-character arguments. -/
def replaceAll (text : String) (old new : Char) : String :=
  String.ofList (text.toList.map fun char => if char = old then new else char)

/-- The loop of `strings.ReplaceAll` for a text to look for that is not empty, after leaving
out the characters that are used up. -/
def replaceFrom (old new : List Char) : Nat → List Char → List Char
  | _, [] => []
  | skip + 1, _ :: rest => replaceFrom old new skip rest
  | 0, char :: rest =>
      if old.isPrefixOf (char :: rest) then new ++ replaceFrom old new (old.length - 1) rest
      else char :: replaceFrom old new 0 rest

/-- `strings.ReplaceAll` of a text that is not empty. -/
def replaceText (text old new : String) : String :=
  String.ofList (replaceFrom old.toList new.toList 0 text.toList)

/-- `strings.HasPrefix`. -/
def hasPrefix (text start : String) : Bool :=
  start.toList.isPrefixOf text.toList

/-- `strings.Contains`. -/
def contains (text part : String) : Bool :=
  text.toList.tails.any fun tail => part.toList.isPrefixOf tail

/-- `strings.TrimPrefix`. -/
def trimPrefix (text start : String) : String :=
  if hasPrefix text start then String.ofList (text.toList.drop start.toList.length) else text

/-- `unicode.IsSpace`. -/
def isSpace (char : Char) : Bool :=
  [0x09, 0x0a, 0x0b, 0x0c, 0x0d, 0x20, 0x85, 0xa0, 0x1680, 0x2028, 0x2029, 0x202f, 0x205f,
    0x3000].contains char.toNat || (0x2000 ≤ char.toNat && char.toNat ≤ 0x200a)

/-- `strings.TrimSpace`. -/
def trimSpace (text : String) : String :=
  String.ofList ((text.toList.dropWhile isSpace).reverse.dropWhile isSpace).reverse

/-- `strings.Join`. -/
def join (parts : List String) (separator : String) : String :=
  match parts with
  | [] => ""
  | first :: rest => rest.foldl (fun joined part => joined ++ separator ++ part) first

/-- The value of a run of decimal digits, `none` when it is empty or has another character. -/
def digits? (chars : List Char) : Option Nat :=
  if chars.isEmpty || chars.any (fun char => !char.isDigit) then none
  else some (chars.foldl (fun value char => value * 10 + (char.toNat - '0'.toNat)) 0)

def minInt64 : Int := -(2 ^ 63)
def maxInt64 : Int := 2 ^ 63 - 1

/-- `strconv.ParseInt(text, 10, 64)`, on 64-bit platforms also `strconv.Atoi`: the value
and whether there was no error. A value out of range is clamped and reported. -/
def parseInt (text : String) : Int × Bool :=
  let signed : Option Int :=
    match text.toList with
    | '-' :: rest => (digits? rest).map fun value => -(value : Int)
    | '+' :: rest => (digits? rest).map fun value => (value : Int)
    | chars => (digits? chars).map fun value => (value : Int)
  match signed with
  | none => (0, false)
  | some value =>
      if value < minInt64 then (minInt64, false)
      else if maxInt64 < value then (maxInt64, false)
      else (value, true)

/-- A run of digits is read as its value. -/
theorem parseInt_of_digits {text : String} {value : Nat} (digits : digits? text.toList = some value)
    (fits : (value : Int) ≤ maxInt64) : parseInt text = ((value : Int), true) := by
  have noLess : ¬ (value : Int) < minInt64 := by
    rw [minInt64]
    omega
  have noMore : ¬ maxInt64 < (value : Int) := by omega
  unfold parseInt
  split
  · next rest chars =>
    rw [chars] at digits
    cases digits
  · next rest chars =>
    rw [chars] at digits
    cases digits
  · rw [digits]
    show (if (value : Int) < minInt64 then (minInt64, false)
      else if maxInt64 < (value : Int) then (maxInt64, false) else ((value : Int), true)) = _
    rw [if_neg noLess, if_neg noMore]

/-- The escape of a character in `strconv.Quote`; characters beyond ASCII count as printable. -/
def quoteChar (char : Char) : String :=
  let hexDigits := String.ofList (Nat.toDigits 16 char.toNat)
  if char = '"' then "\\\""
  else if char = '\\' then "\\\\"
  else if char.toNat = 7 then "\\a"
  else if char.toNat = 8 then "\\b"
  else if char = '\t' then "\\t"
  else if char = '\n' then "\\n"
  else if char.toNat = 11 then "\\v"
  else if char.toNat = 12 then "\\f"
  else if char = '\r' then "\\r"
  else if char.toNat < 0x10 then "\\x0" ++ hexDigits
  else if char.toNat < 0x20 || char.toNat = 0x7f then "\\x" ++ hexDigits
  else char.toString

/-- `strconv.Quote`. -/
def quote (text : String) : String :=
  "\"" ++ String.join (text.toList.map quoteChar) ++ "\""

/-- `strconv.Atoi` with the text of its error. -/
def atoi (text : String) : Except String Int :=
  match parseInt text with
  | (value, true) => .ok value
  | (0, false) => .error ("strconv.Atoi: parsing " ++ quote text ++ ": invalid syntax")
  | (_, false) => .error ("strconv.Atoi: parsing " ++ quote text ++ ": value out of range")

theorem atoi_ok {text : String} {value : Int} (parsed : atoi text = .ok value) :
    (parseInt text).1 = value := by
  unfold atoi at parsed
  split at parsed
  · next read =>
    rw [read]
    exact Except.ok.inj parsed
  · cases parsed
  · cases parsed

/-- `strconv.Itoa`. -/
def itoa (value : Int) : String := toString value

/-- A number that is not negative is written as its digits. -/
theorem itoa_of_nonneg {value : Int} (nonneg : 0 ≤ value) : itoa value = value.toNat.repr := by
  rw [itoa, Int.toString_eq_repr, Int.repr_eq_if, if_pos nonneg]

/-- Different numbers are written differently. -/
theorem itoa_injective {left right : Int} (leftNonneg : 0 ≤ left) (rightNonneg : 0 ≤ right)
    (same : itoa left = itoa right) : left = right := by
  rw [itoa_of_nonneg leftNonneg, itoa_of_nonneg rightNonneg] at same
  have digits : Nat.toDigits 10 left.toNat = Nat.toDigits 10 right.toNat := by
    simpa using congrArg String.toList same
  have parsed := congrArg (fun chars => Nat.ofDigitChars 10 chars 0) digits
  simp only [Nat.ofDigitChars_toDigits (b := 10) (by decide) (by decide)] at parsed
  omega

/-- A number that is written is read as itself. -/
theorem parseInt_itoa {value : Int} (nonneg : 0 ≤ value) (fits : value ≤ maxInt64) :
    parseInt (itoa value) = (value, true) := by
  have number : (value.toNat : Int) = value := Int.toNat_of_nonneg nonneg
  have chars : (itoa value).toList = Nat.toDigits 10 value.toNat := by
    rw [itoa_of_nonneg nonneg]
    simp
  have read : digits? (itoa value).toList = some value.toNat := by
    rw [chars, digits?, if_neg]
    · have parsed := Nat.ofDigitChars_toDigits (n := value.toNat) (b := 10) (by decide) (by decide)
      rw [Nat.ofDigitChars] at parsed
      simpa [Nat.mul_comm] using parsed
    · simp only [Bool.or_eq_true, List.isEmpty_iff, List.any_eq_true, Bool.not_eq_true', not_or,
        not_exists, not_and, Bool.not_eq_false]
      exact ⟨Nat.toDigits_ne_nil, fun char member =>
        Nat.isDigit_of_mem_toDigits (by decide) (by decide) member⟩
  rw [← number] at fits
  rw [parseInt_of_digits read fits, number]

theorem length_itoa_le_iff {value : Int} (nonneg : 0 ≤ value) {most : Nat} (some : 0 < most) :
    (itoa value).length ≤ most ↔ value < 10 ^ most := by
  rw [itoa_of_nonneg nonneg, Nat.length_repr_le_iff some, Int.toNat_lt nonneg]
  push_cast
  rfl

@[simp]
theorem replaceAll_replaceAll (text : String) {old new : Char} :
    replaceAll (replaceAll text old new) old new = replaceAll text old new := by
  simp only [replaceAll, String.toList_ofList, List.map_map]
  congr 1
  apply List.map_congr_left
  intro char _
  simp only [Function.comp]
  split_ifs with same again
  · exact again.symm ▸ rfl
  · rfl
  · rfl

@[simp]
theorem replaceAll_eq_empty_iff {text : String} {old new : Char} :
    replaceAll text old new = "" ↔ text = "" := by
  constructor
  · intro empty
    have chars := congrArg String.toList empty
    simpa [replaceAll] using chars
  · rintro rfl
    rfl

@[simp]
theorem replaceAll_empty (old new : Char) : replaceAll "" old new = "" := rfl

example : (split "a||b" '|', split "" '|', parseInt "-12", parseInt "1e3") =
    (["a", "", "b"], [""], (-12, true), (0, false)) := by decide

end MessagePusher.Common.Text
