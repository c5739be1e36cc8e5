import MessagePusher.Common.Text
import Mathlib.Data.List.DropRight
import Mathlib.Order.WithBot
import Mathlib.Data.Rat.Defs
import Mathlib.Algebra.Order.Ring.Unbundled.Rat

/-!
# What the release scripts use of their language

The functions on strings that `.forgejo/scripts` calls, where they differ from those of
`Common.Text`, and the parts of the engine that the model takes as they are. An unset variable of
the environment reads as the empty string, as in the scripts.
-/

namespace MessagePusher.Scripts

open Common

/-! ### Strings -/

/-- White space and line terminators: what `trim` removes and `\s` matches. -/
def isSpace (char : Char) : Bool :=
  [0x09, 0x0a, 0x0b, 0x0c, 0x0d, 0x20, 0xa0, 0x1680, 0x2028, 0x2029, 0x202f, 0x205f, 0x3000,
    0xfeff].contains char.toNat || (0x2000 ≤ char.toNat && char.toNat ≤ 0x200a)

def trimChars (chars : List Char) : List Char :=
  ((chars.dropWhile isSpace).reverse.dropWhile isSpace).reverse

/-- `trim`. -/
def trim (text : String) : String := String.ofList (trimChars text.toList)

theorem trim_trim (text : String) : trim (trim text) = trim text := by
  unfold trim
  rw [String.toList_ofList]
  congr 1
  have right : ∀ chars, trimChars chars = (chars.dropWhile isSpace).rdropWhile isSpace :=
    fun _ => rfl
  rw [right, right]
  -- What is left starts with no white space, since it starts as what was trimmed on the left.
  have left : (((text.toList.dropWhile isSpace).rdropWhile isSpace).dropWhile isSpace) =
      (text.toList.dropWhile isSpace).rdropWhile isSpace := by
    rw [List.dropWhile_eq_self_iff]
    intro some_ space
    have start := List.rdropWhile_prefix isSpace (text.toList.dropWhile isSpace)
    have longer : 0 < (text.toList.dropWhile isSpace).length :=
      Nat.lt_of_lt_of_le some_ start.length_le
    have first := List.dropWhile_eq_self_iff.mp
      (List.dropWhile_idempotent isSpace text.toList) longer
    rw [start.getElem some_] at space
    exact first space
  rw [left, List.rdropWhile_idempotent]

/-- `split` at runs of the given characters. Every caller drops the empty parts, so it makes no
difference where a run is cut. -/
def splitAny (separators : List Char) (text : String) : List String :=
  (text.toList.splitOnP fun char => separators.contains char).map String.ofList

/-- The texts before and behind the first `=`. -/
def cutEquals (text : String) : Option (String × String) :=
  match text.toList.span (· ≠ '=') with
  | (before, _ :: after) => some (String.ofList before, String.ofList after)
  | (_, []) => none

/-- `slice(0, length)`. -/
def take (length : Nat) (text : String) : String := String.ofList (text.toList.take length)

/-- `text.replace(/^start/, '')` for one of several starts. -/
def stripStart (starts : List String) (text : String) : String :=
  match starts.find? (Text.hasPrefix text) with
  | some start => Text.trimPrefix text start
  | none => text

/-- `replace(/\/+$/, '')`. -/
def stripSlashes (text : String) : String :=
  String.ofList (text.toList.reverse.dropWhile (· = '/')).reverse

/-- The escape of a character in `JSON.stringify`. -/
def jsonChar (char : Char) : String :=
  let hexDigits := String.ofList (Nat.toDigits 16 char.toNat)
  if char = '"' then "\\\""
  else if char = '\\' then "\\\\"
  else if char.toNat = 8 then "\\b"
  else if char.toNat = 12 then "\\f"
  else if char = '\n' then "\\n"
  else if char = '\r' then "\\r"
  else if char = '\t' then "\\t"
  else if char.toNat < 0x10 then "\\u000" ++ hexDigits
  else if char.toNat < 0x20 then "\\u00" ++ hexDigits
  else char.toString

/-- `JSON.stringify` of a string. -/
def jsonString (text : String) : String :=
  "\"" ++ String.join (text.toList.map jsonChar) ++ "\""

/-! ### Expressions in double braces -/

/-- The expression that a text starts with: what is between the braces, trimmed, and the number of
characters of the whole. Nothing between them is a closing brace. -/
def expression? : List Char → Option (List Char × Nat)
  | '{' :: '{' :: body =>
      match body.span (· ≠ '}') with
      | (content, '}' :: '}' :: _) => some (trimChars content, content.length + 4)
      | _ => none
  | _ => none

/-- The expressions of a text, after leaving out the characters that are used up. -/
def expressionsFrom : Nat → List Char → List String
  | _, [] => []
  | skip + 1, _ :: rest => expressionsFrom skip rest
  | 0, char :: rest =>
      match expression? (char :: rest) with
      | some (token, length) => String.ofList token :: expressionsFrom (length - 1) rest
      | none => expressionsFrom 0 rest

/-- A text with the expressions that have a value replaced by it. -/
def replaceExpressions (value : String → Option String) : Nat → List Char → List Char
  | _, [] => []
  | skip + 1, _ :: rest => replaceExpressions value skip rest
  | 0, char :: rest =>
      match expression? (char :: rest) with
      | some (token, length) =>
          match value (String.ofList token) with
          | some text => text.toList ++ replaceExpressions value (length - 1) rest
          | none => char :: replaceExpressions value 0 rest
      | none => char :: replaceExpressions value 0 rest

/-- Whether one of the named expressions stands anywhere in a text. -/
def hasExpression (names : List String) (text : String) : Bool :=
  text.toList.tails.any fun tail =>
    (expression? tail).any fun found => names.contains (String.ofList found.1)

/-! ### Numbers -/

/-- A number, `none` when it is not one. -/
abbrev Number := Option (WithBot (WithTop ℚ))

namespace Number

def ofInt (value : Int) : Number := some (((value : ℚ) : WithTop ℚ) : WithBot (WithTop ℚ))

/-- `Number.isFinite`. -/
def isFinite (number : Number) : Bool := number ≠ none ∧ number ≠ some ⊥ ∧ number ≠ some ⊤

/-- `left <= right`. -/
def le (left right : Number) : Bool :=
  match left, right with
  | some left, some right => left ≤ right
  | _, _ => false

/-- `left < right`. -/
def lt (left right : Number) : Bool :=
  match left, right with
  | some left, some right => left < right
  | _, _ => false

/-- `Math.max`. -/
def max (left right : Number) : Number :=
  match left, right with
  | some left, some right => some (Max.max left right)
  | _, _ => none

end Number

/-! ### The engine -/

/-- What the scripts leave to the engine: the case mapping, the order of `localeCompare`, the
conversion to numbers, and regular expressions, which compile or fail with a text and find the
first match with its groups. -/
structure Engine where
  toLowerCase : String → String
  localeCompare : String → String → Int
  number : String → Number
  regExp : String → Except String (String → Option (List (Option String)))

example : expressionsFrom 0 "\x7b\x7b tag \x7d\x7d-\x7b\x7bsha\x7d\x7d\x7b\x7b\x7ba\x7d".toList =
    ["tag", "sha"] := by decide

end MessagePusher.Scripts
