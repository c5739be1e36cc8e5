import MessagePusher.Common.Variables
import MessagePusher.Utf8.Runes

/-!
# Template variables, byte by byte

`RenderTemplate` as it runs on Go strings, which may have any bytes. What it makes of a variable
is that of `Common.Variables` for the characters that a reader sees in its text.
-/

namespace MessagePusher.Common.TemplateBytes

open JsonText Utf8

/-- A Go string. -/
abbrev Bytes := List UInt8

/-- A value of a variable: a string, or a value that a JSON decoder made. -/
inductive Value where
  | text (bytes : Bytes)
  | json (value : Json)

/-- The names of variables with their values. -/
abbrev Variables := List (Bytes × Value)

section

variable (isPrint : Char → Bool)

/-! ### `escapeTemplateValue` -/

/-- What `strconv.Quote` writes for a rune. -/
def quoteRune : Rune → Bytes
  | .char char => encode (appendEscapedRune isPrint char)
  | .stray byte => encode ('\\' :: 'x' :: quoteDigits 2 byte.toNat)

/-- `strconv.Quote`, which is `%q`. -/
def quoteText (text : Bytes) : Bytes :=
  0x22 :: ((runes text).flatMap (quoteRune isPrint) ++ [0x22])

/-- `strings.TrimSuffix` with one quote. -/
def trimQuoteSuffix (text : Bytes) : Bytes :=
  if text.getLast? = some 0x22 then text.dropLast else text

/-- `strings.TrimPrefix` with one quote. -/
def trimQuotePrefix (text : Bytes) : Bytes :=
  if text.head? = some 0x22 then text.tail else text

/-- `escapeTemplateValue`: `strconv.Quote` without the two quotes. -/
def escapeTemplateValue (value : Bytes) : Bytes :=
  trimQuotePrefix (trimQuoteSuffix (quoteText isPrint value))

theorem escapeTemplateValue_eq (value : Bytes) :
    escapeTemplateValue isPrint value = (runes value).flatMap (quoteRune isPrint) := by
  have suffix : trimQuoteSuffix (quoteText isPrint value) =
      0x22 :: (runes value).flatMap (quoteRune isPrint) := by
    have whole : quoteText isPrint value =
        (0x22 :: (runes value).flatMap (quoteRune isPrint)) ++ [0x22] := rfl
    rw [trimQuoteSuffix, whole, List.getLast?_concat, if_pos rfl, List.dropLast_concat]
  rw [escapeTemplateValue, suffix]
  rfl

end

/-! ### Values and paths -/

/-- The value as functions on runes see it: a stray byte is no white space, and the JSON decoder
takes U+FFFD for it. -/
def Value.seen : Value → Json
  | text bytes => .string (String.ofList (characters bytes))
  | json value => value

/-- `templateValueString`. -/
def templateValueString : Value → Option Bytes
  | .text bytes => some bytes
  | .json value => (Common.templateValueString value).map fun text => encode text.toList

/-- `isTemplatePathCapable`. -/
def isTemplatePathCapable (value : Value) : Bool := Common.isTemplatePathCapable value.seen

/-- The text of the value under a path. -/
def templatePathText (value : Value) (path : Bytes) : Option Bytes :=
  (Common.templatePathText value.seen (characters path)).map fun text => encode text.toList

/-! ### `RenderTemplate` -/

/-- `isTemplateIdentifierByte`. -/
def isTemplateIdentifierByte (byte : UInt8) : Bool :=
  (0x61 ≤ byte && byte ≤ 0x7a) || (0x41 ≤ byte && byte ≤ 0x5a) ||
    (0x30 ≤ byte && byte ≤ 0x39) || byte = 0x5f

/-- `isTemplatePathStartByte`. -/
def isTemplatePathStartByte (byte : UInt8) : Bool :=
  (0x61 ≤ byte && byte ≤ 0x7a) || (0x41 ≤ byte && byte ≤ 0x5a) ||
    (0x30 ≤ byte && byte ≤ 0x39) || byte = 0x5f || byte = 0x2d

/-- `isTemplatePathByte`. -/
def isTemplatePathByte (byte : UInt8) : Bool :=
  (0x61 ≤ byte && byte ≤ 0x7a) || (0x41 ≤ byte && byte ≤ 0x5a) ||
    (0x30 ≤ byte && byte ≤ 0x39) || byte = 0x5f || byte = 0x2d || byte = 0x2e

/-- The order of the names: longer ones first. -/
def NamesBefore (first second : Bytes) : Prop :=
  second.length < first.length ∨ (first.length = second.length ∧ first ≤ second)

instance (first second : Bytes) : Decidable (NamesBefore first second) :=
  inferInstanceAs (Decidable (_ ∨ _))

/-- The names as `RenderTemplate` tries them: longer ones first, no blank one. -/
def templateNames (vars : Variables) : List Bytes :=
  ((vars.map Prod.fst).filter (· ≠ [])).insertionSort NamesBefore

/-- The name of the placeholder whose `$` is followed by this text. -/
def templateName (vars : Variables) (rest : Bytes) : Option Bytes :=
  (templateNames vars).find? fun name => name.isPrefixOf rest

/-- What one round of the loop writes: a part of the template, or the text of a value. -/
inductive Write where
  | copy (text : Bytes)
  | value (text : Bytes)
deriving DecidableEq

/-- The path after a variable, without its dot. -/
def templatePath (after : Bytes) : Option Bytes :=
  match after with
  | 0x2e :: first :: rest =>
      if isTemplatePathStartByte first then some ((first :: rest).takeWhile isTemplatePathByte)
      else none
  | _ => none

/-- What is written for a variable without a path: its value, or itself. -/
def plainWrite (name : Bytes) (value : Value) : Write :=
  match templateValueString value with
  | some text => .value text
  | none => .copy (0x24 :: name)

/-- A round of the loop at a `$`, on what follows it: what is written, and how much of what
follows is used up. -/
def placeholder (vars : Variables) (rest : Bytes) : Write × Nat :=
  match templateName vars rest with
  | none => (.copy [0x24], 0)
  | some name =>
      let value := (vars.lookup name).getD (.json .null)
      let after := rest.drop name.length
      match templatePath after with
      | some path =>
          match templatePathText value path with
          | some text => (.value text, name.length + 1 + path.length)
          | none =>
              if isTemplatePathCapable value then
                (.copy (0x24 :: (name ++ 0x2e :: path)), name.length + 1 + path.length)
              else (plainWrite name value, name.length)
      | none =>
          if after.head?.any isTemplateIdentifierByte then (.copy (0x24 :: name), name.length)
          else (plainWrite name value, name.length)

/-- The writes of the loop, after leaving out the bytes that are used up. -/
def renderWrites (vars : Variables) : Nat → Bytes → List Write
  | _, [] => []
  | skip + 1, _ :: rest => renderWrites vars skip rest
  | 0, byte :: rest =>
      if byte = 0x24 then
        (placeholder vars rest).1 :: renderWrites vars (placeholder vars rest).2 rest
      else .copy [byte] :: renderWrites vars 0 rest

/-- What a write puts into the output. -/
def Write.written (isPrint : Char → Bool) : Write → Bytes
  | copy text => text
  | value text => escapeTemplateValue isPrint text

/-- `RenderTemplate`. -/
def renderTemplate (isPrint : Char → Bool) (template : Bytes) (vars : Variables) : Bytes :=
  (renderWrites vars 0 template).flatMap (Write.written isPrint)

end MessagePusher.Common.TemplateBytes
