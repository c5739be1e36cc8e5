import MessagePusher.Common.Text

/-!
# JSON values and decoding into a struct

`decodeInto` is `json.Decoder.Decode` into a struct that is given by its fields:
a key is matched exactly or, failing that, up to case folding, a later key
overrides an earlier one, `null` leaves a field alone, an unknown key is skipped
and a value of the wrong type makes the whole decoding an error.
-/

namespace MessagePusher.Common

/-- A JSON value; a number keeps its literal. -/
inductive Json where
  | null
  | bool (value : Bool)
  | number (literal : String)
  | string (value : String)
  | array (items : List Json)
  | object (fields : List (String × Json))

namespace Json

/-- How a struct field takes a JSON value, `none` for a value of the wrong type. -/
structure Field (σ : Type) where
  name : String
  set : Json → σ → Option σ

/-- A `string` field. -/
def stringField {σ : Type} (name : String) (assign : String → σ → σ) : Field σ where
  name := name
  set
    | .string value, target => some (assign value target)
    | .null, target => some target
    | _, _ => none

/-- An `int` or `int64` field: the literal must denote a 64-bit integer. -/
def intField {σ : Type} (name : String) (assign : Int → σ → σ) : Field σ where
  name := name
  set
    | .number literal, target =>
        let (value, accepted) := Text.parseInt literal
        if accepted then some (assign value target) else none
    | .null, target => some target
    | _, _ => none

/-- A `bool` field. -/
def boolField {σ : Type} (name : String) (assign : Bool → σ → σ) : Field σ where
  name := name
  set
    | .bool value, target => some (assign value target)
    | .null, target => some target
    | _, _ => none

/-- A `*string` field, which `null` clears. -/
def optionalStringField {σ : Type} (name : String) (assign : Option String → σ → σ) :
    Field σ where
  name := name
  set
    | .string value, target => some (assign (some value) target)
    | .null, target => some (assign none target)
    | _, _ => none

/-- Case folding of one character, as far as it can reach an ASCII letter: the Kelvin
sign and the long s fold to `k` and `s`. -/
def foldChar (char : Char) : Char :=
  if char.toNat = 0x212a then 'k' else if char.toNat = 0x17f then 's' else char.toLower

/-- The field that a key names. -/
def fieldFor {σ : Type} (fields : List (Field σ)) (key : String) : Option (Field σ) :=
  (fields.find? fun field => field.name = key).or
    (fields.find? fun field => field.name.toList = key.toList.map foldChar)

/-- Decode one member of an object. -/
def decodeMember {σ : Type} (fields : List (Field σ)) (member : String × Json) (target : σ) :
    Option σ :=
  match fieldFor fields member.1 with
  | some field => field.set member.2 target
  | none => some target

/-- `Decode` into a struct; `none` is an error. The body is `none` when the request does
not start with a syntactically valid JSON value. -/
def decodeInto {σ : Type} (fields : List (Field σ)) (body : Option Json) (zero : σ) : Option σ :=
  match body with
  | some (.object members) => members.foldlM (fun target member =>
      decodeMember fields member target) zero
  | some .null => some zero
  | _ => none

/-- `Decode` into a struct whose error is ignored: a member of the wrong type leaves its field
alone, and a body that is no object all fields. -/
def decodeAnyway {σ : Type} (fields : List (Field σ)) (body : Option Json) (zero : σ) : σ :=
  match body with
  | some (.object members) => members.foldl (fun target member =>
      (decodeMember fields member target).getD target) zero
  | _ => zero

end Json

end MessagePusher.Common
