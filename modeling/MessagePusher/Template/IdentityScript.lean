import MessagePusher.Controller.Extraction
import MessagePusher.Float64.RoundTrip
import MessagePusher.JsonText.Lengths
import MessagePusher.Store.Entries

/-!
# A pre-script that changes nothing

With a pre-script the body is decoded and encoded again before paths are looked up. That keeps
strings, keys and nesting, and numbers as far as a float does. Of a selected number, `gjson` shows
the text when it is an integer and the float otherwise, so only integers and the numbers inside
objects and arrays can come out changed.
-/

namespace MessagePusher.Template

open Common Controller Float64 JsonText Model

/-! ### What a variable stands for -/

/-- `Result.String`: an integer is shown as it is, another number as the float that it is read as, an
object or an array as JSON. -/
def Shows (text : String) : Json → Prop
  | .null => text = ""
  | .bool value => text = if value then "true" else "false"
  | .string value => text = value
  | .number literal => (IsInteger literal → text = literal) ∧ (¬ IsInteger literal →
      ∀ float, parseFloat literal = some float → text = String.ofList (fixedText float))
  | value => ∃ limit tree, decode limit text = some tree ∧ meaning tree = meaning value

/-- Two texts for a value of this kind stand for the same: equal texts, numbers of the same exact
value, or JSON that denotes the same. -/
def SameVariable (first second : String) : Json → Prop
  | .number _ =>
      isNumber first.toList ∧ isNumber second.toList ∧ literalValue first = literalValue second
  | .array _ | .object _ => ∃ limit left limit' right, decode limit first = some left ∧
      decode limit' second = some right ∧ meaning left = meaning right
  | _ => first = second

/-- The keys and indices lead to one existing value. -/
inductive Selects : Json → List String → Json → Prop where
  | here {value} : Selects value [] value
  | member {members key value path found}
      (single : members.filter (fun member => member.1 = key) = [(key, value)])
      (onward : Selects value path found) : Selects (.object members) (key :: path) found
  | item {items segment idx value path found} (digits : Text.digits? segment.toList = some idx)
      (listed : items[idx]? = some value) (onward : Selects value path found) :
      Selects (.array items) (segment :: path) found

/-- `Get` returns the value at the path, and `String` shows it. -/
def GetsValues (gjson : Gjson) : Prop :=
  ∀ {text tree path segments value}, decode maxNestingDepth text = some tree →
    gjson.components path = some segments → Selects tree segments value →
    Shows (gjson.get text path) value

/-- The extracted variables stand for the same values with the pre-script and without. -/
def Transparent (gjson : Gjson) (interpret : Interpreter) (decodeError marshalError ruleError : String)
    (webhook : Webhook) (body : String) (tree : Json) (rule : List (String × String)) : Prop :=
  ∃ off on : List (String × String),
    extractVariables gjson interpret decodeError marshalError ruleError
        { webhook with preScriptEnabled := false } body = .ok (some off) ∧
      extractVariables gjson interpret decodeError marshalError ruleError
        { webhook with preScriptEnabled := true } body = .ok (some on) ∧
      ∀ entry ∈ rule, ∀ segments value, gjson.components entry.2 = some segments →
        Selects tree segments value → ∃ without within, off.lookup entry.1 = some without ∧
          on.lookup entry.1 = some within ∧ SameVariable without within value

/-- A number that is the same after it has been a float. -/
def KeepsValue (literal : String) : Prop :=
  literalValue (floatLiteral literal) = literalValue literal

/-- A selected integer keeps its value, and so does each number in a selected object or array. Other
selected numbers are shown as floats anyway. -/
def ValueSurvives : Json → Prop
  | .number literal => IsInteger literal → KeepsValue literal
  | value => ∀ literal, Within (.number literal) (toMaps value) → KeepsValue literal

/-- The body is decoded, with numbers that are floats, and the selected values survive. -/
def NumbersSurvive (gjson : Gjson) (body : String) (tree : Json) (rule : List (String × String)) :
    Prop :=
  (decode maxNestingDepth body).isSome ∧
    (∀ literal, Within (.number literal) tree → (throughFloat literal).isSome) ∧
    ∀ entry ∈ rule, ∀ segments value, gjson.components entry.2 = some segments →
      Selects tree segments value → ValueSurvives value

variable {gjson : Gjson} {interpret : Interpreter} {decodeError marshalError ruleError : String}
  {webhook : Webhook} {body text path : String} {limit : Nat} {tree value : Json}
  {segments : List String} {rule : List (String × String)}

/-! ### Paths in the value that is encoded again -/

/-- The value as it is after decoding to floats. -/
def decoded (tree : Json) : Json := toMaps (mapNumbers floatLiteral tree)

/-- A path selects in the decoded tree what it selects in the tree of literals. -/
theorem Selects.decoded (selects : Selects tree segments value) :
    Selects (decoded tree) segments (decoded value) := by
  induction selects with
  | here => exact .here
  | @member members key inner path found single _ ih =>
      have changed : (members.map fun member =>
          (member.1, Template.decoded member.2)).filter (fun member => member.1 = key) =
            [(key, Template.decoded inner)] := by
        rw [List.filter_map]
        exact congrArg (List.map fun member => (member.1, Template.decoded member.2)) single
      have whole : Template.decoded (.object members) =
          .object (memberMap (members.map fun member => (member.1, Template.decoded member.2))) := by
        rw [Template.decoded, mapNumbers, mapNumberMembers_eq, toMaps, membersToMaps_eq, List.map_map]
        rfl
      rw [whole]
      refine .member ?_ ih
      rw [filter_memberMap, changed]
      rfl
  | @item items segment idx inner path found digits listed _ ih =>
      have whole : Template.decoded (.array items) = .array (items.map Template.decoded) := by
        rw [Template.decoded, mapNumbers, mapNumberItems_eq, toMaps, itemsToMaps_eq, List.map_map]
        rfl
      rw [whole]
      refine .item digits ?_ ih
      rw [List.getElem?_map, listed]
      rfl

/-- A whole number is shown as it is written, any other one as its float is. -/
theorem shows_number {literal : String} : Shows text (.number literal) ↔
    (IsInteger literal → text = literal) ∧ (¬ IsInteger literal →
      ∀ float, parseFloat literal = some float → text = String.ofList (fixedText float)) :=
  Iff.rfl

/-- A container is shown by any text that means it. -/
theorem shows_container (container : IsContainer value) :
    Shows text value ↔
      ∃ limit tree, decode limit text = some tree ∧ meaning tree = meaning value := by
  cases value with
  | array items => exact Iff.rfl
  | object members => exact Iff.rfl
  | _ => exact container.elim

/-- Two texts of a container count as one variable when they mean the same. -/
theorem sameVariable_container (container : IsContainer value) {first second : String} :
    SameVariable first second value ↔ ∃ limit left limit' right, decode limit first = some left ∧
      decode limit' second = some right ∧ meaning left = meaning right := by
  cases value with
  | array items => exact Iff.rfl
  | object members => exact Iff.rfl
  | _ => exact container.elim

/-- Two texts of a number count as one variable when they have its value. -/
theorem sameVariable_number {first second literal : String} :
    SameVariable first second (.number literal) ↔
      isNumber first.toList ∧ isNumber second.toList ∧ literalValue first = literalValue second :=
  Iff.rfl

/-- A number that is not whole survives anyway, since it is shown as its float. -/
theorem valueSurvives_number {literal : String} :
    ValueSurvives (.number literal) ↔ (IsInteger literal → KeepsValue literal) :=
  Iff.rfl

/-- A container survives when all its numbers do. -/
theorem valueSurvives_container (container : IsContainer value) : ValueSurvives value ↔
    ∀ literal, Within (.number literal) (toMaps value) → KeepsValue literal := by
  cases value with
  | array items => exact Iff.rfl
  | object members => exact Iff.rfl
  | _ => exact container.elim

/-- Decoding to floats changes what a value denotes only by its numbers. -/
theorem meaning_decoded_iff : meaning (decoded value) = meaning value ↔
    ∀ literal, Within (.number literal) (toMaps value) → KeepsValue literal := by
  have maps : toMaps (decoded value) = mapNumbers floatLiteral (toMaps value) := by
    rw [decoded, toMaps_of_isMaps (isMaps_toMaps _), toMaps_mapNumbers]
  rw [meaning, meaning, maps]
  exact denote_mapNumbers_iff

/-- A number that goes through a float has one. -/
theorem exists_parseFloat {literal : String} (through : (throughFloat literal).isSome) :
    ∃ float, parseFloat literal = some float := by
  rw [throughFloat, Option.isSome_map] at through
  exact Option.isSome_iff_exists.mp through

/-- A number that went through a float is written as that. -/
theorem floatLiteral_eq {literal : String} {float : Float64.Float}
    (read : parseFloat literal = some float) :
    floatLiteral literal = String.ofList (floatText float) := by
  rw [floatLiteral, throughFloat, read, Option.map_some, Option.getD_some]

/-- A float that is written and read again is shown as the float. -/
theorem shows_floatLiteral {literal : String} {float : Float64.Float}
    (read : parseFloat literal = some float)
    (shows : Shows text (.number (floatLiteral literal))) :
    text = String.ofList (fixedText float) := by
  rw [floatLiteral_eq read, shows_number] at shows
  by_cases integer : IsInteger (String.ofList (floatText float))
  · rw [shows.1 integer, fixedText_of_isInteger integer]
  · have nonzero : float.magnitude.significand ≠ 0 := by
      intro zero
      refine integer ?_
      unfold IsInteger floatText
      rw [if_pos zero, String.toList_ofList]
      cases float.negative <;> decide
    exact shows.2 integer float (parseFloat_floatText (canonical_of_parseFloat read nonzero) nonzero)

/-- With and without decoding to floats a variable stands for the same value exactly if the value
survives. -/
theorem sameVariable_iff {first second : String} (numbers : NumbersValid value)
    (floats : ∀ literal, Within (.number literal) value → (throughFloat literal).isSome)
    (without : Shows first value) (within : Shows second (decoded value)) :
    SameVariable first second value ↔ ValueSurvives value := by
  by_cases container : IsContainer value
  · have containers : IsContainer (decoded value) := by
      rw [decoded, isContainer_toMaps]
      cases value <;> exact container
    obtain ⟨limit, left, readLeft, sameLeft⟩ := (shows_container container).mp without
    obtain ⟨limit', right, readRight, sameRight⟩ := (shows_container containers).mp within
    rw [sameVariable_container container, valueSurvives_container container, ← meaning_decoded_iff]
    constructor
    · rintro ⟨_, left_, _, right_, again, again', same⟩
      rw [← sameLeft, ← sameRight, decode_unique readLeft again, decode_unique readRight again', same]
    · intro kept
      exact ⟨limit, left, limit', right, readLeft, readRight,
        sameLeft.trans (kept.symm.trans sameRight.symm)⟩
  · cases value with
    | number literal =>
        obtain ⟨float, read⟩ := exists_parseFloat (floats literal .self)
        have exact_ := floatLiteral_eq read
        have whole : decoded (.number literal) = .number (floatLiteral literal) := by
          rw [decoded, mapNumbers, toMaps]
        rw [whole] at within
        have shown := shows_floatLiteral read within
        have number : isNumber second.toList := by
          rw [shown, String.toList_ofList]
          exact isNumber_fixedText float
        have value : literalValue second = literalValue (floatLiteral literal) := by
          rw [shown, exact_, literalValue_fixedText]
        rw [shows_number] at without
        rw [sameVariable_number, valueSurvives_number]
        by_cases integer : IsInteger literal
        · obtain rfl := without.1 integer
          constructor
          · rintro ⟨-, -, same⟩ -
            exact value.symm.trans same.symm
          · intro kept
            exact ⟨numbers first .self, number, (value.trans (kept integer)).symm⟩
        · have same : first = second := (without.2 integer float read).trans shown.symm
          rw [same]
          exact iff_of_true ⟨number, number, rfl⟩ fun isInteger => absurd isInteger integer
    | array items => exact absurd trivial container
    | object members => exact absurd trivial container
    | null => exact iff_of_true (without.trans within.symm) (by rintro literal ⟨⟩)
    | bool truth => exact iff_of_true (without.trans within.symm) (by rintro literal ⟨⟩)
    | string inner => exact iff_of_true (without.trans within.symm) (by rintro literal ⟨⟩)

/-- What is selected is a part. -/
theorem Selects.within (selects : Selects tree segments value) : Within value tree := by
  induction selects with
  | here => exact .self
  | @member members key inner path found single _ ih =>
      have listed : (key, inner) ∈ members.filter fun member => member.1 = key := by
        rw [single]
        exact List.mem_singleton_self _
      exact ih.trans (.member (List.mem_of_mem_filter listed) .self)
  | item _ listed _ ih => exact ih.trans (.item (List.mem_of_getElem? listed) .self)

/-- What is selected in a text has valid numbers. -/
theorem Selects.numbersValid (selects : Selects tree segments value)
    (read : decode limit text = some tree) : NumbersValid value :=
  fun literal inside => numbersValid_of_decode read literal (inside.trans selects.within)

/-! ### The two ways -/

/-- Under the name of an entry stands what its path gets. -/
theorem lookup_extractFrom (distinct : (rule.map Prod.fst).Nodup) {entry : String × String}
    (listed : entry ∈ rule) (text : String) :
    (extractFrom gjson text rule).lookup entry.1 = some (gjson.get text entry.2) := by
  rw [extractFrom, Store.Entries.lookup_map rule fun _ path => gjson.get text path,
    Store.Entries.lookup_of_mem distinct listed]
  rfl

/-- A rule has each name once. -/
theorem nodup_decodeExtractRule {source : String} (found : decodeExtractRule source = some rule) :
    (rule.map Prod.fst).Nodup := by
  unfold decodeExtractRule at found
  split at found
  · next members _ =>
    split_ifs at found
    obtain rfl := Option.some.inj found
    rw [List.map_map, List.Nodup, List.pairwise_map]
    exact (memberMap_sorted members).imp fun before => ne_of_lt before
  · obtain rfl := Option.some.inj found
    exact List.nodup_nil
  · cases found

/-- Without a script the variables come from the body itself. -/
theorem extractVariables_off (found : decodeExtractRule webhook.extractRule = some rule) :
    extractVariables gjson interpret decodeError marshalError ruleError
      { webhook with preScriptEnabled := false } body =
        .ok (some (extractFrom gjson body rule)) := by
  unfold extractVariables
  have off : requestText interpret decodeError marshalError
      { webhook with preScriptEnabled := false } body = .ok (some body) := rfl
  rw [off]
  dsimp only
  rw [found]

/-- A script that changes nothing hands on what was decoded, encoded again. -/
theorem requestText_on_iff
    (identity : ∀ input, interpret webhook.preScript input = .ok (some input, true))
    (script : Text.trimSpace webhook.preScript ≠ "") {answer : Option String} :
    requestText interpret decodeError marshalError { webhook with preScriptEnabled := true } body =
        .ok answer ↔
      ∃ input processed, unmarshal body = some input ∧ marshal input = some processed ∧
        answer = some processed := by
  have run : ∀ input, runPreScript interpret webhook.preScript input = .ok (input, true) := by
    intro input
    rw [runPreScript, if_neg script, identity]
  rw [requestText, if_pos rfl]
  cases unmarshal body with
  | none =>
      refine iff_of_false (fun answered => by cases answered) ?_
      rintro ⟨input, processed, ⟨⟩, -⟩
  | some input =>
      dsimp only
      rw [run]
      dsimp only
      cases marshalled : marshal input with
      | none =>
          refine iff_of_false (fun answered => by cases answered) ?_
          rintro ⟨_, processed, ⟨⟩, written, -⟩
          rw [marshalled] at written
          cases written
      | some processed =>
          constructor
          · rintro ⟨⟩
            exact ⟨input, processed, rfl, marshalled, rfl⟩
          · rintro ⟨_, written, ⟨⟩, same, rfl⟩
            rw [Option.some.inj (marshalled.symm.trans same)]

/-- With such a script, the paths are looked up in the encoded value. -/
theorem extractVariables_on_iff
    (identity : ∀ input, interpret webhook.preScript input = .ok (some input, true))
    (script : Text.trimSpace webhook.preScript ≠ "")
    (found : decodeExtractRule webhook.extractRule = some rule) {on : List (String × String)} :
    extractVariables gjson interpret decodeError marshalError ruleError
        { webhook with preScriptEnabled := true } body = .ok (some on) ↔
      ∃ input processed, unmarshal body = some input ∧ marshal input = some processed ∧
        on = extractFrom gjson processed rule := by
  have handed := @requestText_on_iff interpret decodeError marshalError webhook body identity script
  unfold extractVariables
  constructor
  · intro answered
    split at answered
    · cases answered
    · cases answered
    · next text asked =>
      obtain ⟨input, processed, read, written, same⟩ := handed.mp asked
      obtain rfl := Option.some.inj same
      rw [found] at answered
      cases answered
      exact ⟨input, text, read, written, rfl⟩
  · rintro ⟨input, processed, read, written, rfl⟩
    rw [handed.mpr ⟨input, processed, read, written, rfl⟩]
    dsimp only
    rw [found]

/-- A script that changes nothing is transparent exactly when the numbers survive. -/
theorem identity_is_transparent_iff (gets : GetsValues gjson)
    (identity : ∀ input, interpret webhook.preScript input = .ok (some input, true))
    (script : Text.trimSpace webhook.preScript ≠ "") (json : decode limit body = some tree)
    (found : decodeExtractRule webhook.extractRule = some rule) :
    Transparent gjson interpret decodeError marshalError ruleError webhook body tree rule ↔
      NumbersSurvive gjson body tree rule := by
  have distinct := nodup_decodeExtractRule found
  constructor
  · rintro ⟨off, on, disabled, enabled, each⟩
    obtain ⟨input, processed, read, written, rfl⟩ :=
      (extractVariables_on_iff identity script found).mp enabled
    obtain ⟨written_, same, readBack⟩ := exists_marshal_of_unmarshal read
    obtain rfl : processed = written_ := Option.some.inj (written.symm.trans same)
    obtain ⟨tree_, body_, floats, rfl⟩ := unmarshal_eq_some_iff.mp read
    obtain rfl := decode_unique json body_
    refine ⟨Option.isSome_of_eq_some body_, floats, ?_⟩
    intro entry listed segments value parts selects
    obtain ⟨without, within, first, second, same⟩ := each entry listed segments value parts selects
    rw [extractVariables_off found] at disabled
    cases disabled
    rw [lookup_extractFrom distinct listed] at first second
    obtain rfl := Option.some.inj first
    obtain rfl := Option.some.inj second
    exact (sameVariable_iff (selects.numbersValid json)
      (fun literal inside => floats literal (inside.trans selects.within)) (gets body_ parts selects)
      (gets readBack parts selects.decoded)).mp same
  · rintro ⟨shallow, floats, kept⟩
    obtain ⟨tree_, body_⟩ := Option.isSome_iff_exists.mp shallow
    obtain rfl := decode_unique json body_
    have read : unmarshal body = some (decoded tree) :=
      unmarshal_eq_some_iff.mpr ⟨tree, body_, floats, rfl⟩
    obtain ⟨processed, written, readBack⟩ := exists_marshal_of_unmarshal read
    refine ⟨extractFrom gjson body rule, extractFrom gjson processed rule,
      extractVariables_off found, ?_, ?_⟩
    · exact (extractVariables_on_iff identity script found).mpr
        ⟨_, processed, read, written, rfl⟩
    · intro entry listed segments value parts selects
      refine ⟨_, _, lookup_extractFrom distinct listed body,
        lookup_extractFrom distinct listed processed, ?_⟩
      exact (sameVariable_iff (selects.numbersValid json)
        (fun literal inside => floats literal (inside.trans selects.within))
        (gets body_ parts selects) (gets readBack parts selects.decoded)).mpr
        (kept entry listed segments value parts selects)

/-! ### A lookup by keys and indices -/

/-- The value at a path of keys and indices. -/
def follow : Json → List String → Option Json
  | value, [] => some value
  | .object members, key :: path => (members.lookup key).bind fun value => follow value path
  | .array items, segment :: path =>
      (Text.digits? segment.toList).bind fun idx => items[idx]?.bind fun value => follow value path
  | _, _ :: _ => none

/-- A lookup answers the first member with the key. -/
theorem lookup_eq_head (members : List (String × Json)) (key : String) :
    members.lookup key = (members.filter fun member => member.1 = key).head?.map Prod.snd := by
  induction members with
  | nil => rfl
  | cons member members ih =>
      rw [List.lookup_cons]
      by_cases same : key = member.1
      · rw [beq_iff_eq.mpr same, List.filter_cons_of_pos (by simpa using same.symm)]
        rfl
      · rw [beq_false_of_ne same, ih, List.filter_cons_of_neg (by simpa using Ne.symm same)]

/-- To follow a path is to select. -/
theorem Selects.follow (selects : Selects tree segments value) : follow tree segments = some value := by
  induction selects with
  | here =>
      rw [Template.follow]
  | @member members key inner path found single _ ih =>
      rw [Template.follow, lookup_eq_head, single]
      exact ih
  | @item items segment idx inner path found digits listed _ ih =>
      rw [Template.follow, digits, Option.bind_some, listed]
      exact ih

/-- What is shown of a value. -/
def shown : Json → String
  | .null => ""
  | .bool value => if value then "true" else "false"
  | .string value => value
  | .number literal =>
      if IsInteger literal then literal
      else (parseFloat literal).elim literal fun float => String.ofList (fixedText float)
  | value => (marshal value).getD ""

/-- What `plainGjson` shows of a number. -/
theorem shown_number (literal : String) : shown (.number literal) =
    if IsInteger literal then literal
    else (parseFloat literal).elim literal fun float => String.ofList (fixedText float) :=
  rfl

/-- The part of `gjson` that looks up keys and indices, for names without special characters. -/
def plainGjson : Gjson where
  components path :=
    if path.toList.all fun char => char.isAlphanum || char = '_' || char = '.' then
      some (Text.split path '.')
    else none
  get text path :=
    (((decode maxNestingDepth text).bind fun tree => follow tree (Text.split path '.')).map
      shown).getD ""

/-- `plainGjson` gets what paths of plain keys and indices select. -/
theorem getsValues_plainGjson : GetsValues plainGjson := by
  intro text tree path segments value read parts selects
  have numbers : NumbersValid value := selects.numbersValid read
  have shallow : depth value ≤ maxNestingDepth :=
    (depth_le_of_within selects.within).trans (depth_of_decode read)
  obtain rfl : Text.split path '.' = segments := by
    rw [plainGjson] at parts
    dsimp only at parts
    split_ifs at parts
    exact Option.some.inj parts
  have got : plainGjson.get text path = shown value := by
    rw [plainGjson]
    dsimp only
    rw [read, Option.bind_some, selects.follow]
    rfl
  rw [got]
  have marshalled : marshal value = some _ := if_pos numbers
  have container : IsContainer value → Shows ((marshal value).getD "") value := by
    intro container
    rw [marshalled]
    exact (shows_container container).mpr ⟨_, value, decode_marshal marshalled shallow, rfl⟩
  cases value with
  | null => rfl
  | bool truth => rfl
  | string inner => rfl
  | number literal =>
      rw [shows_number, shown_number]
      refine ⟨fun integer => if_pos integer, fun other float found => ?_⟩
      rw [if_neg other, found, Option.elim_some]
  | array items => exact container trivial
  | object members => exact container trivial

/-! ### Several kinds of values -/

/-- The script `function main(json) { return json; }`. -/
def unchanged : Interpreter := fun _ input => .ok (some input, true)

/-- A webhook that extracts three variables, with the identity as its script. -/
def mixedHook : Webhook where
  extractRule := "\x7b\"n\":\"n\",\"o\":\"o\",\"s\":\"s\"\x7d"
  preScript := "function main(json) \x7b return json; \x7d"

def mixedRule : List (String × String) := [("n", "n"), ("o", "o"), ("s", "s")]

/-- The number has more digits than its float, the array has an integer, the string has a quote. -/
def mixedTree : Json :=
  .object
    [("n", .number "0.10000000000000001"), ("o", .array [.number "12", .null]), ("s", .string "\"")]

def mixedBody : String := "\x7b\"n\":0.10000000000000001,\"o\":[12,null],\"s\":\"\\\"\"\x7d"

theorem decode_mixedBody : decode maxNestingDepth mixedBody = some mixedTree := by
  have spelled : JsonText.text (escapeTree mixedTree) = mixedBody.toList := by decide
  have written : marshal mixedTree = some mixedBody := by
    rw [marshal, if_pos (by decide), spelled, String.ofList_toList]
  exact decode_marshal written (by decide)

theorem decodeExtractRule_mixedHook : decodeExtractRule mixedHook.extractRule = some mixedRule := by
  have spelled : JsonText.text (escapeTree (.object
      [("n", .string "n"), ("o", .string "o"), ("s", .string "s")])) =
        mixedHook.extractRule.toList := by decide
  have written : marshal (.object [("n", .string "n"), ("o", .string "o"), ("s", .string "s")]) =
      some mixedHook.extractRule := by
    rw [marshal, if_pos (by decide), spelled, String.ofList_toList]
  rw [decodeExtractRule, decode_marshal written (by decide)]
  rfl

/-- The numbers of the body survive: one is not whole, the other one is small. -/
theorem survives_mixedBody : NumbersSurvive plainGjson mixedBody mixedTree mixedRule := by
  have floats : ∀ literal ∈ numbers mixedTree, (throughFloat literal).isSome := by decide
  refine ⟨Option.isSome_of_eq_some decode_mixedBody,
    fun literal within => floats literal (mem_numbers_iff.mpr within), ?_⟩
  have integer : ∀ literal ∈ numbers (toMaps (.array [.number "12", .null])),
      floatLiteral literal = literal := by decide
  intro entry listed segments value parts selects
  have found := selects.follow
  rcases List.mem_cons.mp listed with rfl | listed
  · obtain rfl := Option.some.inj parts
    obtain rfl := Option.some.inj found
    exact fun isInteger => absurd isInteger (by decide)
  rcases List.mem_cons.mp listed with rfl | listed
  · obtain rfl := Option.some.inj parts
    obtain rfl := Option.some.inj found
    intro literal within
    rw [KeepsValue, integer literal (mem_numbers_iff.mpr within)]
  · obtain rfl := List.mem_singleton.mp listed
    obtain rfl := Option.some.inj parts
    obtain rfl := Option.some.inj found
    rintro literal ⟨⟩

/-- All three variables are the same with the script and without it. -/
theorem identity_is_transparent_iff_mixedBody :
    Transparent plainGjson unchanged "" "" "" mixedHook mixedBody mixedTree mixedRule :=
  (identity_is_transparent_iff getsValues_plainGjson (fun _ => rfl) (by decide) decode_mixedBody
    decodeExtractRule_mixedHook).mpr survives_mixedBody

/-! ### A large number -/

def numberHook : Webhook :=
  { extractRule := "\x7b\"n\":\"n\"\x7d", preScript := "function main(json) \x7b return json; \x7d" }

/-- The first whole number that is no float. -/
def largeTree : Json := .object [("n", .number "9007199254740993")]

/-- A whole number that no float is. -/
def largeBody : String := "\x7b\"n\":9007199254740993\x7d"

theorem decode_largeBody : decode maxNestingDepth largeBody = some largeTree := by
  have spelled : JsonText.text (escapeTree largeTree) = largeBody.toList := by decide
  have written : marshal largeTree = some largeBody := by
    rw [marshal, if_pos (by decide), spelled, String.ofList_toList]
  exact decode_marshal written (by decide)

theorem decodeExtractRule_numberHook :
    decodeExtractRule numberHook.extractRule = some [("n", "n")] := by
  have spelled : JsonText.text (escapeTree (.object [("n", .string "n")])) =
      numberHook.extractRule.toList := by decide
  have written : marshal (.object [("n", .string "n")]) = some numberHook.extractRule := by
    rw [marshal, if_pos (by decide), spelled, String.ofList_toList]
  rw [decodeExtractRule, decode_marshal written (by decide)]
  rfl

/-- The nearest float of the number is another whole number. -/
theorem not_keepsValue : ¬ KeepsValue "9007199254740993" := by
  have through : throughFloat "9007199254740993" = some "9007199254740992" := by decide
  have written : literalValue "9007199254740992" = 1 * (9007199254740992 : ℕ) * (10 : ℚ) ^ (0 : ℤ) :=
    rfl
  have read : literalValue "9007199254740993" = 1 * (9007199254740993 : ℕ) * (10 : ℚ) ^ (0 : ℤ) :=
    rfl
  rw [KeepsValue, floatLiteral, through, Option.getD_some, written, read]
  simp only [one_mul, zpow_zero, mul_one, Nat.cast_inj]
  decide

/-- The variable is another number with the script than without it. -/
theorem large_number_is_rounded : ¬ ∀ (gjson : Gjson) (interpret : Interpreter)
    (decodeError marshalError ruleError : String) (webhook : Webhook) (body : String) (limit : Nat)
    (tree : Json) (rule : List (String × String)), GetsValues gjson →
    (∀ input, interpret webhook.preScript input = .ok (some input, true)) →
    Text.trimSpace webhook.preScript ≠ "" → decode limit body = some tree →
    decodeExtractRule webhook.extractRule = some rule →
    (∀ entry ∈ rule, ∃ segments value, gjson.components entry.2 = some segments ∧
      Selects tree segments value) →
    Transparent gjson interpret decodeError marshalError ruleError webhook body tree rule := by
  intro always
  have single : Selects largeTree ["n"] (.number "9007199254740993") := .member rfl .here
  obtain ⟨off, on, disabled, enabled, each⟩ := always plainGjson unchanged "" "" "" numberHook largeBody
    maxNestingDepth _ [("n", "n")] getsValues_plainGjson (fun _ => rfl) (by decide)
    decode_largeBody decodeExtractRule_numberHook
    (by simpa using ⟨["n"], rfl, _, single⟩)
  obtain ⟨input, processed, read, written, rfl⟩ :=
    (extractVariables_on_iff (fun _ => rfl) (by decide) decodeExtractRule_numberHook).mp enabled
  obtain ⟨again, same, readBack⟩ := exists_marshal_of_unmarshal read
  obtain rfl : processed = again := Option.some.inj (written.symm.trans same)
  obtain ⟨tree, body, floats, rfl⟩ := unmarshal_eq_some_iff.mp read
  obtain rfl := decode_unique decode_largeBody body
  obtain ⟨without, within, first, second, same⟩ :=
    each ("n", "n") (List.mem_singleton_self _) ["n"] _ rfl single
  rw [extractVariables_off decodeExtractRule_numberHook] at disabled
  cases disabled
  obtain rfl := Option.some.inj first
  obtain rfl := Option.some.inj second
  have kept : ValueSurvives (.number "9007199254740993") :=
    (sameVariable_iff (single.numbersValid decode_largeBody)
      (fun literal inside => floats literal (inside.trans single.within))
      (getsValues_plainGjson decode_largeBody rfl single)
      (getsValues_plainGjson readBack rfl single.decoded)).mp same
  exact not_keepsValue (kept (by decide))

end MessagePusher.Template
