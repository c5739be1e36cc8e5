import MessagePusher.JsonText.Leading
import MessagePusher.Model.ConstructRule

/-!
# Which texts are construct rules

`RenderWebhookConstructRule` takes what it decodes from the beginning of the text. A text is a rule
when all of it, up to white space, is one JSON document that is an object or `null`.
-/

namespace MessagePusher.Model

open Common JsonText

/-- What decodes into a map. -/
def IsRule (value : Json) : Prop := value = .null ∨ ∃ members, value = .object members

/-- The text is one document, an object or `null`, however deeply it is nested. -/
def IsRuleDocument (text : String) : Prop :=
  ∃ limit value, decode limit text = some value ∧ IsRule value

/-- Only white space follows where the text begins with such a document. -/
def NothingFollows (text : String) : Prop :=
  ∀ before rest value, text.toList = before ++ rest →
    decode maxNestingDepth (String.ofList before) = some value → IsRule value →
      ∀ char ∈ rest, isWhitespace char

/-- Such a document is not nested more deeply than the decoder goes. -/
def NotTooDeep (text : String) : Prop :=
  ∀ limit value, decode limit text = some value → IsRule value → depth value ≤ maxNestingDepth

theorem IsRule.noNumber {value : Json} (rule : IsRule value) (literal : String) :
    value ≠ .number literal := by
  rintro rfl
  rcases rule with same | ⟨_, same⟩
  · cases same
  · cases same

theorem isRule_toMaps {value : Json} : IsRule (toMaps value) ↔ IsRule value := by
  cases value with
  | _ => simp [IsRule, toMaps]

theorem decodeMap_isSome_iff {text : String} :
    (decodeMap text).isSome ↔ ∃ value, decodeLeading maxNestingDepth text = some value ∧
      IsRule value := by
  have maps : (decodeMap text).isSome ↔ ∃ value, decodeValue text = some value ∧ IsRule value := by
    unfold decodeMap
    split
    · next members whole => exact iff_of_true rfl ⟨_, whole, .inr ⟨members, rfl⟩⟩
    · next whole => exact iff_of_true rfl ⟨_, whole, .inl rfl⟩
    · next noObject noNull =>
      refine iff_of_false Bool.false_ne_true ?_
      rintro ⟨value, whole, rfl | ⟨members, rfl⟩⟩
      · exact noNull whole
      · exact noObject members whole
  rw [maps, decodeValue]
  constructor
  · rintro ⟨_, found, rule⟩
    obtain ⟨value, leading, rfl⟩ := Option.map_eq_some_iff.mp found
    exact ⟨value, leading, isRule_toMaps.mp rule⟩
  · rintro ⟨value, leading, rule⟩
    exact ⟨toMaps value, by rw [leading]; rfl, isRule_toMaps.mpr rule⟩

/-- A rule is rendered exactly if its text begins with a document that can be one. -/
theorem renderWebhookConstructRule_isSome_iff (constructRule : String)
    (extracted : List (String × String)) :
    (renderWebhookConstructRule constructRule extracted).isSome ↔
      ∃ before rest value, constructRule.toList = before ++ rest ∧
        decode maxNestingDepth (String.ofList before) = some value ∧ IsRule value := by
  rw [renderWebhookConstructRule, Option.isSome_map, decodeMap_isSome_iff]
  constructor
  · rintro ⟨value, leading, rule⟩
    obtain ⟨before, rest, split, decoded⟩ := (decodeLeading_iff rule.noNumber).mp leading
    exact ⟨before, rest, value, split, decoded, rule⟩
  · rintro ⟨before, rest, value, split, decoded, rule⟩
    exact ⟨value, (decodeLeading_iff rule.noNumber).mpr ⟨before, rest, split, decoded⟩, rule⟩

/-- Rules are accepted just as they should be exactly where nothing follows a document and none is
nested too deeply. -/
theorem construct_rule_accepted_iff (constructRule : String) (extracted : List (String × String)) :
    ((renderWebhookConstructRule constructRule extracted).isSome ↔ IsRuleDocument constructRule) ↔
      NothingFollows constructRule ∧ NotTooDeep constructRule := by
  rw [renderWebhookConstructRule_isSome_iff]
  constructor
  · intro accepted
    constructor
    · intro before rest value split decoded rule
      obtain ⟨limit, found, whole, -⟩ := accepted.mp ⟨before, rest, value, split, decoded, rule⟩
      have deeper := decode_mono (Nat.le_max_left maxNestingDepth limit) decoded
      have also := decode_mono (Nat.le_max_right maxNestingDepth limit) whole
      exact ((decode_append_iff split deeper rule.noNumber).mp also).1
    · intro limit value whole rule
      obtain ⟨before, rest, found, split, decoded, also⟩ := accepted.mpr ⟨limit, value, whole, rule⟩
      have deeper := decode_mono (Nat.le_max_left maxNestingDepth limit) decoded
      obtain ⟨-, rfl⟩ := (decode_append_iff split deeper also.noNumber).mp
        (decode_mono (Nat.le_max_right maxNestingDepth limit) whole)
      exact depth_of_decode decoded
  · rintro ⟨nothing, shallow⟩
    constructor
    · rintro ⟨before, rest, value, split, decoded, rule⟩
      have blank := nothing before rest value split decoded rule
      exact ⟨maxNestingDepth, value,
        (decode_append_iff split decoded rule.noNumber).mpr ⟨blank, rfl⟩, rule⟩
    · rintro ⟨limit, value, whole, rule⟩
      have decoded := decode_of_depth whole (shallow limit value whole rule)
      refine ⟨constructRule.toList, [], value, (List.append_nil _).symm, ?_, rule⟩
      rwa [String.ofList_toList]

/-- A word after the object is dropped. -/
theorem trailing_word_accepted :
    ¬ ((renderWebhookConstructRule "\x7b\x7d x" []).isSome ↔ IsRuleDocument "\x7b\x7d x") := by
  have rendered : (renderWebhookConstructRule "\x7b\x7d x" []).isSome = true := by decide
  rintro ⟨accepted, -⟩
  obtain ⟨limit, value, decoded, -⟩ := accepted rendered
  obtain ⟨tree, found, -⟩ := Option.map_eq_some_iff.mp decoded
  have bad : .bad ∈ lex "\x7b\x7d x".toList := by decide
  exact not_bad_of_parseTree (checked_eq_some_iff.mp found).1 bad

end MessagePusher.Model
