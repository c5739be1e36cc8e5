import MessagePusher.Template.Simultaneous

/-!
# The structure of a construct rule

Variables are replaced in the decoded tree of a rule, and only in its strings. What is encoded of
a field afterwards is decoded to the same tree again.
-/

namespace MessagePusher.Template

open Common Model JsonText

/-- The field of a rule under a key of the message. -/
def ruleField (rule : WebhookConstructRule) (key : String) : Json :=
  if key = "title" then rule.title
  else if key = "description" then rule.description
  else if key = "content" then rule.content
  else if key = "url" then rule.url
  else if key = "to" then rule.to_
  else .null

/-- The keys of the decoded rule are split between the fields and the custom keys, each of them
once, and below them only strings have changed. -/
structure KeepsStructure (raw : List (String × Json)) (rule : WebhookConstructRule) : Prop where
  distinct : (raw.map Prod.fst).Nodup
  fields : ∀ key ∈ messageKeys, SameStructure ((raw.lookup key).getD .null) (ruleField rule key)
  keys : rule.extra.map Prod.fst = (raw.map Prod.fst).filter (· ∉ messageKeys)
  values : ∀ member ∈ raw, member.1 ∉ messageKeys →
    ∃ value, rule.extra.lookup member.1 = some value ∧ SameStructure member.2 value

/-- The text of a field is JSON that is decoded to the field. -/
def TextDenotes (value : Json) : Prop :=
  decode maxNestingDepth (webhookConstructRuleString value) = some value

variable {constructRule : String} {extracted : List (String × String)}
  {rule : WebhookConstructRule} {raw : List (String × Json)}

theorem ruleField_ruleWith (change : String → String) (raw : List (String × Json)) :
    ∀ key ∈ messageKeys,
      ruleField (ruleWith change raw) key = mapLeaves change ((raw.lookup key).getD .null) := by
  simp only [messageKeys, List.forall_mem_cons, List.not_mem_nil, false_implies, implies_true,
    and_true]
  exact ⟨rfl, rfl, rfl, rfl, rfl⟩

theorem keys_nodup (sorted : KeysSorted raw) : (raw.map Prod.fst).Nodup :=
  List.pairwise_map.mpr (sorted.imp fun less => ne_of_lt less)

theorem keepsStructure_ruleWith (change : String → String) (sorted : KeysSorted raw) :
    KeepsStructure raw (ruleWith change raw) where
  distinct := keys_nodup sorted
  fields := by
    intro key listed
    rw [ruleField_ruleWith change raw key listed]
    exact sameStructure_mapLeaves change _
  keys := by
    show ((raw.filter _).map _).map Prod.fst = _
    rw [List.map_map, List.filter_map]
    rfl
  values := by
    intro member listed custom
    refine ⟨mapLeaves change member.2, ?_, sameStructure_mapLeaves change _⟩
    have kept : KeysSorted (ruleWith change raw).extra :=
      List.pairwise_map.mpr (sorted.filter _)
    have inside : (member.1, mapLeaves change member.2) ∈ (ruleWith change raw).extra :=
      List.mem_map_of_mem (List.mem_filter.mpr ⟨listed, decide_eq_true custom⟩)
    exact lookup_of_mem kept inside

/-- The fields of a rendered rule are values as the decoder makes them. -/
theorem decoded_ruleField (decoded : decodeMap constructRule = some raw) (change : String → String)
    {key : String} (listed : key ∈ messageKeys) : Decoded (ruleField (ruleWith change raw) key) := by
  rw [ruleField_ruleWith change raw key listed]
  exact (decoded_of_decodeMap decoded key).mapLeaves change

theorem textDenotes_of_decoded {value : Json} (decoded : Decoded value) (noNull : value ≠ .null)
    (noString : ∀ text, value ≠ .string text) : TextDenotes value := by
  obtain ⟨text, written, denotes, -⟩ := decoded.marshal
  rw [TextDenotes, webhookConstructRuleString_eq noNull noString, written, Option.getD_some, denotes]

/-- A rendered rule has the structure of its text, and the texts of its fields denote the fields
as far as these are no strings and not `null`. -/
theorem rendered_rule_keeps_structure
    (rendered : renderWebhookConstructRule constructRule extracted = some rule) :
    (∃ raw, decodeMap constructRule = some raw ∧ KeepsStructure raw rule) ∧
      ∀ key ∈ messageKeys, ruleField rule key ≠ .null →
        (∀ text, ruleField rule key ≠ .string text) → TextDenotes (ruleField rule key) := by
  rw [renderWebhookConstructRule_eq] at rendered
  obtain ⟨raw, decoded, rfl⟩ := Option.map_eq_some_iff.mp rendered
  refine ⟨⟨raw, decoded, keepsStructure_ruleWith _ (keysSorted_of_decodeMap decoded)⟩, ?_⟩
  intro key listed noNull noString
  exact textDenotes_of_decoded (decoded_ruleField decoded _ listed) noNull noString

/-! ### A rule without a title -/

def nullTree : Json := .object [("title", .null)]

def nullRule : String := String.ofList (JsonText.text (escapeTree nullTree))

theorem decodeMap_nullRule : decodeMap nullRule = some [("title", .null)] := by
  have maps : IsMaps nullTree := by
    refine IsMaps.object (List.pairwise_singleton _ _) ?_
    simp only [List.forall_mem_singleton]
    rintro members ⟨⟩
  have decoded : decodeValue nullRule = some nullTree :=
    decodeValue_marshal (if_pos (by decide)) (by decide) maps
  rw [decodeMap, decoded]
  rfl

theorem rendered_nullRule : renderWebhookConstructRule nullRule [] =
    some (ruleWith (replaceInText []) [("title", .null)]) := by
  rw [renderWebhookConstructRule_eq, decodeMap_nullRule]
  rfl

/-! ### A card with a value that looks like JSON -/

/-- The content of the card: an object with an array that has each kind of leaf. -/
def cardContent (text : String) : Json :=
  .object [("items", .array [.string text, .number "1", .bool true, .null])]

def cardTree : Json := .object [("card", .array [.string "$payload"]), ("content", cardContent "$payload")]

def cardRule : String := String.ofList (JsonText.text (escapeTree cardTree))

/-- It would close the string, the array and the object, and add a member. -/
def hostilePayload : String := "\"]\x7d,\"x\":\x7b\"y\":[\"\n"

theorem isMaps_cardTree : IsMaps cardTree := by
  have items : IsMaps (.array [.string "$payload", .number "1", .bool true, .null]) := by
    refine IsMaps.array ?_
    simp only [List.forall_mem_cons, List.not_mem_nil, false_implies, implies_true, and_true]
    exact ⟨isMaps_string _, by rintro members ⟨⟩, by rintro members ⟨⟩, by rintro members ⟨⟩⟩
  have card : IsMaps (.array [.string "$payload"]) :=
    IsMaps.array (List.forall_mem_singleton.mpr (isMaps_string _))
  have content : IsMaps (cardContent "$payload") :=
    IsMaps.object (List.pairwise_singleton _ _) (List.forall_mem_singleton.mpr items)
  exact IsMaps.object (List.pairwise_pair.mpr (by decide))
    (List.forall_mem_cons.mpr ⟨card, List.forall_mem_singleton.mpr content⟩)

theorem decodeMap_cardRule : decodeMap cardRule =
    some [("card", .array [.string "$payload"]), ("content", cardContent "$payload")] := by
  have decoded : decodeValue cardRule = some cardTree :=
    decodeValue_marshal (if_pos (by decide)) (by decide) isMaps_cardTree
  rw [decodeMap, decoded]
  rfl

/-- The card after rendering: the value stands in the strings, and nowhere else. -/
def renderedCard : WebhookConstructRule where
  title := .null
  description := .null
  content := cardContent hostilePayload
  url := .null
  to_ := .null
  extra := [("card", .array [.string hostilePayload])]

theorem rendered_cardRule :
    renderWebhookConstructRule cardRule [("payload", hostilePayload)] = some renderedCard := by
  have replaced : replaceInText (sortedWebhookVariables [("payload", hostilePayload)]) "$payload" =
      hostilePayload := by decide
  have content : mapLeaves (replaceInText (sortedWebhookVariables [("payload", hostilePayload)]))
      (cardContent "$payload") = cardContent hostilePayload := by
    simp only [cardContent, mapLeaves, mapLeafMembers, mapLeafItems, replaced]
  have card : mapLeaves (replaceInText (sortedWebhookVariables [("payload", hostilePayload)]))
      (.array [.string "$payload"]) = .array [.string hostilePayload] := by
    simp only [mapLeaves, mapLeafItems, replaced]
  rw [renderWebhookConstructRule_eq, decodeMap_cardRule, Option.map_some, renderedCard, ← content,
    ← card]
  rfl

theorem rendered_rule_keeps_structure_card :
    renderWebhookConstructRule cardRule [("payload", hostilePayload)] = some renderedCard ∧
      (∃ raw, decodeMap cardRule = some raw ∧ KeepsStructure raw renderedCard) ∧
      TextDenotes (cardContent hostilePayload) := by
  obtain ⟨kept, denotes⟩ := rendered_rule_keeps_structure rendered_cardRule
  exact ⟨rendered_cardRule, kept,
    denotes "content" (by decide) (by rintro ⟨⟩) (by rintro text ⟨⟩)⟩

/-- A title that is `null` becomes the empty text, which is no JSON. -/
theorem null_has_no_text :
    ¬ ∀ constructRule extracted rule, renderWebhookConstructRule constructRule extracted = some rule →
      (∃ raw, decodeMap constructRule = some raw ∧ KeepsStructure raw rule) ∧
        ∀ key ∈ messageKeys, (∀ text, ruleField rule key ≠ .string text) →
          TextDenotes (ruleField rule key) := by
  intro claimed
  have denotes := (claimed nullRule [] _ rendered_nullRule).2 "title" (by decide) (by rintro _ ⟨⟩)
  have nothing : decode maxNestingDepth "" = none := by decide
  rw [TextDenotes] at denotes
  cases nothing.symm.trans denotes

end MessagePusher.Template
