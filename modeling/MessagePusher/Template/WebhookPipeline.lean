import MessagePusher.Channel.Custom
import MessagePusher.Controller.Webhook
import MessagePusher.Template.PathOccurrences

/-!
# From a construct rule to the body of a custom channel

A webhook substitutes its variables in the tree of a construct rule and stores the content as
JSON text. A template of a custom channel decodes that text again and walks along a path. The
three stages together lead to the value under the path in the substituted tree.
-/

namespace MessagePusher.Template

open Common Model Controller Channel JsonText

/-- The text that stands for a value in a template. -/
def Denotes (text : String) : Json → Prop
  | .null => text = ""
  | .string value => text = value
  | .number literal => text = literal
  | .bool value => text = if value then "true" else "false"
  | value => decode maxNestingDepth text = some value

theorem templateValueString_denotes {value : Json} (decoded : Decoded value) :
    ∃ text, templateValueString value = some text ∧ Denotes text value := by
  obtain ⟨text, written, denotes, -⟩ := decoded.marshal
  cases value with
  | null | bool | number | string => exact ⟨_, rfl, rfl⟩
  | array | object => exact ⟨text, written, denotes⟩

/-- What a template of a custom channel has after the `$` of a path into the content. -/
def contentPath (path : List String) (after : List Char) : List Char :=
  "content".toList ++ '.' :: (pathText path ++ after)

/-- The round at a path into the content writes the text of the value there. -/
theorem renderChars_contentPath {isPrint : Char → Bool} {message : Message} {content : Json}
    (decoded : Decoded content)
    (denotes : decodeValue message.content = some content) (fits : SlicesFit content)
    {path : List String} (some_ : path ≠ []) (segments : ∀ segment ∈ path, IsSegment segment)
    {found : Json} (leads : valueAt content path = some found) {after : List Char}
    (ends : ∀ char ∈ after.head?, isTemplatePathByte char = false)
    (longest : ∀ name ∈ (customVariables message).map Prod.fst,
      name.toList <+: contentPath path after → name.toList.length ≤ "content".toList.length) :
    ∃ text, Denotes text found ∧
      renderChars isPrint (customVariables message) ('$' :: contentPath path after) =
        escapeTemplateValue isPrint text.toList ++
          renderChars isPrint (customVariables message) after := by
  have inside := decoded.within (valueAt_within fits leads)
  obtain ⟨text, written, stands⟩ := templateValueString_denotes inside
  have named : templateName (customVariables message) (contentPath path after) =
      some "content" := by
    have listed : "content" ∈ (customVariables message).map Prod.fst := by
      obtain ⟨before, rest, whole, -⟩ := List.lookup_eq_some_iff.mp (lookup_content message)
      rw [whole, List.map_append, List.map_cons]
      exact List.mem_append_right _ (List.mem_cons_self)
    have fitting : "content".toList <+: contentPath path after :=
      ⟨'.' :: (pathText path ++ after), rfl⟩
    exact templateName_longest listed (by decide) fitting longest
  have resolved : resolveTemplatePath (.string message.content) path = some found := by
    cases path with
    | nil => exact absurd rfl some_
    | cons segment path =>
        obtain ⟨-, structured, -⟩ := valueAt_cons fits leads
        rw [resolveTemplatePath_text denotes structured]
        exact resolveTemplatePath_valueAt fits segments leads
  refine ⟨text, stands, ?_⟩
  have round : renderWrites (customVariables message) 0 ('$' :: contentPath path after) =
      .value text.toList :: renderWrites (customVariables message) 0 after :=
    @renderWrites_path _ "content" path after _ _ _ some_ segments ends named
      (lookup_content message) resolved written
  rw [Common.renderChars, round, List.flatMap_cons]
  rfl

/-- Only objects and arrays have values below them. -/
theorem content_denoted {content found : Json} (decoded : Decoded content) {path : List String}
    (some_ : path ≠ []) (leads : valueAt content path = some found) :
    decodeValue (webhookConstructRuleString content) = some content := by
  cases path with
  | nil => exact absurd rfl some_
  | cons segment path =>
      apply webhookConstructRuleString_spec decoded
      · rintro rfl
        cases leads
      · rintro text rfl
        cases leads

/-- A path into the content of a rendered rule is replaced by the value there, at every
occurrence that the loop arrives at. Without a `$` in a name it arrives at every one. -/
theorem content_path_is_rendered (isPrint : Char → Bool) {decodeError marshalError : String}
    {webhook : Webhook} {extracted : List (String × String)} {rule : WebhookConstructRule}
    {fields : RenderedRule} {message : Message}
    (rendered : renderWebhookConstructRule webhook.constructRule extracted = some rule)
    (fits : SlicesFit rule.content)
    (constructed : constructFields decodeError marshalError webhook extracted = .ok fields)
    (carried : message.content = fields.content)
    {path : List String} (some_ : path ≠ []) (segments : ∀ segment ∈ path, IsSegment segment)
    {found : Json} (leads : valueAt rule.content path = some found) {after : List Char}
    (ends : ∀ char ∈ after.head?, isTemplatePathByte char = false)
    (longest : ∀ name ∈ (customVariables message).map Prod.fst,
      name.toList <+: contentPath path after → name.toList.length ≤ "content".toList.length) :
    (∃ text, Denotes text found ∧
      ∀ template writes,
        Scan (customVariables message) template writes ('$' :: contentPath path after) →
        renderCustomMessageBody isPrint (String.ofList template) message =
          String.ofList (writes.flatMap (Write.written isPrint) ++
            (escapeTemplateValue isPrint text.toList ++
              renderChars isPrint (customVariables message) after))) ∧
      ((∀ name ∈ (customVariables message).map Prod.fst, '$' ∉ name.toList) →
        ∀ before, Scan (customVariables message) (before ++ '$' :: contentPath path after)
          (renderWrites (customVariables message) 0 before) ('$' :: contentPath path after)) := by
  have decoded := decoded_content rendered
  obtain ⟨same, again, content⟩ := constructFields_content constructed
  obtain rfl : rule = same := Option.some.inj (rendered.symm.trans again)
  have denotes : decodeValue message.content = some rule.content := by
    rw [carried, content]
    exact content_denoted decoded some_ leads
  constructor
  · obtain ⟨text, stands, round⟩ := @renderChars_contentPath isPrint message rule.content decoded
      denotes fits path some_ segments found leads after ends longest
    refine ⟨text, stands, fun template writes scan => ?_⟩
    rw [renderCustomMessageBody, renderTemplate, String.toList_ofList, scan.renderChars, round]
  · exact fun noDollar before => scan_append (boundary_dollar noDollar _) before

/-! ### A rule with a custom key that contains a `$`, and with an empty key -/

/-- A leaf in two places. -/
def sampleContent (leaf : String) : Json :=
  .object [("x", .string leaf), ("y", .object [("", .string leaf)])]

/-- A rule whose key looks like a variable. -/
def sampleTree : Json :=
  .object [("a$content", .string "b"), ("content", sampleContent "$v")]

/-- The member that is no field of a message. -/
def sampleExtra : Json := .object [("a$content", .string "b")]

/-- A webhook with that rule. -/
def sampleWebhook : Webhook where
  constructRule := String.ofList (text (escapeTree sampleTree))

def sampleRule : WebhookConstructRule where
  title := .null
  description := .null
  content := sampleContent "7"
  url := .null
  to_ := .null
  extra := [("a$content", .string "b")]

/-- The rule rendered with 7 for the leaf. -/
def sampleFields : RenderedRule where
  content := String.ofList (text (escapeTree (sampleContent "7")))
  extra := String.ofList (text (escapeTree sampleExtra))

/-- The message of these fields. -/
def sampleMessage : Message := sampleFields.message sampleWebhook

/-- The reserved variables of the message and the one of its other member. -/
def sampleVariables : Variables :=
  (reservedVariables sampleMessage).map (fun entry => (entry.1, entry.2.toJson)) ++
    [("a$content", .string "b")]

theorem keysSorted_pair {first second : String × Json} (before : first.1 < second.1) :
    KeysSorted [first, second] :=
  List.pairwise_pair.mpr before

theorem sampleContent_isMaps (leaf : String) : IsMaps (sampleContent leaf) := by
  have before : "x" < "y" := by decide
  refine IsMaps.object (keysSorted_pair before) ?_
  simp only [List.forall_mem_cons, List.not_mem_nil, false_implies, implies_true, and_true]
  refine ⟨isMaps_string _, IsMaps.object (List.pairwise_singleton _ _) ?_⟩
  simp [isMaps_string]

theorem sampleExtra_isMaps : IsMaps sampleExtra := by
  refine IsMaps.object (List.pairwise_singleton _ _) ?_
  simp [isMaps_string]

theorem sampleTree_isMaps : IsMaps sampleTree := by
  refine IsMaps.object (keysSorted_pair (by decide)) ?_
  simp [isMaps_string, sampleContent_isMaps]

theorem sample_rendered :
    renderWebhookConstructRule sampleWebhook.constructRule [("v", "7")] = some sampleRule := by
  have decoded : decodeValue sampleWebhook.constructRule = some sampleTree :=
    decodeValue_marshal (if_pos (by decide)) (by decide) sampleTree_isMaps
  have pairs : sortedWebhookVariables [("v", "7")] = [("$v", "7")] := by decide
  have leaf : replaceInText [("$v", "7")] "$v" = "7" := by decide
  have other : replaceInText [("$v", "7")] "b" = "b" := by decide
  rw [renderWebhookConstructRule, decodeMap, decoded, pairs]
  simp only [sampleTree, Option.map_some, Option.some.injEq]
  rw [sampleRule]
  simp [List.lookup_cons, replaceWebhookVariables, mapLeaves, mapLeafMembers, leaf, other, messageKeys,
    sampleContent]

theorem sample_constructed :
    constructFields "" "" sampleWebhook [("v", "7")] = .ok sampleFields := by
  rw [constructFields, sample_rendered]
  rfl

theorem sample_variables : customVariables sampleMessage = sampleVariables := by
  have decoded : decodeValue sampleMessage.extra = some sampleExtra :=
    decodeValue_marshal (if_pos (by decide)) (by decide) sampleExtra_isMaps
  have written : sampleMessage.extra ≠ "" := by decide
  have extra : sampleMessage.extraVariables = [("a$content", .string "b")] := by
    rw [Message.extraVariables, if_neg written, decodeMap, decoded]
    rfl
  rw [customVariables, extra]
  rfl

theorem sample_longest (path : List String) (after : List Char) :
    ∀ name ∈ (customVariables sampleMessage).map Prod.fst,
      name.toList <+: contentPath path after → name.toList.length ≤ "content".toList.length := by
  have others : (sampleVariables.map Prod.fst).all fun name =>
      name.toList.head? ≠ some 'c' || name.toList.length ≤ "content".toList.length := by decide
  rw [sample_variables]
  rintro name listed ⟨rest, same⟩
  have either := List.all_eq_true.mp others name listed
  cases chars : name.toList with
  | nil => exact Nat.zero_le _
  | cons first more =>
      rw [chars] at same either
      obtain rfl : first = 'c' := (List.cons.inj same).1
      simpa using either

theorem sample_slicesFit : SlicesFit sampleRule.content := by
  have leaf : SlicesFit (.string "7") := by
    rintro items ⟨⟩
  refine SlicesFit.object ?_
  simp only [List.forall_mem_cons, List.not_mem_nil, false_implies, implies_true, and_true]
  refine ⟨leaf, SlicesFit.object ?_⟩
  simp [leaf]

/-- The rendering at an occurrence that the loop arrives at. -/
theorem sample_path_is_rendered :
    (∃ text, Denotes text (.string "7") ∧
      ∀ template writes,
        Scan (customVariables sampleMessage) template writes ('$' :: contentPath ["x"] []) →
        renderCustomMessageBody (fun _ => true) (String.ofList template) sampleMessage =
          String.ofList (writes.flatMap (Write.written fun _ => true) ++
            (escapeTemplateValue (fun _ => true) text.toList ++
              renderChars (fun _ => true) (customVariables sampleMessage) []))) ∧
      ((∀ name ∈ (customVariables sampleMessage).map Prod.fst, '$' ∉ name.toList) →
        ∀ before, Scan (customVariables sampleMessage) (before ++ '$' :: contentPath ["x"] [])
          (renderWrites (customVariables sampleMessage) 0 before) ('$' :: contentPath ["x"] [])) := by
  have segment : ∀ part ∈ ["x"], IsSegment part := by
    intro part listed
    obtain rfl := List.mem_singleton.mp listed
    exact ⟨by decide, List.all_eq_true.mp (by decide)⟩
  exact content_path_is_rendered (fun _ => true) sample_rendered sample_slicesFit
    sample_constructed rfl (List.cons_ne_nil _ _) segment rfl (by simp) (sample_longest _ _)

/-- A placeholder of a longer name reaches into an occurrence, and an empty key ends a path. -/
theorem path_is_not_rendered :
    renderWebhookConstructRule sampleWebhook.constructRule [("v", "7")] = some sampleRule ∧
      constructFields "" "" sampleWebhook [("v", "7")] = .ok sampleFields ∧
      sampleMessage.content = sampleFields.content ∧
      (∀ part ∈ ["x", "y", ""], ∀ char ∈ part.toList, isTemplatePathStartByte char) ∧
      valueAt sampleRule.content ["x"] = some (.string "7") ∧
      valueAt sampleRule.content ["y", ""] = some (.string "7") ∧
      (∀ path after, ∀ name ∈ (customVariables sampleMessage).map Prod.fst,
        name.toList <+: contentPath path after →
          name.toList.length ≤ "content".toList.length) ∧
      ∀ text, Denotes text (.string "7") → ∀ before after,
        renderCustomMessageBody (fun _ => true)
            (String.ofList ("$a".toList ++ '$' :: contentPath ["x"] [])) sampleMessage ≠
          before ++ String.ofList (escapeTemplateValue (fun _ => true) text.toList) ++ after ∧
        renderCustomMessageBody (fun _ => true)
            (String.ofList ('$' :: contentPath ["y", ""] [])) sampleMessage ≠
          before ++ String.ofList (escapeTemplateValue (fun _ => true) text.toList) ++ after := by
  have missing : ∀ output before after : String, '7' ∉ output.toList → output ≠
      before ++ String.ofList (escapeTemplateValue (fun _ => true) "7".toList) ++ after := by
    rintro output before after absent rfl
    have seven : escapeTemplateValue (fun _ => true) "7".toList = ['7'] := by decide
    rw [seven, String.toList_append, String.toList_append, String.toList_ofList] at absent
    exact absent (by simp)
  have swallowed : renderCustomMessageBody (fun _ => true)
      (String.ofList ("$a".toList ++ '$' :: contentPath ["x"] [])) sampleMessage = "b.x" := by
    rw [renderCustomMessageBody, sample_variables]
    decide +kernel
  have kept : renderCustomMessageBody (fun _ => true)
      (String.ofList ('$' :: contentPath ["y", ""] [])) sampleMessage = "$content.y." := by
    rw [renderCustomMessageBody, sample_variables]
    decide +kernel
  have parts : ["x", "y", ""].all fun part => part.toList.all isTemplatePathStartByte := by decide
  refine ⟨sample_rendered, sample_constructed, rfl, ?_, rfl, rfl, sample_longest, ?_⟩
  · exact fun part listed => List.all_eq_true.mp (List.all_eq_true.mp parts part listed)
  rintro text rfl before after
  rw [swallowed, kept]
  exact ⟨missing _ _ _ (by decide), missing _ _ _ (by decide)⟩

end MessagePusher.Template
