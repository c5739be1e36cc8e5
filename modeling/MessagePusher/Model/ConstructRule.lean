import MessagePusher.Common.Variables
import MessagePusher.Model.Message

/-!
# Construct rules

`model/webhook.go` up to the struct `Webhook`, and the custom keys of a message in
`model/message.go`. Extracted variables are a map, so a list with one entry for each key.
-/

namespace MessagePusher.Model

open Common JsonText

/-- The Go struct `WebhookConstructRule`; an absent key has the value `null`. -/
structure WebhookConstructRule where
  title : Json
  description : Json
  content : Json
  url : Json
  to_ : Json
  extra : List (String × Json)

/-- `WebhookConstructRuleString`. -/
def webhookConstructRuleString : Json → String
  | .null => ""
  | .string value => value
  | value => (marshal value).getD ""

/-- `sortedWebhookVariables`. -/
def sortedWebhookVariables (extracted : List (String × String)) : List (String × String) :=
  ((extracted.map Prod.fst).insertionSort NamesBefore).map fun key =>
    ("$" ++ key, (extracted.lookup key).getD "")

/-- The replacements in one string, one after the other. -/
def replaceInText (pairs : List (String × String)) (text : String) : String :=
  pairs.foldl (fun replaced pair => Text.replaceText replaced pair.1 pair.2) text

/-- `replaceWebhookVariables`: only the strings change, also below objects and arrays. -/
def replaceWebhookVariables (value : Json) (pairs : List (String × String)) : Json :=
  mapLeaves (replaceInText pairs) value

/-- The keys of a rule that are fields of the message. -/
def messageKeys : List String := ["title", "description", "content", "url", "to"]

/-- `RenderWebhookConstructRule`; `none` is an error of the decoder. -/
def renderWebhookConstructRule (constructRule : String) (extracted : List (String × String)) :
    Option WebhookConstructRule :=
  (decodeMap constructRule).map fun raw =>
    let pairs := sortedWebhookVariables extracted
    let field (key : String) := replaceWebhookVariables ((raw.lookup key).getD .null) pairs
    { title := field "title"
      description := field "description"
      content := field "content"
      url := field "url"
      to_ := field "to"
      extra := (raw.filter fun member => member.1 ∉ messageKeys).map fun member =>
        (member.1, replaceWebhookVariables member.2 pairs) }

/-- The text that `SetExtraVariables` stores, `none` for an error of `json.Marshal`. -/
def extraText (vars : List (String × Json)) : Option String :=
  if vars = [] then some "" else marshal (.object vars)

/-- `ExtraVariables`. -/
def Message.extraVariables (message : Message) : List (String × Json) :=
  if message.extra = "" then [] else (decodeMap message.extra).getD []

/-- The content of a rendered rule is a value as the decoder makes them. -/
theorem decoded_content {constructRule : String} {extracted : List (String × String)}
    {rule : WebhookConstructRule}
    (rendered : renderWebhookConstructRule constructRule extracted = some rule) :
    Decoded rule.content := by
  obtain ⟨raw, decoded, rfl⟩ := Option.map_eq_some_iff.mp rendered
  exact (decoded_of_decodeMap decoded "content").mapLeaves _

/-- What is neither a string nor `null` is encoded. -/
theorem webhookConstructRuleString_eq {value : Json} (noNull : value ≠ .null)
    (noString : ∀ text, value ≠ .string text) :
    webhookConstructRuleString value = (marshal value).getD "" := by
  unfold webhookConstructRuleString
  split
  · exact absurd rfl noNull
  · exact absurd rfl (noString _)
  · rfl

/-- The text of an object or an array denotes it. -/
theorem webhookConstructRuleString_spec {value : Json} (decoded : Decoded value)
    (noNull : value ≠ .null) (noString : ∀ text, value ≠ .string text) :
    decodeValue (webhookConstructRuleString value) = some value := by
  obtain ⟨text, written, -, denotes⟩ := decoded.marshal
  rw [webhookConstructRuleString_eq noNull noString, written, Option.getD_some, denotes]

end MessagePusher.Model
