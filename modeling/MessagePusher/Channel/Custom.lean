import MessagePusher.Channel.Senders
import MessagePusher.Model.ConstructRule

/-!
# Bodies of custom channels

`renderCustomMessageBody` of `channel/custom.go` with the template engine and the decoder of the
custom keys in the place of the library functions that the senders leave open.
-/

namespace MessagePusher.Channel

open Common Model JsonText

/-- The value that the engine sees. -/
def TemplateValue.toJson : TemplateValue → Json
  | text value => .string value
  | integer value => .number (Text.itoa value)
  | json value => value

/-- A library whose templates are rendered by `RenderTemplate`. -/
def Library.withTemplates (lib : Library) (isPrint : Char → Bool) : Library :=
  { lib with
    decodeVariables := decodeMap
    renderTemplate := fun template values =>
      Common.renderTemplate isPrint template (values.map fun entry => (entry.1, entry.2.toJson)) }

/-- The variables of `customTemplateVariables` as the engine sees them. -/
def customVariables (message : Message) : Variables :=
  (reservedVariables message).map (fun entry => (entry.1, entry.2.toJson)) ++
    message.extraVariables.filter fun entry => ((reservedVariables message).lookup entry.1).isNone

/-- `renderCustomMessageBody`. -/
def renderCustomMessageBody (isPrint : Char → Bool) (template : String) (message : Message) :
    String :=
  renderTemplate isPrint template (customVariables message)

theorem customTemplateVariables_withTemplates (lib : Library) (isPrint : Char → Bool)
    (message : Message) :
    (customTemplateVariables (lib.withTemplates isPrint) message).map
        (fun entry => (entry.1, entry.2.toJson)) = customVariables message := by
  rw [customTemplateVariables, customVariables, List.map_append, List.map_map]
  congr 1
  exact List.map_id _

/-- The body that the sender of custom channels posts. -/
theorem customMessage_body {lib : Library} {isPrint : Char → Bool} {readings : Readings}
    {message : Message} {channel : Model.Channel} {request : Outgoing}
    (sent : customMessage (lib.withTemplates isPrint) readings message channel = .ok request) :
    request = .custom channel.url (renderCustomMessageBody isPrint channel.other message) := by
  unfold customMessage at sent
  split_ifs at sent
  rw [← Except.ok.inj sent]
  show Outgoing.custom channel.url (Common.renderTemplate isPrint channel.other _) = _
  rw [customTemplateVariables_withTemplates]
  rfl

theorem lookup_content (message : Message) :
    (customVariables message).lookup "content" = some (.string message.content) := rfl

end MessagePusher.Channel
