import MessagePusher.Channel.Custom
import MessagePusher.Controller.Webhook
import MessagePusher.Delivery.GroupProduct
import MessagePusher.Model.ExtraVariables
import MessagePusher.Store.Entries

/-!
# Custom variables from a rule to a template

The custom keys of a rule reach the template of a custom channel as they were rendered, also when
the message is sent from the table. The fields of the message keep their names.
-/

namespace MessagePusher.Delivery

open Channel Common Controller JsonText Model Store

variable {constructRule : String} {extracted : List (String × String)} {rule : WebhookConstructRule}

/-! ### Names -/

theorem customTemplateVariables_eq (lib : Library) (isPrint : Char → Bool) (message : Message) :
    customTemplateVariables (lib.withTemplates isPrint) message =
      reservedVariables message ++
        ((message.extraMap.getD []).filter fun entry =>
          ((reservedVariables message).lookup entry.1).isNone).map
            fun entry => (entry.1, .json entry.2) := by
  rw [← message.extraVariables_eq]
  rfl

/-- The keys of the map that `ExtraVariables` answers are distinct. -/
theorem extraMap_keys_nodup (message : Message) :
    ((message.extraMap.getD []).map Prod.fst).Nodup := by
  rw [Message.extraMap]
  split_ifs
  · exact List.nodup_nil
  · split
    · next members decoded =>
      rw [Option.getD_some, List.Nodup, List.pairwise_map]
      exact ((decoded_of_decodeValue decoded).maps members .self).imp fun before => ne_of_lt before
    · exact List.nodup_nil

theorem reservedNames_nodup (message : Message) :
    ((reservedVariables message).map Prod.fst).Nodup := by
  show ["id", "title", "description", "content", "url", "to", "link", "channel", "timestamp",
    "render_mode", "msg_type"].Nodup
  decide

/-- The fields of the message under the reserved names, the custom keys under all others, and each
name once. -/
structure FieldsFirst (message : Message) (vars : List (String × TemplateValue)) : Prop where
  distinct : (vars.map Prod.fst).Nodup
  fields : ∀ entry ∈ reservedVariables message, vars.lookup entry.1 = some entry.2
  custom : ∀ name ∉ (reservedVariables message).map Prod.fst,
    vars.lookup name = ((message.extraMap.getD []).lookup name).map .json

/-- Whatever a message has stored as its custom keys, the fields go first. -/
theorem fieldsFirst_customTemplateVariables (lib : Library) (isPrint : Char → Bool)
    (message : Message) :
    FieldsFirst message (customTemplateVariables (lib.withTemplates isPrint) message) := by
  have reserved := reservedNames_nodup message
  have unreserved : ∀ name, ((reservedVariables message).lookup name).isNone ↔
      name ∉ (reservedVariables message).map Prod.fst := by
    intro name
    rw [Option.isNone_iff_eq_none, List.lookup_eq_none_iff, List.mem_map, not_exists]
    simp only [bne_iff_ne, not_and]
    exact forall_congr' fun entry => imp_congr_right fun _ => ne_comm
  rw [customTemplateVariables_eq]
  refine ⟨?_, ?_, ?_⟩
  · rw [List.map_append, List.map_map, List.nodup_append]
    refine ⟨reserved, ?_, ?_⟩
    · exact (extraMap_keys_nodup message).sublist (List.filter_sublist.map Prod.fst)
    · rintro name listed _ custom rfl
      obtain ⟨entry, kept, rfl⟩ := List.mem_map.mp custom
      exact (unreserved entry.1).mp (List.mem_filter.mp kept).2 listed
  · intro entry listed
    rw [List.lookup_append, Entries.lookup_of_mem reserved listed]
    rfl
  · intro name free
    have absent := (unreserved name).mpr free
    rw [List.lookup_append, Option.isNone_iff_eq_none.mp absent, Option.none_or,
      Entries.lookup_map _ fun _ value => TemplateValue.json value,
      Entries.lookup_filter_key _ fun name => ((reservedVariables message).lookup name).isNone,
      if_pos absent]

/-! ### Storage -/

/-- A status has no place in a template. -/
theorem customTemplateVariables_ofRow (lib : Library) (message : Message) (status : Int) :
    customTemplateVariables lib (Message.ofRow (message.toRow.setStatus status)) =
      customTemplateVariables lib message := rfl

theorem extraMap_ofRow (message : Message) (status : Int) :
    (Message.ofRow (message.toRow.setStatus status)).extraMap = message.extraMap := rfl

/-- The message that `TriggerWebhook` builds has the custom keys of the rendered rule. -/
theorem extraMap_constructFields {decodeError marshalError : String} {webhook : Webhook}
    {fields : RenderedRule}
    (constructed : constructFields decodeError marshalError webhook extracted = .ok fields) :
    ∃ rule, renderWebhookConstructRule webhook.constructRule extracted = some rule ∧
      (fields.message webhook).extraMap = extraOf rule.extra := by
  unfold constructFields at constructed
  split at constructed
  · cases constructed
  · next rule rendered =>
    obtain ⟨text, written, readBack⟩ := extraMap_extraText (decoded_extra rendered)
    rw [written] at constructed
    cases constructed
    exact ⟨rule, rendered, readBack _ rfl⟩

/-- The custom keys survive storage and resending, and the fields keep their names. -/
theorem custom_variables_survive
    (rendered : renderWebhookConstructRule constructRule extracted = some rule) (message : Message) :
    ∃ attached, message.setExtraVariables rule.extra = some attached ∧
      attached.extraMap = extraOf rule.extra ∧
      (∀ (userId now : Int) (failure : Option String) (messages next : Messages) (stored : Message)
          (writes : List MessageWrite),
        attached.updateAndInsert userId now failure messages = (stored, next, none) →
        (∀ write ∈ writes, ¬ write.Deletes stored.id) →
        ∃ loaded, getMessageById (writes.foldl MessageWrite.run next) stored.id = .ok loaded ∧
          loaded.extraMap = extraOf rule.extra ∧
          ∀ lib : Library, customTemplateVariables lib loaded = customTemplateVariables lib stored) ∧
      ∀ (sent : Message) (lib : Library) (isPrint : Char → Bool),
        FieldsFirst sent (customTemplateVariables (lib.withTemplates isPrint) sent) := by
  obtain ⟨text, written, readBack⟩ := extraMap_extraText (decoded_extra rendered)
  refine ⟨{ message with extra := text }, ?_, readBack _ rfl, ?_, fun sent lib isPrint =>
    fieldsFirst_customTemplateVariables lib isPrint sent⟩
  · rw [Message.setExtraVariables, written]
    rfl
  intro userId now failure messages next stored writes inserted kept
  obtain ⟨status, loaded⟩ := getMessageById_writes writes inserted kept
  refine ⟨_, loaded, ?_, fun lib => customTemplateVariables_ofRow lib stored status⟩
  rw [extraMap_ofRow]
  exact readBack stored (extra_updateAndInsert inserted)

/-- A rule with a number that is no float under a custom key, and a title. -/
def numberTree : Json :=
  .object [("n", .number "1234567890123456789"), ("title", .string "t")]

def numberRule : String := String.ofList (JsonText.text (escapeTree numberTree))

theorem rendered_numberRule : ∃ rule, renderWebhookConstructRule numberRule [] = some rule ∧
    rule.extra = [("n", .number "1234567890123456789")] := by
  have maps : IsMaps numberTree := by
    refine .object (List.pairwise_pair.mpr (by decide)) ?_
    simp only [List.forall_mem_cons, List.not_mem_nil, false_implies, implies_true, and_true]
    exact ⟨by rintro _ ⟨⟩, isMaps_string "t"⟩
  have decoded : decodeValue numberRule = some numberTree :=
    decodeValue_marshal (if_pos (by decide)) (by decide) maps
  rw [renderWebhookConstructRule, decodeMap, decoded]
  exact ⟨_, rfl, rfl⟩

theorem custom_variables_survive_number :
    ∃ attached, ({} : Message).setExtraVariables [("n", .number "1234567890123456789")] =
        some attached ∧ attached.extraMap = some [("n", .number "1234567890123456789")] := by
  obtain ⟨rule, rendered, extra⟩ := rendered_numberRule
  obtain ⟨attached, done, readBack, -⟩ := custom_variables_survive rendered {}
  rw [extra] at done readBack
  exact ⟨attached, done, readBack⟩

end MessagePusher.Delivery
