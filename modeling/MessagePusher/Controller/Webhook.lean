import MessagePusher.Controller.Push
import MessagePusher.Model.Webhook
import MessagePusher.Model.ConstructRule

/-!
# Webhook triggers

`TriggerWebhook` of `controller/webhook.go`. The pre-script, the extraction and
the construct rule come in as `render`: it answers the fields of the message to
send, nothing when the script asked to skip, or a refusal. `renderWith` is that
function over what the pre-script and the extraction answer.
-/

namespace MessagePusher.Controller

open Common Model Store
open Channel (SendCall)

/-- The rendered construct rule: the fields of the message and its serialised custom keys. -/
structure RenderedRule where
  title : String := ""
  description : String := ""
  content : String := ""
  url : String := ""
  to_ : String := ""
  extra : String := ""
deriving DecidableEq

/-- The message that `TriggerWebhook` builds. -/
def RenderedRule.message (rule : RenderedRule) (webhook : Webhook) : Message where
  channel := webhook.channel
  title := rule.title
  description := rule.description
  content := rule.content
  url := rule.url
  to_ := rule.to_
  extra := rule.extra

/-- The part of `TriggerWebhook` from the extracted variables to the fields of the message. The
texts of the errors of the JSON package come in. -/
def constructFields (decodeError marshalError : String) (webhook : Webhook)
    (extracted : List (String × String)) : Except Response RenderedRule :=
  match renderWebhookConstructRule webhook.constructRule extracted with
  | none => .error { message := "Webhook 构建规则解析失败：" ++ decodeError }
  | some rule =>
      match extraText rule.extra with
      | none =>
          .error { message := "Webhook 构建规则中的自定义字段无法序列化：" ++ marshalError }
      | some extra =>
          .ok
            { title := webhookConstructRuleString rule.title
              description := webhookConstructRuleString rule.description
              content := webhookConstructRuleString rule.content
              url := webhookConstructRuleString rule.url
              to_ := webhookConstructRuleString rule.to_
              extra }

/-- The whole rendering. The pre-script and the extraction come in as `extract`, which answers the
variables, nothing when the script asked to skip, or a refusal. -/
def renderWith (decodeError marshalError : String)
    (extract : Webhook → String → Except Response (Option (List (String × String))))
    (webhook : Webhook) (body : String) : Except Response (Option RenderedRule) :=
  match extract webhook body with
  | .error refusal => .error refusal
  | .ok none => .ok none
  | .ok (some extracted) =>
      (constructFields decodeError marshalError webhook extracted).map some

theorem renderWith_fields {decodeError marshalError : String}
    {extract : Webhook → String → Except Response (Option (List (String × String)))}
    {webhook : Webhook} {body : String} {fields : RenderedRule}
    (rendered : renderWith decodeError marshalError extract webhook body = .ok (some fields)) :
    ∃ extracted, extract webhook body = .ok (some extracted) ∧
      constructFields decodeError marshalError webhook extracted = .ok fields := by
  unfold renderWith at rendered
  split at rendered
  · cases rendered
  · cases rendered
  · next extracted found =>
    cases constructed : constructFields decodeError marshalError webhook extracted with
    | error refusal =>
        rw [constructed] at rendered
        cases rendered
    | ok built =>
        rw [constructed] at rendered
        cases rendered
        exact ⟨extracted, found, constructed⟩

theorem constructFields_content {decodeError marshalError : String} {webhook : Webhook}
    {extracted : List (String × String)} {fields : RenderedRule}
    (constructed : constructFields decodeError marshalError webhook extracted = .ok fields) :
    ∃ rule, renderWebhookConstructRule webhook.constructRule extracted = some rule ∧
      fields.content = webhookConstructRuleString rule.content := by
  unfold constructFields at constructed
  split at constructed
  · cases constructed
  · next rule rendered =>
    split at constructed
    · cases constructed
    · cases constructed
      exact ⟨rule, rendered, rfl⟩

/-- What a webhook sends is not fenced: the rule sets no render mode. -/
theorem prepareMessage_content {env : Environment} {channels : Channels} {fields : RenderedRule}
    {webhook : Webhook} {user : User} {needAuth : Bool} {prepared : Message} {channel : Channel}
    (accepted : prepareMessage env channels (fields.message webhook) user needAuth =
      .ok (prepared, channel)) : prepared.content = fields.content := by
  obtain ⟨-, -, -, rfl⟩ := prepareMessage_ok_iff.mp accepted
  show renderedContent env (fields.message webhook) = fields.content
  have noMode : (fields.message webhook).renderMode = "" := rfl
  have noCode : ("" : String) ≠ "code" := by decide
  rw [renderedContent, noMode, if_neg fun both => noCode both.1]
  rfl

/-- The webhook and the user that a trigger acts for, or its refusal. -/
def webhookUser (env : Environment) (users : Users) (webhooks : Webhooks) (link : String) :
    Except Response (Webhook × User) := do
  let webhook ← (getWebhookByLink webhooks link).mapError fun _ =>
    { httpStatus := 404, message := "Webhook 不存在" }
  if webhook.status ≠ webhookStatusEnabled then
    .error { httpStatus := 403, message := "Webhook 未启用" }
  let missing : Response := { httpStatus := 404, message := "用户不存在" }
  let user ←
    if env.faults.readUser then .error missing
    else (getUserById users webhook.userId false).mapError fun _ => missing
  if user.status ≠ userStatusEnabled then
    .error { httpStatus := 403, message := "用户已被封禁" }
  return (webhook, user)

/-- A trigger acts for the owner of the webhook, loaded by id, who is enabled. -/
theorem webhookUser_ok {env : Environment} {users : Users} {webhooks : Webhooks} {link : String}
    {webhook : Webhook} {user : User}
    (admitted : webhookUser env users webhooks link = .ok (webhook, user)) :
    getUserById users webhook.userId false = .ok user ∧ user.status = userStatusEnabled := by
  unfold webhookUser at admitted
  cases found : getWebhookByLink webhooks link with
  | error text => simp [found, Except.mapError, bind, Except.bind] at admitted
  | ok row =>
      simp only [found, Except.mapError, bind, Except.bind, pure, Except.pure] at admitted
      split_ifs at admitted with off failing
      cases loaded : getUserById users row.userId false with
      | error text => simp [loaded] at admitted
      | ok owner =>
          simp only [loaded] at admitted
          split_ifs at admitted with disabled
          obtain ⟨rfl, rfl⟩ := Prod.mk.inj (Except.ok.inj admitted)
          exact ⟨loaded, not_not.mp disabled⟩

/-- `TriggerWebhook` on a body that could be read. -/
def triggerWebhook (env : Environment) (users : Users) (channels : Channels)
    (webhooks : Webhooks) (messages : Messages)
    (render : Webhook → String → Except Response (Option RenderedRule)) (link body : String) :
    Outcome × Response :=
  match webhookUser env users webhooks link with
  | .error refusal => ({ messages }, refusal)
  | .ok (webhook, user) =>
      match render webhook body with
      | .error refusal => ({ messages }, refusal)
      | .ok none =>
          ({ messages },
            { success := true, message := "前置脚本要求跳过发送（__msg_send__ = false）",
              skipped := true })
      | .ok (some rule) =>
          processMessage env channels messages (rule.message webhook) user false

/-- The same handler up to the call of `saveAndSendMessage`: the arguments of that call, or
the answer. -/
def admitTrigger (env : Environment) (users : Users) (channels : Channels) (webhooks : Webhooks)
    (render : Webhook → String → Except Response (Option RenderedRule)) (link body : String) :
    Except Response (User × Message × Channel) := do
  let (webhook, user) ← webhookUser env users webhooks link
  match ← render webhook body with
  | none =>
      .error
        { success := true, message := "前置脚本要求跳过发送（__msg_send__ = false）", skipped := true }
  | some rule =>
      let (message, channel) ← prepareMessage env channels (rule.message webhook) user false
      return (user, message, channel)

/-- A trigger is `saveAndSendMessage` on what was admitted, and nothing otherwise. -/
theorem triggerWebhook_eq (env : Environment) (users : Users) (channels : Channels)
    (webhooks : Webhooks) (messages : Messages)
    (render : Webhook → String → Except Response (Option RenderedRule)) (link body : String) :
    triggerWebhook env users channels webhooks messages render link body =
      match admitTrigger env users channels webhooks render link body with
      | .error answer => ({ messages }, answer)
      | .ok (user, message, channel) =>
          (saveAndSendMessage env user message channel messages,
            respond (saveAndSendMessage env user message channel messages)) := by
  unfold triggerWebhook admitTrigger processMessage
  cases webhookUser env users webhooks link with
  | error refusal => rfl
  | ok pair =>
      obtain ⟨webhook, user⟩ := pair
      cases rendered : render webhook body with
      | error refusal => simp [rendered, bind, Except.bind]
      | ok rule =>
          cases rule with
          | none => simp [rendered, bind, Except.bind]
          | some rule =>
              cases prepared : prepareMessage env channels (rule.message webhook) user false with
              | error refusal => simp [rendered, prepared, bind, Except.bind]
              | ok pair => simp [rendered, prepared, bind, Except.bind, pure, Except.pure]

/-- An admitted trigger is for the owner of the webhook, who is enabled. -/
theorem admitTrigger_ok {env : Environment} {users : Users} {channels : Channels}
    {webhooks : Webhooks} {render : Webhook → String → Except Response (Option RenderedRule)}
    {link body : String} {user : User} {message : Message} {channel : Channel}
    (admitted : admitTrigger env users channels webhooks render link body =
      .ok (user, message, channel)) :
    ∃ (webhook : Webhook) (rule : RenderedRule),
      webhookUser env users webhooks link = .ok (webhook, user) ∧
      prepareMessage env channels (rule.message webhook) user false = .ok (message, channel) := by
  unfold admitTrigger at admitted
  cases owned : webhookUser env users webhooks link with
  | error refusal => simp [owned, bind, Except.bind] at admitted
  | ok pair =>
      obtain ⟨webhook, owner⟩ := pair
      cases rendered : render webhook body with
      | error refusal => simp [owned, rendered, bind, Except.bind] at admitted
      | ok rule =>
          cases rule with
          | none => simp [owned, rendered, bind, Except.bind] at admitted
          | some rule =>
              cases prepared : prepareMessage env channels (rule.message webhook) owner false with
              | error refusal => simp [owned, rendered, prepared, bind, Except.bind] at admitted
              | ok pair =>
                  obtain ⟨sent, route⟩ := pair
                  simp only [owned, rendered, prepared, bind, Except.bind, pure, Except.pure,
                    Except.ok.injEq, Prod.mk.injEq] at admitted
                  obtain ⟨rfl, rfl, rfl⟩ := admitted
                  exact ⟨webhook, rule, rfl, prepared⟩

/-- The content that a trigger hands to `SendMessage` is the text of its rendered rule. -/
theorem triggerWebhook_content {env : Environment} {users : Users} {channels : Channels}
    {webhooks : Webhooks} {messages : Messages} {decodeError marshalError : String}
    {extract : Webhook → String → Except Response (Option (List (String × String)))}
    {link body : String} {call : SendCall}
    (handed : (triggerWebhook env users channels webhooks messages
      (renderWith decodeError marshalError extract) link body).1.handed = some call) :
    ∃ webhook extracted fields, extract webhook body = .ok (some extracted) ∧
      constructFields decodeError marshalError webhook extracted = .ok fields ∧
      call.message.content = fields.content := by
  unfold triggerWebhook at handed
  split at handed
  · cases handed
  · next webhook user admitted =>
    split at handed
    · cases handed
    · cases handed
    · next fields rendered =>
      obtain ⟨extracted, found, constructed⟩ := renderWith_fields rendered
      refine ⟨webhook, extracted, fields, found, constructed, ?_⟩
      unfold processMessage at handed
      split at handed
      · cases handed
      · next accepted =>
        rw [(saveAndSendMessage_handed handed).2.2.1, prepareMessage_content accepted]

end MessagePusher.Controller
