import MessagePusher.Controller.Channel
import MessagePusher.Model.Webhook

/-!
# The webhook handlers

`AddWebhook`, `UpdateWebhook` and `DeleteWebhook` of `controller/webhook.go`.
-/

namespace MessagePusher.Controller

open Common Model Store Middleware

/-- The clock, the link that `GetUUID` draws, and the text of a binding error. -/
structure WebhookEnvironment where
  now : Int := 0
  uuid : String := ""
  bindError : Option Json → String := fun _ => ""

/-- What a webhook handler does. -/
structure WebhookHandled where
  webhooks : Webhooks
  reply : Reply Webhook

def refuseWebhook (webhooks : Webhooks) (message : String) : WebhookHandled :=
  { webhooks, reply := { message } }

/-- The webhook that `AddWebhook` inserts. -/
def addedWebhook (env : WebhookEnvironment) (userId : Int) (webhook : Webhook) : Webhook where
  userId := userId
  name := webhook.name
  status := webhookStatusEnabled
  link := env.uuid
  createdTime := env.now
  channel := webhook.channel
  extractRule := webhook.extractRule
  constructRule := webhook.constructRule
  preScriptEnabled := webhook.preScriptEnabled
  preScript := webhook.preScript

def addWebhook (env : WebhookEnvironment) (userId : Int) (body : Option Json)
    (webhooks : Webhooks) : WebhookHandled :=
  match Json.decodeInto Webhook.jsonFields body {} with
  | none => refuseWebhook webhooks (env.bindError body)
  | some webhook =>
      if byteLength webhook.name = 0 ∨ 20 < byteLength webhook.name then
        refuseWebhook webhooks "通道名称长度必须在1-20之间"
      else match (addedWebhook env userId webhook).insert webhooks with
        | (next, .error text) => refuseWebhook next text
        | (next, .ok _) => { webhooks := next, reply := { success := true } }

def deleteWebhook (userId : Int) (idParam : String) (webhooks : Webhooks) : WebhookHandled :=
  match deleteWebhookById webhooks (Text.parseInt idParam).1 userId with
  | (next, .error text) => refuseWebhook next text
  | (next, .ok _) => { webhooks := next, reply := { success := true } }

/-- The old webhook with the fields of the request. -/
def updatedWebhook (webhook oldWebhook : Webhook) : Webhook :=
  { oldWebhook with
    name := webhook.name
    extractRule := webhook.extractRule
    constructRule := webhook.constructRule
    channel := webhook.channel
    preScriptEnabled := webhook.preScriptEnabled
    preScript := webhook.preScript }

/-- The webhook that `UpdateWebhook` writes. -/
def cleanWebhook (statusOnly : String) (webhook oldWebhook : Webhook) : Webhook :=
  if statusOnly ≠ "" then { oldWebhook with status := webhook.status }
  else updatedWebhook webhook oldWebhook

def updateWebhook (env : WebhookEnvironment) (userId : Int) (statusOnly : String)
    (body : Option Json) (webhooks : Webhooks) : WebhookHandled :=
  match Json.decodeInto Webhook.jsonFields body {} with
  | none => refuseWebhook webhooks (env.bindError body)
  | some webhook =>
      match getWebhookById webhooks webhook.id userId with
      | .error text => refuseWebhook webhooks text
      | .ok oldWebhook =>
          let clean := cleanWebhook statusOnly webhook oldWebhook
          match clean.update webhooks with
          | (next, some text) => refuseWebhook next text
          | (next, none) => { webhooks := next, reply := { success := true, data := some clean } }

/-- What `AddWebhook` leaves of the table: all of it, or one new row under an admitted name. -/
theorem addWebhook_writes (env : WebhookEnvironment) (userId : Int) (body : Option Json)
    (webhooks : Webhooks) :
    (addWebhook env userId body webhooks).webhooks = webhooks ∨
      ∃ row : Webhook, 1 ≤ byteLength row.name ∧ byteLength row.name ≤ 20 ∧
        webhooks.Rewrites (addWebhook env userId body webhooks).webhooks row.id (some row) := by
  unfold addWebhook
  split
  · exact .inl rfl
  · next webhook decoded =>
    split_ifs with size
    · exact .inl rfl
    · have inserted := (addedWebhook env userId webhook).insert_cases webhooks
      cases result : (addedWebhook env userId webhook).insert webhooks with
      | mk next outcome =>
          rw [result] at inserted
          rcases inserted with same | ⟨stored, fields, writes⟩
          · left
            cases outcome <;> exact same
          · have name : stored.name = webhook.name := by rw [fields]; rfl
            refine .inr ⟨stored, by rw [name]; omega, by rw [name]; omega, ?_⟩
            cases outcome <;> exact writes

theorem deleteWebhook_subset (userId : Int) (idParam : String) (webhooks : Webhooks) :
    ∀ row ∈ (deleteWebhook userId idParam webhooks).webhooks.rows, row ∈ webhooks.rows := by
  have subset := deleteWebhookById_subset webhooks (Text.parseInt idParam).1 userId
  unfold deleteWebhook
  split
  · next deleted =>
    rw [deleted] at subset
    exact subset
  · next deleted =>
    rw [deleted] at subset
    exact subset

/-- A change of a webhook of the user writes its row. -/
theorem updateWebhook_writes {env : WebhookEnvironment} {userId : Int} {statusOnly : String}
    {body : Option Json} {webhooks : Webhooks} {webhook oldWebhook : Webhook}
    (decoded : Json.decodeInto Webhook.jsonFields body {} = some webhook)
    (loaded : getWebhookById webhooks webhook.id userId = .ok oldWebhook) :
    webhooks.Rewrites (updateWebhook env userId statusOnly body webhooks).webhooks oldWebhook.id
      (some (cleanWebhook statusOnly webhook oldWebhook)) := by
  obtain ⟨set, found, -⟩ := getWebhookById_ok loaded
  have sameId : (cleanWebhook statusOnly webhook oldWebhook).id = oldWebhook.id := by
    unfold cleanWebhook
    split_ifs <;> rfl
  have selected : (cleanWebhook statusOnly webhook oldWebhook).applySelected oldWebhook =
      cleanWebhook statusOnly webhook oldWebhook := by
    unfold cleanWebhook
    split_ifs <;> rfl
  rw [← sameId] at set found
  obtain ⟨next, accepted, writes⟩ := Webhook.update_rewrites set found selected
  unfold updateWebhook
  rw [decoded]
  dsimp only
  rw [loaded]
  dsimp only
  rw [accepted, ← sameId]
  exact writes

end MessagePusher.Controller
