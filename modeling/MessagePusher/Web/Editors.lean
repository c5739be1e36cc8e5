import MessagePusher.Controller.Reads
import MessagePusher.Controller.WebhookRows
import MessagePusher.Semantics.Fallible
import MessagePusher.Web.EditMessage

/-!
# The editors of channels and webhooks

`web/src/pages/Channel/EditChannel.jsx` and `web/src/pages/Webhook/EditWebhook.jsx`: the page puts
the row that the server answers into its form, and `submit` sends the form back. What is between the
two rewrites some texts, so that a row that is opened and saved may come out changed.
-/

namespace MessagePusher.Web

open Common Model Store Controller Semantics.Fallible

/-- A number that the page got in an answer reaches the server as it was. -/
def Browser.Keeps (browser : Browser) (number : Int) : Prop :=
  Text.parseInt (browser.numberText number) = (number, true)

instance (browser : Browser) (number : Int) : Decidable (browser.Keeps number) :=
  inferInstanceAs (Decidable (_ = _))

/-- Whether `JSON.parse` reads a text, `verifyJSON`. -/
def verifyJSON (text : String) : Bool := (jsonParse text).isSome

/-! ### The channel editor -/

/-- The form: the data of the answer, and two more inputs for `corp_app`, which may be undefined. -/
structure ChannelForm where
  inputs : Channel
  corpId : Option String := none
  agentId : Option String := none

/-- `loadChannel`. -/
def loadChannel (data : Channel) : ChannelForm :=
  if data.type = typeWeChatCorpAccount then
    let parts := Text.split data.appId '|'
    { inputs := data, corpId := parts[0]?, agentId := parts[1]? }
  else { inputs := data }

/-- An input in a template literal. -/
def templateText (input : Option String) : String := input.getD "undefined"

namespace ChannelForm

variable (browser : Browser) (form : ChannelForm)

/-- What `submit` makes of the inputs, or the error that it shows. -/
def localInputs : Except String Channel :=
  let inputs := form.inputs
  if inputs.type = typeWeChatCorpAccount then
    .ok { inputs with appId := templateText form.corpId ++ "|" ++ templateText form.agentId }
  else if inputs.type = typeBark then
    .ok { inputs with url := if inputs.url = "" then "https://api.day.app" else inputs.url }
  else if inputs.type = typeOneBot then
    .ok { inputs with
      url := if inputs.url.toList.getLast? = some '/' then String.ofList inputs.url.toList.dropLast
        else inputs.url }
  else if inputs.type = typeGroup then
    let channels := Text.split inputs.appId '|'
    let targets := Text.split inputs.accountId '|'
    if inputs.accountId = "" then
      .ok { inputs with accountId := String.ofList (List.replicate (channels.length - 1) '|') }
    else if channels.length ≠ targets.length then
      .error "群组通道的子通道数量与目标数量不匹配，对于不需要指定的目标请直接留空"
    else .ok inputs
  else if inputs.type = typeCustom ∧ verifyJSON inputs.other = false then
    .error ("JSON 格式错误：" ++ browser.parseError inputs.other)
  else .ok inputs

/-- The inputs that are no column of a channel. -/
def others : List (String × Json) :=
  (form.corpId.toList.map fun text => ("corp_id", .string text)) ++
    form.agentId.toList.map fun text => ("agent_id", .string text)

/-- The data of the request, with the id of the path. -/
def data (id : Int) (channel : Channel) : Json :=
  .object ([
    ("id", .number (browser.numberText id)), ("type", .string channel.type),
    ("user_id", .number (browser.numberText channel.userId)), ("name", .string channel.name),
    ("description", .string channel.description),
    ("status", .number (browser.numberText channel.status)), ("secret", .string channel.secret),
    ("app_id", .string channel.appId), ("account_id", .string channel.accountId),
    ("url", .string channel.url), ("other", .string channel.other),
    ("created_time", .number (browser.numberText channel.createdTime)),
    ("token", (channel.token.map Json.string).getD .null) ] ++ form.others)

/-- `submit` of a form that was opened: the data of `PUT /api/channel/`. Without a name it returns
at once. -/
def submit (id : Int) : Except String (Option Json) :=
  if form.inputs.name = "" then .ok none
  else (form.localInputs browser).map fun channel => some (form.data browser id channel)

end ChannelForm

/-- The table after a channel was opened and saved as it was. -/
def resaveChannel (browser : Browser) (env : ChannelEnvironment) (userId : Int) (idParam : String)
    (channels : Channels) : Channels :=
  match (getChannel channels userId idParam).data with
  | some (.channel data) =>
      match (loadChannel data).submit browser (Text.parseInt idParam).1 with
      | .ok (some body) => (updateChannel env userId "" (some body) channels).channels
      | _ => channels
  | _ => channels

/-- The texts of a channel that `submit` leaves alone. -/
structure KeepsTexts (channel : Channel) : Prop where
  corpApp : channel.type = typeWeChatCorpAccount → channel.appId.toList.count '|' = 1
  bark : channel.type = typeBark → channel.url ≠ ""
  oneBot : channel.type = typeOneBot → channel.url.toList.getLast? ≠ some '/'
  group : channel.type = typeGroup → channel.accountId = "" → '|' ∉ channel.appId.toList

variable {browser : Browser} {form : ChannelForm} {channel row : Channel} {id userId : Int}

theorem decodeInto_others (target : Channel) :
    form.others.foldlM (fun target member =>
      Json.decodeMember Channel.jsonFields member target) target = some target := by
  have ignored : ∀ name, name = "corp_id" ∨ name = "agent_id" →
      Json.fieldFor Channel.jsonFields name = none := by
    rintro name (rfl | rfl) <;> decide
  have each : ∀ member ∈ form.others, ∀ target,
      Json.decodeMember Channel.jsonFields member target = some target := by
    intro member known target
    have named : member.1 = "corp_id" ∨ member.1 = "agent_id" := by
      simp only [ChannelForm.others, List.mem_append, List.mem_map] at known
      rcases known with ⟨text, _, rfl⟩ | ⟨text, _, rfl⟩ <;> simp
    rw [Json.decodeMember, ignored _ named]
  generalize form.others = members at each
  induction members with
  | nil => rfl
  | cons member rest ih =>
      rw [List.foldlM_cons, each member List.mem_cons_self]
      exact ih fun other later => each other (List.mem_cons_of_mem _ later)

/-- The server reads the channel that the page sends. -/
theorem decodeInto_data (keeps : browser.Keeps id ∧ browser.Keeps channel.userId ∧
    browser.Keeps channel.status ∧ browser.Keeps channel.createdTime) :
    Json.decodeInto Channel.jsonFields (some (form.data browser id channel)) {} =
      some { channel with id } := by
  obtain ⟨key, owner, status, created⟩ := keeps
  unfold Browser.Keeps at key owner status created
  unfold ChannelForm.data Json.decodeInto
  dsimp only
  rw [List.foldlM_append]
  refine Option.bind_eq_some_iff.mpr ⟨{ channel with id }, ?_, decodeInto_others _⟩
  simp only [Json.decodeMember, Json.fieldFor, Channel.jsonFields, Json.stringField, Json.intField,
    Json.optionalStringField, List.find?, List.foldlM_cons, List.foldlM_nil, decide_true,
    decide_false, String.reduceEq, Option.some_or, key, owner, status, created, if_true]
  cases channel.token <;> simp

/-- The two parts that the form takes of a text, put together again. -/
def rejoined (text : String) : String :=
  templateText (Text.split text '|')[0]? ++ "|" ++ templateText (Text.split text '|')[1]?

theorem rejoined_eq_iff (text : String) : rejoined text = text ↔ text.toList.count '|' = 1 := by
  have bar : ∀ {part : List Char}, '|' ∉ part → part.count '|' = 0 := List.count_eq_zero.mpr
  have chars : rejoined text = text ↔ (rejoined text).toList = text.toList :=
    String.toList_inj.symm
  rw [chars]
  unfold rejoined Text.split
  simp only [String.toList_append]
  generalize text.toList = chars
  by_cases first : '|' ∈ chars
  · obtain ⟨front, rest, rfl, before⟩ := List.eq_append_cons_of_mem first
    rw [List.splitOn_append_cons_self_of_not_mem before]
    by_cases second : '|' ∈ rest
    · obtain ⟨middle, last, rfl, between⟩ := List.eq_append_cons_of_mem second
      rw [List.splitOn_append_cons_self_of_not_mem between]
      simp [templateText, bar before, bar between]
    · rw [List.splitOn_eq_singleton second]
      simp [templateText, bar before, bar second]
  · rw [List.splitOn_eq_singleton first]
    simp [templateText, bar first]

theorem loadChannel_inputs (data : Channel) : (loadChannel data).inputs = data := by
  unfold loadChannel
  split_ifs <;> rfl

/-- The one text that `submit` touches, by the type of the channel. -/
theorem keepsTexts_iff {data : Channel} : KeepsTexts data ↔
    if data.type = typeWeChatCorpAccount then data.appId.toList.count '|' = 1
    else if data.type = typeBark then data.url ≠ ""
    else if data.type = typeOneBot then data.url.toList.getLast? ≠ some '/'
    else data.type = typeGroup → data.accountId = "" → '|' ∉ data.appId.toList := by
  have apart : typeBark ≠ typeWeChatCorpAccount ∧ typeOneBot ≠ typeWeChatCorpAccount ∧
      typeGroup ≠ typeWeChatCorpAccount ∧ typeOneBot ≠ typeBark ∧ typeGroup ≠ typeBark ∧
      typeGroup ≠ typeOneBot := by decide
  obtain ⟨one, two, three, four, five, six⟩ := apart
  constructor
  · intro keeps
    split_ifs with corpApp bark oneBot
    · exact keeps.corpApp corpApp
    · exact keeps.bark bark
    · exact keeps.oneBot oneBot
    · exact keeps.group
  · intro keeps
    refine ⟨fun is => ?_, fun is => ?_, fun is => ?_, fun is => ?_⟩ <;> simp_all

theorem with_appId_iff (channel : Channel) (text : String) :
    { channel with appId := text } = channel ↔ text = channel.appId := by
  cases channel
  simp

theorem with_accountId_iff (channel : Channel) (text : String) :
    { channel with accountId := text } = channel ↔ text = channel.accountId := by
  cases channel
  simp

theorem with_url_iff (channel : Channel) (text : String) :
    { channel with url := text } = channel ↔ text = channel.url := by
  cases channel
  simp

/-- The account of a group gets a separator for each sub-channel but the first. -/
theorem separators_eq_iff (text : String) :
    String.ofList (List.replicate ((Text.split text '|').length - 1) '|') = "" ↔
      '|' ∉ text.toList := by
  rw [String.ofList_eq_empty_iff, List.replicate_eq_nil_iff, Text.split, List.length_map]
  by_cases bar : '|' ∈ text.toList
  · obtain ⟨front, rest, chars, before⟩ := List.eq_append_cons_of_mem bar
    have some_ := List.length_pos_iff.mpr (List.splitOn_ne_nil '|' rest)
    rw [chars, List.splitOn_append_cons_self_of_not_mem before, List.length_cons]
    simp only [List.mem_append, List.mem_cons, true_or, or_true, not_true_eq_false, iff_false]
    omega
  · rw [List.splitOn_eq_singleton bar]
    simp [bar]

/-- What `submit` sends of a channel that was opened, where it sends it. -/
theorem localInputs_loadChannel {data sent : Channel}
    (sends : (loadChannel data).localInputs browser = .ok sent) :
    (sent = data ↔ KeepsTexts data) ∧
      sent = { data with appId := sent.appId, accountId := sent.accountId, url := sent.url } := by
  have inputs := loadChannel_inputs data
  rw [keepsTexts_iff]
  unfold ChannelForm.localInputs at sends
  dsimp only at sends
  rw [inputs] at sends
  by_cases corpApp : data.type = typeWeChatCorpAccount
  · have loaded : loadChannel data = ⟨data, (Text.split data.appId '|')[0]?,
        (Text.split data.appId '|')[1]?⟩ := if_pos corpApp
    rw [if_pos corpApp, loaded] at sends
    rw [if_pos corpApp]
    cases sends
    exact ⟨(with_appId_iff data _).trans (rejoined_eq_iff data.appId), rfl⟩
  rw [if_neg corpApp] at sends ⊢
  by_cases bark : data.type = typeBark
  · rw [if_pos bark] at sends ⊢
    cases sends
    refine ⟨(with_url_iff data _).trans ?_, rfl⟩
    by_cases blank : data.url = "" <;> simp [blank]
  rw [if_neg bark] at sends ⊢
  by_cases oneBot : data.type = typeOneBot
  · rw [if_pos oneBot] at sends ⊢
    cases sends
    refine ⟨(with_url_iff data _).trans ?_, rfl⟩
    by_cases slash : data.url.toList.getLast? = some '/'
    · rw [if_pos slash]
      refine iff_of_false (fun same => ?_) (not_not.mpr slash)
      have lengths := congrArg (fun text : String => text.toList.length) same
      have some_ : data.url.toList ≠ [] := by
        rintro blank
        rw [blank] at slash
        cases slash
      have positive := List.length_pos_iff.mpr some_
      simp only [String.toList_ofList, List.length_dropLast] at lengths
      omega
    · rw [if_neg slash]
      exact iff_of_true rfl slash
  rw [if_neg oneBot] at sends ⊢
  by_cases group : data.type = typeGroup
  · rw [if_pos group] at sends
    by_cases blank : data.accountId = ""
    · rw [if_pos blank] at sends
      cases sends
      refine ⟨(with_accountId_iff data _).trans ?_, rfl⟩
      rw [blank, separators_eq_iff]
      simp [group]
    · rw [if_neg blank] at sends
      split_ifs at sends
      cases sends
      exact ⟨iff_of_true rfl fun _ is => absurd is blank, rfl⟩
  · rw [if_neg group] at sends
    split_ifs at sends
    cases sends
    exact ⟨iff_of_true rfl fun is => absurd is group, rfl⟩

/-- What is not sent is kept anyway. -/
theorem keepsTexts_of_error {data : Channel} {text : String}
    (fails : (loadChannel data).localInputs browser = .error text) : KeepsTexts data := by
  rw [keepsTexts_iff]
  unfold ChannelForm.localInputs at fails
  dsimp only at fails
  rw [loadChannel_inputs] at fails
  split_ifs at fails ⊢ with _ _ _ group blank
  · exact fun _ is => absurd is blank
  · exact fun is => absurd is group

section Opened

variable {channels : Channels} {env : ChannelEnvironment} {idParam : String}

/-- A channel is opened without its secret. -/
theorem getChannel_data (param : Text.atoi idParam = .ok id)
    (loaded : getChannelById channels id userId true = .ok row) :
    (getChannel channels userId idParam).data = some (.channel row.withoutSecret) := by
  have shown : getChannelById channels id userId false = .ok row.withoutSecret := by
    unfold getChannelById at loaded ⊢
    by_cases blank : id = 0 ∨ userId = 0
    · rw [if_pos blank] at loaded
      cases loaded
    rw [if_neg blank] at loaded ⊢
    cases first : channels.first fun row => row.id = id ∧ row.userId = userId with
    | none =>
        rw [first] at loaded
        cases loaded
    | some found =>
        rw [first] at loaded
        cases loaded
        rfl
  have both : (do
      let id ← Text.atoi idParam
      getChannelById channels id userId false) = Except.ok row.withoutSecret := by
    rw [param]
    exact shown
  unfold getChannel
  rw [both]
  rfl

/-- A channel that is saved under its name is admitted, with its old secret. -/
theorem admitUpdateChannel_resaved {body : Json} {appId accountId url : String}
    (decoded : Json.decodeInto Channel.jsonFields (some body) {} =
      some { row.withoutSecret with appId, accountId, url })
    (loaded : getChannelById channels row.id userId true = .ok row) :
    admitUpdateChannel env userId "" (some body) channels =
      .ok ({ row with appId, accountId, url }, row) := by
  unfold admitUpdateChannel
  rw [decoded]
  simp only [bind, Except.bind, pure, Except.pure, Channel.withoutSecret, loaded, ne_eq,
    not_true_eq_false, if_false]
  rfl

/-- A channel that is opened and saved keeps everything but three texts, and the row is as before
exactly where `submit` leaves these alone or there is no name. -/
theorem resaved_channel_unchanged_iff (param : Text.atoi idParam = .ok id)
    (loaded : getChannelById channels id userId true = .ok row)
    (keeps : browser.Keeps id ∧ browser.Keeps userId ∧ browser.Keeps row.status ∧
      browser.Keeps row.createdTime) :
    (∃ appId accountId url, channels.Rewrites (resaveChannel browser env userId idParam channels) id
      (some { row with appId, accountId, url })) ∧
    ((∀ key, (resaveChannel browser env userId idParam channels).rowAt key = channels.rowAt key) ↔
      row.name = "" ∨ KeepsTexts row) := by
  obtain rfl : row.id = id := getChannelById_id loaded
  obtain ⟨_, found, rfl⟩ := getChannelById_ok loaded
  have texts : KeepsTexts row.withoutSecret ↔ KeepsTexts row := by
    rw [keepsTexts_iff, keepsTexts_iff]
    rfl
  have unsent : ∀ saved : Channels, saved = channels → row.name = "" ∨ KeepsTexts row →
      (∃ appId accountId url, channels.Rewrites saved row.id
        (some { row with appId, accountId, url })) ∧
      ((∀ key, saved.rowAt key = channels.rowAt key) ↔ row.name = "" ∨ KeepsTexts row) := by
    rintro saved rfl kept
    refine ⟨⟨row.appId, row.accountId, row.url, fun key => ?_⟩, iff_of_true (fun _ => rfl) kept⟩
    split_ifs with same
    · rw [same, found]
    · rfl
  unfold resaveChannel
  rw [getChannel_data param loaded, Text.atoi_ok param]
  dsimp only
  unfold ChannelForm.submit
  rw [loadChannel_inputs]
  by_cases named : row.name = ""
  · rw [if_pos (show row.withoutSecret.name = "" from named)]
    exact unsent _ rfl (.inl named)
  rw [if_neg (show row.withoutSecret.name ≠ "" from named)]
  cases sends : (loadChannel row.withoutSecret).localInputs browser with
  | error text => exact unsent _ rfl (.inr (texts.mp (keepsTexts_of_error sends)))
  | ok sent =>
      obtain ⟨unchanged, same⟩ := localInputs_loadChannel sends
      obtain ⟨appId, accountId, url, rfl⟩ : ∃ appId accountId url,
          sent = { row.withoutSecret with appId, accountId, url } := ⟨_, _, _, same⟩
      let body := (loadChannel row.withoutSecret).data browser row.id
        { row.withoutSecret with appId, accountId, url }
      have decoded : Json.decodeInto Channel.jsonFields (some body) {} =
          some { row.withoutSecret with appId, accountId, url } := decodeInto_data keeps
      have admitted : admitUpdateChannel env row.userId "" (some body) channels =
          .ok ({ row with appId, accountId, url }, row) :=
        admitUpdateChannel_resaved decoded loaded
      have writes := updateChannel_writes admitted
      have kept : ({ row with appId, accountId, url } : Channel) = row ↔ KeepsTexts row := by
        rw [← texts, ← unchanged]
        cases row
        simp [Channel.withoutSecret]
      refine ⟨⟨appId, accountId, url, writes⟩, ?_⟩
      rw [or_iff_right named, ← kept]
      exact writes.unchanged_iff found

end Opened

/-- A browser, for the numbers 0 and 1. -/
def smallBrowser : Browser where
  numberText number := if number = 1 then "1" else "0"
  parseError text := text
  pathName := some

/-- A group of two channels without targets. -/
def smallGroup : Channel where
  id := 1
  type := typeGroup
  userId := 1
  name := "all"
  status := 1
  secret := "s"
  appId := "mail|ding"

def smallChannels : Channels where
  rows := [smallGroup]
  counter := 1
  sorted := by decide
  unique := by decide
  counterNonneg := by decide
  bounded := by decide

theorem resaved_channel_changed_smallChannels :
    ¬ ∀ key, (resaveChannel smallBrowser {} 1 "1" smallChannels).rowAt key =
      smallChannels.rowAt key :=
  fun same =>
    have loaded : getChannelById smallChannels 1 1 true = .ok smallGroup := rfl
    absurd ((resaved_channel_unchanged_iff (by decide : Text.atoi "1" = .ok 1) loaded
      (by decide)).2.mp same) fun kept => kept.elim (by decide) fun texts => texts.group rfl rfl
        (by decide)

/-! ### The webhook editor -/

/-- `DEFAULT_PRE_SCRIPT`. -/
def defaultPreScript : String := Text.join [
  "// 前置脚本：用 JavaScript 处理本次请求的 JSON，处理结果会作为「提取规则」和「构建规则」的输入。",
  "// 需要定义 main(json) 函数：json 是请求体（对象 / 数组 / 标量），用 return 返回处理后的数据。",
  "// 变量 __msg_send__ 控制本次是否真的发送消息：默认为 true，设为 false（或 0 / '' / null 等假值）时",
  "// 只把结果返回给调用方、不发送消息。写在顶层或 main 里都可以。",
  "// 下面这个默认脚本演示两件事：把 title 编辑成「【消息】+ 原 title」，",
  "// 以及显式把 __msg_send__ 设为 true；除 title 的值以外，返回的数据结构与输入完全一致。",
  "function main(json) \x7b",
  "  if (json !== null && typeof json === 'object' && !Array.isArray(json)) \x7b",
  "    json.title = '【消息】' + (json.title === undefined ? '' : json.title);",
  "  \x7d",
  "  __msg_send__ = true;",
  "  return json;",
  "\x7d"] "\n"

/-- `loadWebhook`: the form of a webhook, with a default for what is not set. -/
def loadWebhook (data : Webhook) : Webhook :=
  { data with
    channel := if data.channel = "" then "default" else data.channel
    preScript := if data.preScript = "" then defaultPreScript else data.preScript }

/-- The data of the request, with the id of the path. -/
def webhookData (browser : Browser) (id : Int) (webhook : Webhook) : Json :=
  .object [
    ("id", .number (browser.numberText id)), ("user_id", .number (browser.numberText webhook.userId)),
    ("name", .string webhook.name), ("status", .number (browser.numberText webhook.status)),
    ("link", .string webhook.link),
    ("created_time", .number (browser.numberText webhook.createdTime)),
    ("extract_rule", .string webhook.extractRule), ("construct_rule", .string webhook.constructRule),
    ("channel", .string webhook.channel),
    ("pre_script_enabled", .bool webhook.preScriptEnabled), ("pre_script", .string webhook.preScript)]

/-- `submit` of a form that was opened: the data of `PUT /api/webhook/`. -/
def submitWebhook (browser : Browser) (id : Int) (inputs : Webhook) :
    Except String (Option Json) := do
  if inputs.name = "" then return none
  if verifyJSON inputs.extractRule = false then .error "提取规则不是合法的 JSON 格式！"
  if verifyJSON inputs.constructRule = false then .error "构造规则不是合法的 JSON 格式！"
  if inputs.preScriptEnabled ∧ jsTrim inputs.preScript = "" then
    .error "启用了前置脚本，但脚本内容为空！"
  return some (webhookData browser id
    { inputs with channel := if inputs.channel = "default" then "" else inputs.channel })

/-- The table after a webhook was opened and saved as it was. -/
def resaveWebhook (browser : Browser) (env : WebhookEnvironment) (userId : Int) (idParam : String)
    (webhooks : Webhooks) : Webhooks :=
  match (getWebhook webhooks userId idParam).data with
  | some (.webhook data) =>
      match submitWebhook browser (Text.parseInt idParam).1 (loadWebhook data) with
      | .ok (some body) => (updateWebhook env userId "" (some body) webhooks).webhooks
      | _ => webhooks
  | _ => webhooks

/-- The page sends the form of a webhook that was opened. -/
def Sent (row : Webhook) : Prop :=
  row.name ≠ "" ∧ verifyJSON row.extractRule = true ∧ verifyJSON row.constructRule = true ∧
    ¬ (row.preScriptEnabled = true ∧ jsTrim (loadWebhook row).preScript = "")

instance (row : Webhook) : Decidable (Sent row) := inferInstanceAs (Decidable (_ ∧ _))

/-- What is stored of it then. -/
def resaved (row : Webhook) : Webhook :=
  { row with
    channel := if row.channel = "default" then "" else row.channel
    preScript := if row.preScript = "" then defaultPreScript else row.preScript }

theorem submitWebhook_ok_iff {id : Int} {row : Webhook} {body : Json} :
    submitWebhook browser id (loadWebhook row) = .ok (some body) ↔
      Sent row ∧ webhookData browser id (resaved row) = body := by
  have channel : (if (loadWebhook row).channel = "default" then "" else (loadWebhook row).channel) =
      (resaved row).channel := by
    by_cases none_ : row.channel = "" <;> simp [loadWebhook, resaved, none_]
  have data : webhookData browser id { loadWebhook row with channel := (resaved row).channel } =
      webhookData browser id (resaved row) := rfl
  unfold submitWebhook Sent
  by_cases named : row.name = ""
  · rw [if_pos (show (loadWebhook row).name = "" from named)]
    exact iff_of_false (by rintro ⟨⟩) fun both => both.1.1 named
  · rw [if_neg (show (loadWebhook row).name ≠ "" from named)]
    simp only [check_ok_iff, pure_ok_iff, Option.some.injEq, channel, data, Bool.not_eq_false]
    exact ⟨fun ⟨extract, construct, script, same⟩ => ⟨⟨named, extract, construct, script⟩, same⟩,
      fun ⟨⟨_, extract, construct, script⟩, same⟩ => ⟨extract, construct, script, same⟩⟩

theorem resaved_eq_iff {row : Webhook} :
    resaved row = row ↔ row.channel ≠ "default" ∧ row.preScript ≠ "" := by
  have script : defaultPreScript ≠ "" := by
    have whole : ∀ front : String, front ++ "\n" ++ "\x7d" ≠ "" := by
      simp [String.append_eq_empty_iff]
    exact whole _
  have fields : resaved row = row ↔
      (if row.channel = "default" then "" else row.channel) = row.channel ∧
        (if row.preScript = "" then defaultPreScript else row.preScript) = row.preScript := by
    cases row
    simp [resaved]
  rw [fields]
  by_cases channel : row.channel = "default" <;> by_cases blank : row.preScript = "" <;>
    simp [channel, blank, script]

theorem decodeInto_webhookData {webhook : Webhook} {id : Int} (keeps : browser.Keeps id ∧
    browser.Keeps webhook.userId ∧ browser.Keeps webhook.status ∧
    browser.Keeps webhook.createdTime) :
    Json.decodeInto Webhook.jsonFields (some (webhookData browser id webhook)) {} =
      some { webhook with id } := by
  obtain ⟨key, owner, status, created⟩ := keeps
  unfold Browser.Keeps at key owner status created
  unfold webhookData Json.decodeInto
  simp only [Json.decodeMember, Json.fieldFor, Webhook.jsonFields, Json.stringField, Json.intField,
    Json.boolField, List.find?, List.foldlM_cons, List.foldlM_nil, decide_true, decide_false,
    String.reduceEq, Option.some_or, key, owner, status, created, if_true]
  rfl

/-- The row of a webhook that is opened and saved: what it becomes, and when it stays as it is. -/
theorem resaved_webhook_unchanged_iff {webhooks : Webhooks} {env : WebhookEnvironment}
    {idParam : String} {row : Webhook} (param : Text.atoi idParam = .ok id)
    (loaded : getWebhookById webhooks id userId = .ok row)
    (keeps : browser.Keeps id ∧ browser.Keeps userId ∧ browser.Keeps row.status ∧
      browser.Keeps row.createdTime) :
    webhooks.Rewrites (resaveWebhook browser env userId idParam webhooks) id
      (some (if Sent row then resaved row else row)) ∧
    ((∀ key, (resaveWebhook browser env userId idParam webhooks).rowAt key = webhooks.rowAt key) ↔
      (Sent row → row.channel ≠ "default" ∧ row.preScript ≠ "")) := by
  obtain rfl : row.id = id := getWebhookById_id loaded
  obtain ⟨_, found, rfl⟩ := getWebhookById_ok loaded
  have opened : (getWebhook webhooks row.userId idParam).data = some (.webhook row) := by
    unfold getWebhook
    rw [param]
    show (replyOf _ (getWebhookById webhooks row.id row.userId)).data = _
    rw [loaded]
    rfl
  have writes : webhooks.Rewrites (resaveWebhook browser env row.userId idParam webhooks) row.id
      (some (if Sent row then resaved row else row)) := by
    unfold resaveWebhook
    rw [opened, Text.atoi_ok param]
    dsimp only
    by_cases sent : Sent row
    · rw [submitWebhook_ok_iff.mpr ⟨sent, rfl⟩, if_pos sent]
      have decoded : Json.decodeInto Webhook.jsonFields
          (some (webhookData browser row.id (resaved row))) {} = some (resaved row) :=
        decodeInto_webhookData keeps
      exact updateWebhook_writes decoded loaded
    · rw [if_neg sent]
      split
      · next body submits => exact absurd (submitWebhook_ok_iff.mp submits).1 sent
      · intro at_
        split_ifs with same
        · rw [same, found]
        · rfl
  refine ⟨writes, (writes.unchanged_iff found).trans ?_⟩
  by_cases sent : Sent row
  · rw [if_pos sent, resaved_eq_iff]
    exact ⟨fun kept _ => kept, fun kept => kept sent⟩
  · rw [if_neg sent]
    exact iff_of_true rfl fun is => absurd is sent

/-- A webhook that was made before there were scripts. -/
def smallWebhook : Webhook where
  id := 1
  userId := 1
  name := "hook"
  status := 1
  link := "l"
  extractRule := "\x7b\x7d"
  constructRule := "\x7b\x7d"

def smallWebhooks : Webhooks where
  rows := [smallWebhook]
  counter := 1
  sorted := by decide
  unique := by decide
  counterNonneg := by decide
  bounded := by decide

theorem resaved_webhook_changed_smallWebhooks :
    ¬ ∀ key, (resaveWebhook smallBrowser {} 1 "1" smallWebhooks).rowAt key =
      smallWebhooks.rowAt key :=
  fun same =>
    have loaded : getWebhookById smallWebhooks 1 1 = .ok smallWebhook := rfl
    absurd rfl ((resaved_webhook_unchanged_iff (by decide : Text.atoi "1" = .ok 1) loaded
      (by decide)).2.mp same (by decide)).2

end MessagePusher.Web
