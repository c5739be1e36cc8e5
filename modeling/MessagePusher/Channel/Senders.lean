import MessagePusher.Model.Channel
import MessagePusher.Model.User

/-!
# The channel senders

Every sender of `channel/` up to the request it sends: it reads the shared
message and user, may rewrite fields of them, and either refuses or decides on
an `Outgoing` request. What the network answers is not decided here. `Library`
holds the functions of other packages and of the template engine, `Readings`
what a sender reads when it runs.
-/

namespace MessagePusher.Channel

open Common Model

/-- A value of a template variable. -/
inductive TemplateValue where
  | text (value : String)
  | integer (value : Int)
  | json (value : Json)

/-- The functions that the senders call: goldmark, HMAC in base64, `url.QueryEscape`, whether
`url.Parse` takes a text, `strings.ToLower`, `json.Unmarshal` into an object, `json.Marshal`, the
decoding of stored variables and `common.RenderTemplate`. -/
structure Library where
  goldmark : String → String
  hmacSha256 : String → String → String
  hmacSha1 : String → String → String
  queryEscape : String → String
  parsesUrl : String → Bool
  toLower : String → String
  jsonObject : String → Option (List (String × Json))
  marshal : Json → String
  decodeVariables : String → Option (List (String × Json))
  renderTemplate : String → List (String × TemplateValue) → String

/-- What a sender reads besides its arguments: settings, environment, clock, random nonce,
the token store and the connected WebSocket clients. -/
structure Readings where
  systemName : String
  serverAddress : String
  allowNonHttps : Bool
  unixMilli : Int
  nonce : Int
  token : String → String
  connected : String → Bool

/-- The body for a WeChat test account. -/
structure WeChatTestRequest where
  toUser : String
  templateId : String
  url : String
  text : String
  title : String
  description : String
  content : String
deriving DecidableEq

/-- The card of a WeChat corporation account. -/
structure TextCard where
  title : String := ""
  description : String := ""
  url : String := ""
deriving DecidableEq

/-- The body for a WeChat corporation account. -/
structure WeChatCorpRequest where
  messageType : String := ""
  toUser : String
  agentId : String
  textCard : TextCard := {}
  text : String := ""
  markdown : String := ""
deriving DecidableEq

/-- The body for a robot of WeChat Work. -/
structure CorpRequest where
  messageType : String
  text : String := ""
  markdown : String := ""
  mentionedList : List String := []
deriving DecidableEq

/-- The card of a lark request is absent or has one element with the given text. -/
structure LarkRequest where
  messageType : String
  timestamp : String
  sign : String
  text : String := ""
  card : Option String := none
deriving DecidableEq

/-- The body for DingTalk. -/
structure DingRequest where
  messageType : String
  text : String := ""
  markdownTitle : String := ""
  markdownText : String := ""
  atUserIds : List String := []
  isAtAll : Bool := false
deriving DecidableEq

/-- The body for OneBot. -/
structure OneBotRequest where
  messageType : String
  userId : Int := 0
  groupId : Int := 0
  message : String
deriving DecidableEq

/-- The type and the content of a message of a Lark app. -/
structure LarkAppSpec where
  msgType : String
  content : String
deriving DecidableEq

/-- A request on its way to a service, with where it goes. A Telegram text is still to be
split into posts, and the parameters of a Tencent request to be encoded. With `panic` there is
no request, and the sender dereferences it all the same. -/
inductive Outgoing where
  | nothing
  | panic
  | email (subject receiver html : String)
  | weChatTest (accessToken : String) (request : WeChatTestRequest)
  | weChatCorp (accessToken : String) (request : WeChatCorpRequest)
  | corp (url : String) (request : CorpRequest)
  | lark (url : String) (request : LarkRequest)
  | ding (url : String) (request : DingRequest)
  | bark (url title body link : String)
  | client (key : String) (message : Message)
  | telegram (secret chatId text parseMode : String)
  | discord (url content : String)
  | oneBot (url secret : String) (request : OneBotRequest)
  | larkApp (appId secret receiveIdType receiveId : String) (spec : LarkAppSpec)
  | custom (url body : String)
  | tencentAlarm (parameters : List (String × String))
deriving DecidableEq

/-- What a sender leaves behind: the shared message and user, and its decision. -/
structure Sent where
  message : Message
  user : User
  decision : Except String Outgoing

variable (lib : Library) (readings : Readings)

/-- `Markdown2HTML`; the text of a conversion error also counts as the result. -/
def markdown2HTML (markdown : String) : String :=
  if markdown = "" then "" else lib.goldmark markdown

/-- The title says nothing of its own, so the description becomes the subject. -/
def plainTitle (message : Message) : Prop :=
  message.title = readings.systemName ∨ message.title = ""

instance (message : Message) : Decidable (plainTitle readings message) :=
  inferInstanceAs (Decidable (_ ∨ _))

/-- The subject: a title that is blank or the name of the system gives way to the description. -/
def emailSubject (message : Message) : String :=
  if plainTitle readings message then message.description else message.title

/-- The content, behind the description unless that is the subject. -/
def emailContent (message : Message) : String :=
  if plainTitle readings message then message.content
  else message.description ++ "\n\n" ++ message.content

/-- The permission to mail someone else. -/
def mayMailOthers (user : User) : Prop :=
  user.sendEmailToOthers = sendEmailToOthersAllowed ∨ roleAdminUser ≤ user.role

instance (user : User) : Decidable (mayMailOthers user) :=
  inferInstanceAs (Decidable (_ ∨ _))

/-- The first of two texts that is not empty. -/
def orElse (first second : String) : String := if first = "" then second else first

@[simp]
theorem orElse_eq_empty {first second : String} :
    orElse first second = "" ↔ first = "" ∧ second = "" := by
  unfold orElse
  split_ifs with blank
  · simp [blank]
  · simp [blank]

/-- The mail would go to someone else without the permission to do so. -/
def mailForbidden (message : Message) (user : User) : Prop :=
  message.to_ ≠ "" ∧ ¬ mayMailOthers user

instance (message : Message) (user : User) : Decidable (mailForbidden message user) :=
  inferInstanceAs (Decidable (_ ∧ _))

/-- `SendEmailMessage`. It stores the receiver in the user and the HTML in the message. -/
def sendEmailMessage (message : Message) (user : User) : Sent :=
  if mailForbidden message user then
    ⟨message, user, .error "没有权限发送邮件给其他人，请联系管理员为你添加该权限"⟩
  else if orElse message.to_ user.email = "" then
    ⟨message, { user with email := orElse message.to_ user.email }, .error "未配置邮箱地址"⟩
  else
    ⟨{ message with htmlContent := markdown2HTML lib (emailContent readings message) },
      { user with email := Text.replaceAll (orElse message.to_ user.email) '|' ';' },
      .ok (.email (emailSubject readings message)
        (Text.replaceAll (orElse message.to_ user.email) '|' ';')
        (markdown2HTML lib (emailContent readings message)))⟩

/-- `SendWeChatTestMessage`. -/
def weChatTestMessage (message : Message) (channel : Model.Channel) : Except String Outgoing :=
  .ok (.weChatTest (readings.token (channel.appId ++ channel.secret))
    { toUser := orElse message.to_ channel.accountId
      templateId := channel.other
      url := message.url
      text := message.description
      title := message.title
      description := message.description
      content := message.content })

/-- `parseWechatCorpAccountAppId`. -/
def parseWechatCorpAccountAppId (appId : String) : Except String (String × String) :=
  match Text.split appId '|' with
  | [corpId, agentId] => .ok (corpId, agentId)
  | _ => .error "无效的微信企业号配置"

/-- `SendWeChatCorpMessage`. -/
def weChatCorpMessage (message : Message) (channel : Model.Channel) : Except String Outgoing := do
  let (corpId, agentId) ← parseWechatCorpAccountAppId channel.appId
  let base : WeChatCorpRequest :=
    { toUser := orElse message.to_ channel.accountId, agentId }
  let card : WeChatCorpRequest := { base with
    messageType := "textcard"
    textCard :=
      { title := message.title
        description := message.description
        url := orElse message.url readings.serverAddress } }
  let request :=
    if message.content = "" then
      if message.title = "" then
        { base with messageType := "text", text := message.description }
      else card
    else if channel.other = "plugin" then card
    else { base with messageType := "markdown", markdown := message.content }
  return .weChatCorp (readings.token (corpId ++ agentId ++ channel.secret)) request

/-- The `mentioned_list` of a corp request. -/
def corpMentions (message : Message) : List String :=
  if message.to_ = "" then [] else Text.split message.to_ '|'

/-- `SendCorpMessage`. -/
def corpMessage (message : Message) (channel : Model.Channel) : Except String Outgoing :=
  let mentionedList := corpMentions message
  .ok (.corp channel.url
    (if message.content = "" then
      { messageType := "text", text := message.description, mentionedList }
    else { messageType := "markdown", markdown := message.content, mentionedList }))

/-- `getLarkAtPrefix`. -/
def larkAtPrefix (message : Message) : String :=
  if message.to_ = "" then ""
  else if message.to_ = "@all" then "<at user_id=\"all\">所有人</at>"
  else String.join ((Text.split message.to_ '|').map fun id =>
    "<at user_id=\"" ++ id ++ "\"> </at>")

/-- `larkSign`. -/
def larkSign (secret : String) (timestamp : Int) : String :=
  lib.hmacSha256 (Text.itoa timestamp ++ "\n" ++ secret) ""

/-- `SendLarkMessage`. -/
def larkMessage (message : Message) (channel : Model.Channel) : Except String Outgoing :=
  let timestamp := readings.unixMilli / 1000
  let sign := larkSign lib channel.secret timestamp
  let atPrefix := larkAtPrefix message
  .ok (.lark channel.url
    (if message.content = "" then
      { messageType := "text", timestamp := Text.itoa timestamp, sign,
        text := atPrefix ++ message.description }
    else
      { messageType := "interactive", timestamp := Text.itoa timestamp, sign,
        card := some (atPrefix ++ message.content) }))

/-- `dingSign`. -/
def dingSign (secret : String) (timestamp : Int) : String :=
  lib.queryEscape (lib.hmacSha256 secret (Text.itoa timestamp ++ "\n" ++ secret))

/-- The `atUserIds` of a ding request. -/
def dingMentions (message : Message) : List String :=
  if message.to_ = "" ∨ message.to_ = "@all" then [] else Text.split message.to_ '|'

/-- `SendDingMessage`. -/
def dingMessage (message : Message) (channel : Model.Channel) : Except String Outgoing :=
  let timestamp := readings.unixMilli
  let isAtAll : Bool := message.to_ = "@all"
  let atUserIds := dingMentions message
  .ok (.ding (channel.url ++ "&timestamp=" ++ Text.itoa timestamp ++ "&sign=" ++
      dingSign lib channel.secret timestamp)
    (if message.content = "" then
      { messageType := "text", text := message.description, atUserIds, isAtAll }
    else
      { messageType := "markdown", markdownTitle := message.title,
        markdownText := message.content, atUserIds, isAtAll }))

/-- `SendBarkMessage`. -/
def barkMessage (message : Message) (channel : Model.Channel) : Except String Outgoing :=
  .ok (.bark (channel.url ++ "/" ++ channel.secret) message.title
    (orElse message.content message.description) message.url)

/-- `SendClientMessage`; the frame is the whole message. -/
def clientMessage (message : Message) (user : User) (channel : Model.Channel) :
    Except String Outgoing :=
  let key := channel.name ++ ":" ++ Text.itoa user.id
  if readings.connected key then .ok (.client key message) else .error "客户端未连接"

/-- `SendTelegramMessage` up to the splitting loop. -/
def telegramMessage (message : Message) (channel : Model.Channel) : Except String Outgoing :=
  let chatId := orElse message.to_ channel.accountId
  .ok (if message.content = "" then .telegram channel.secret chatId message.description ""
    else .telegram channel.secret chatId message.content "markdown")

/-- The mentions that `SendDiscordMessage` puts in front: the last id comes first. -/
def discordMentions (message : Message) : String :=
  if message.to_ = "" then ""
  else (Text.split message.to_ '|').foldl (fun text id => "<@" ++ id ++ "> " ++ text) ""

/-- `SendDiscordMessage`. It stores the description as content when there is none. -/
def sendDiscordMessage (message : Message) (user : User) (channel : Model.Channel) : Sent :=
  let message := { message with content := orElse message.content message.description }
  ⟨message, user, .ok (.discord channel.url (discordMentions message ++ message.content))⟩

/-- The end of `SendOneBotMessage`: it drops the error of `http.NewRequest`, which has no request
for a URL that does not parse, and goes on to set a header of it. -/
def oneBotOutgoing (url secret : String) (request : OneBotRequest) : Outgoing :=
  if lib.parsesUrl url then .oneBot url secret request else .panic

/-- `SendOneBotMessage` after the receiver was split into its kind and its id. -/
def oneBotRequest (message : Message) (channel : Model.Channel) (type idText : String) :
    Except String Outgoing :=
  let id := (Text.parseInt idText).1
  let text := orElse message.content message.description
  let url := channel.url ++ "/send_msg"
  if type = "user" then
    .ok (oneBotOutgoing lib url channel.secret
      { messageType := "private", userId := id, message := text })
  else if type = "group" then
    .ok (oneBotOutgoing lib url channel.secret
      { messageType := "group", groupId := id, message := text })
  else .error "无效的 OneBot 配置"

/-- `SendOneBotMessage`. -/
def oneBotMessage (message : Message) (channel : Model.Channel) : Except String Outgoing :=
  match Text.split (orElse message.to_ channel.accountId) '_' with
  | [id] => oneBotRequest lib message channel "user" id
  | [type, id] => oneBotRequest lib message channel type id
  | _ => .error "无效的 OneBot 配置"

/-- `parseLarkAppTarget`. -/
def parseLarkAppTarget (target : String) : Except String (String × String) :=
  match Text.split target ':' with
  | [targetType, id] => .ok (targetType, id)
  | _ => .error "无效的飞书应用号消息接收者参数"

/-- The types that a Lark app takes. -/
def larkAppSupportedMsgTypes : List String :=
  ["text", "post", "image", "interactive", "share_chat", "share_user", "audio", "media", "file",
    "sticker"]

/-- `buildLarkAppTextMessage`. -/
def buildLarkAppTextMessage (message : Message) : Except String LarkAppSpec :=
  let text := orElse message.description message.content
  if Text.trimSpace text = "" then .error "文本消息内容为空"
  else .ok ⟨"text", lib.marshal (.object [("text", .string text)])⟩

/-- `validateLarkPostLang` for one language; `none` when the language is absent. -/
def validateLarkPostBlock (postLang : List (String × Json)) (lang : String) :
    Except String Bool :=
  match postLang.lookup lang with
  | none => .ok false
  | some (.object block) =>
      match block.lookup "content" with
      | none => .error ("富文本消息（post）的 " ++ lang ++ ".content 不能为空")
      | some (.array _) => .ok true
      | some _ => .error ("富文本消息（post）的 " ++ lang ++ ".content 必须为段落数组")
  | some _ => .error ("富文本消息（post）的 " ++ lang ++ " 必须为 JSON 对象")

/-- `validateLarkPostLang`. -/
def validateLarkPostLang (postLang : List (String × Json)) : Except String Unit := do
  let chinese ← validateLarkPostBlock postLang "zh_cn"
  let english ← validateLarkPostBlock postLang "en_us"
  if chinese || english then return ()
  else .error "富文本消息（post）的 content 至少需要包含 zh_cn 或 en_us 中的一种语言配置"

/-- The language map of the three accepted writings of a post message. -/
def larkPostLang (object : List (String × Json)) : Except String (List (String × Json)) :=
  match object.lookup "post" with
  | some (.object post) => .ok post
  | some _ => .error "富文本消息（post）的 content.post 必须为 JSON 对象"
  | none =>
      if (object.lookup "zh_cn").isSome || (object.lookup "en_us").isSome then .ok object
      else .ok [("zh_cn", .object object)]

/-- `larkJSONObjectMap`. -/
def larkJSONObjectMap (text : String) : Option (List (String × Json)) :=
  if Text.trimSpace text = "" then none else lib.jsonObject text

/-- `buildLarkAppPostMessage`. -/
def buildLarkAppPostMessage (message : Message) : Except String LarkAppSpec := do
  if Text.trimSpace message.content = "" then .error "富文本消息（post）的 content 不能为空"
  match larkJSONObjectMap lib message.content with
  | none => .error "富文本消息（post）的 content 必须为 JSON 对象"
  | some object =>
      let postLang ← larkPostLang object
      validateLarkPostLang postLang
      return ⟨"post", lib.marshal (.object postLang)⟩

/-- `buildLarkAppInteractiveMessage`. -/
def buildLarkAppInteractiveMessage (message : Message) : Except String LarkAppSpec :=
  if Text.trimSpace message.content = "" then
    .error "交互卡片消息（interactive）的 content 不能为空"
  else if (larkJSONObjectMap lib message.content).isSome then
    .ok ⟨"interactive", message.content⟩
  else
    .ok ⟨"interactive", lib.marshal (.object
      [("config", .object [("wide_screen_mode", .bool true), ("enable_forward", .bool true)]),
        ("elements", .array [.object [("tag", .string "div"),
          ("text", .object [("tag", .string "lark_md"), ("content", .string message.content)])]])])⟩

/-- `buildLarkAppKeyedContentMessage`. -/
def buildLarkAppKeyedContentMessage (msgType content key : String) :
    Except String LarkAppSpec :=
  if Text.trimSpace content = "" then .error (msgType ++ " 消息的 content 不能为空")
  else if (larkJSONObjectMap lib content).isSome then .ok ⟨msgType, content⟩
  else .ok ⟨msgType, lib.marshal (.object [(key, .string (Text.trimSpace content))])⟩

/-- The message type that `buildLarkAppMessage` goes by. -/
def larkAppMsgType (message : Message) : String :=
  let msgType := lib.toLower (Text.trimSpace message.msgType)
  if msgType = "" then (if message.description ≠ "" then "text" else "interactive") else msgType

/-- `buildLarkAppMessage`. -/
def buildLarkAppMessage (message : Message) : Except String LarkAppSpec :=
  let msgType := larkAppMsgType lib message
  if msgType = "text" then buildLarkAppTextMessage lib message
  else if msgType = "post" then buildLarkAppPostMessage lib message
  else if msgType = "interactive" then buildLarkAppInteractiveMessage lib message
  else if msgType = "image" then
    buildLarkAppKeyedContentMessage lib msgType message.content "image_key"
  else if msgType = "share_chat" then
    buildLarkAppKeyedContentMessage lib msgType message.content "chat_id"
  else if msgType = "share_user" then
    buildLarkAppKeyedContentMessage lib msgType message.content "user_id"
  else if msgType ∈ ["audio", "media", "file", "sticker"] then
    buildLarkAppKeyedContentMessage lib msgType message.content "file_key"
  else if (larkJSONObjectMap lib message.content).isSome then .ok ⟨msgType, message.content⟩
  else .error ("不支持的消息类型 " ++ message.msgType ++ "，支持的类型有：" ++
    Text.join larkAppSupportedMsgTypes "、" ++
    "；也可以直接传入合法的 JSON 对象作为 content 以便透传")

/-- `SendLarkAppMessage`. -/
def larkAppMessage (message : Message) (channel : Model.Channel) : Except String Outgoing := do
  let (targetType, target) ← parseLarkAppTarget (orElse message.to_ channel.accountId)
  let spec ← buildLarkAppMessage lib message
  return .larkApp channel.appId channel.secret targetType target spec

/-- The variables of a template that the message itself defines. -/
def reservedVariables (message : Message) : List (String × TemplateValue) :=
  [ ("id", .integer message.id), ("title", .text message.title),
    ("description", .text message.description), ("content", .text message.content),
    ("url", .text message.url), ("to", .text message.to_), ("link", .text message.link),
    ("channel", .text message.channel), ("timestamp", .integer message.timestamp),
    ("render_mode", .text message.renderMode), ("msg_type", .text message.msgType) ]

/-- `customTemplateVariables`. -/
def customTemplateVariables (message : Message) : List (String × TemplateValue) :=
  let extra := if message.extra = "" then [] else (lib.decodeVariables message.extra).getD []
  reservedVariables message ++
    (extra.filter fun entry => ((reservedVariables message).lookup entry.1).isNone).map
      fun entry => (entry.1, .json entry.2)

/-- `SendCustomMessage`. -/
def customMessage (message : Message) (channel : Model.Channel) : Except String Outgoing :=
  if Text.hasPrefix channel.url "http:" ∧ readings.allowNonHttps = false then
    .error "自定义通道必须使用 HTTPS 协议"
  else if Text.hasPrefix channel.url readings.serverAddress then
    .error "自定义通道不能使用本服务地址"
  else .ok (.custom channel.url
    (lib.renderTemplate channel.other (customTemplateVariables lib message)))

/-- The parameters of a Tencent request but the signature, in key order. -/
def tencentParameters (message : Message) (channel : Model.Channel) : List (String × String) :=
  [ ("Action", "SendCustomAlarmMsg"), ("Nonce", Text.itoa readings.nonce),
    ("Region", channel.other), ("SecretId", channel.appId),
    ("Timestamp", Text.itoa (readings.unixMilli / 1000)), ("msg", message.description),
    ("policyId", channel.accountId) ]

/-- The signature of a Tencent request. -/
def tencentSignature (secretKey : String) (parameters : List (String × String)) : String :=
  lib.hmacSha1 secretKey ("GETmonitor.api.qcloud.com/v2/index.php?" ++
    Text.join (parameters.map fun parameter => parameter.1 ++ "=" ++ parameter.2) "&")

/-- `SendTencentAlarmMessage`. It stores the content as description when there is none. -/
def sendTencentAlarmMessage (message : Message) (user : User) (channel : Model.Channel) : Sent :=
  let message := { message with description := orElse message.description message.content }
  let parameters := tencentParameters readings message channel
  ⟨message, user, .ok (.tencentAlarm
    (parameters ++ [("Signature", tencentSignature lib channel.secret parameters)]))⟩

/-- The senders that `SendMessage` dispatches to, other than the group sender. -/
inductive Sender where
  | email | weChatTest | weChatCorp | corp | lark | ding | bark | client | telegram | discord
  | none | oneBot | larkApp | custom | tencentAlarm
deriving DecidableEq

/-- The cases of `SendMessage`. -/
def senderTable : List (String × Sender) :=
  [ (typeEmail, .email), (typeWeChatTestAccount, .weChatTest),
    (typeWeChatCorpAccount, .weChatCorp), (typeCorp, .corp), (typeLark, .lark),
    (typeDing, .ding), (typeBark, .bark), (typeClient, .client), (typeTelegram, .telegram),
    (typeDiscord, .discord), (typeNone, .none), (typeOneBot, .oneBot), (typeLarkApp, .larkApp),
    (typeCustom, .custom), (typeTencentAlarm, .tencentAlarm) ]

/-- The sender of a channel type. -/
def senderOf (type : String) : Option Sender := senderTable.lookup type

/-- The call of one sender. -/
def runSender (sender : Sender) (message : Message) (user : User) (channel : Model.Channel) :
    Sent :=
  match sender with
  | .email => sendEmailMessage lib readings message user
  | .weChatTest => ⟨message, user, weChatTestMessage readings message channel⟩
  | .weChatCorp => ⟨message, user, weChatCorpMessage readings message channel⟩
  | .corp => ⟨message, user, corpMessage message channel⟩
  | .lark => ⟨message, user, larkMessage lib readings message channel⟩
  | .ding => ⟨message, user, dingMessage lib readings message channel⟩
  | .bark => ⟨message, user, barkMessage message channel⟩
  | .client => ⟨message, user, clientMessage readings message user channel⟩
  | .telegram => ⟨message, user, telegramMessage message channel⟩
  | .discord => sendDiscordMessage message user channel
  | .none => ⟨message, user, .ok .nothing⟩
  | .oneBot => ⟨message, user, oneBotMessage lib message channel⟩
  | .larkApp => ⟨message, user, larkAppMessage lib message channel⟩
  | .custom => ⟨message, user, customMessage lib readings message channel⟩
  | .tencentAlarm => sendTencentAlarmMessage lib readings message user channel

/-- `SendMessage` on a channel whose type is not `group`. -/
def sendDirect (message : Message) (user : User) (channel : Model.Channel) : Sent :=
  match senderOf channel.type with
  | some sender => runSender lib readings sender message user channel
  | none => ⟨message, user, .error ("不支持的消息通道：" ++ channel.type)⟩

end MessagePusher.Channel
