import MessagePusher.Channel.Dispatch
import MessagePusher.Channel.Telegram

/-!
# What the senders make of a reply

The second half of the senders of `channel/`: a request has gone out, and an error, or none, is read
off what comes back. Most services answer in JSON with an error code; a few senders look at the
status code too, the others do not. `decodeError` has the texts of `encoding/json`.
-/

namespace MessagePusher.Channel

open Common

/-- What comes back to a request: the error of the client, or a status code, the status line and
the body, where that is JSON. -/
inductive HttpReply where
  | failed (err : String)
  | answered (statusCode : Nat) (status : String) (body : Option Json)

/-- What the SDK of lark returns. -/
inductive SdkReply where
  | failed (err : String)
  | answered (success : Bool) (code : Int) (msg : String)

/-! ### Error codes -/

/-- The error code of a reply and its text. -/
structure ServiceError where
  code : Int := 0
  message : String := ""
deriving DecidableEq

/-- The names of the two, the code of a message that was taken, and the names of the texts that are
decoded besides. -/
structure ReplyFormat where
  code : String
  message : String
  accepted : Int := 0
  besides : List String := []

namespace ReplyFormat

/-- The fields of the struct that a service is answered into. -/
def jsonFields (format : ReplyFormat) : List (Json.Field ServiceError) :=
  [ Json.intField format.code fun code reply => { reply with code },
    Json.stringField format.message fun message reply => { reply with message } ] ++
    format.besides.map fun name => Json.stringField name fun _ reply => reply

/-- The answer of a service as a struct; fields that are missing stay blank. -/
def decode (format : ReplyFormat) (body : Option Json) : Option ServiceError :=
  Json.decodeInto format.jsonFields body {}

variable (decodeError : Option Json → String)

/-- The error that is read off a body. -/
def readBody (format : ReplyFormat) (body : Option Json) : Option String :=
  match format.decode body with
  | none => some (decodeError body)
  | some reply => if reply.code ≠ format.accepted then some reply.message else none

/-- A sender that looks at the body only. -/
def read (format : ReplyFormat) : HttpReply → Option String
  | .failed err => some err
  | .answered _ _ body => format.readBody decodeError body

end ReplyFormat

/-! ### The senders -/

/-- `barkMessageResponse`. -/
def barkMessageResponse : ReplyFormat := { code := "code", message := "message", accepted := 200 }

/-- `corpMessageResponse`. -/
def corpMessageResponse : ReplyFormat := { code := "errcode", message := "errmsg" }

/-- `dingMessageResponse`. -/
def dingMessageResponse : ReplyFormat := { code := "errcode", message := "errmsg" }

/-- `larkMessageResponse`. -/
def larkMessageResponse : ReplyFormat := { code := "code", message := "msg" }

/-- `wechatTestMessageResponse`. -/
def wechatTestMessageResponse : ReplyFormat := { code := "errcode", message := "errmsg" }

/-- `wechatCorpMessageResponse`. -/
def wechatCorpMessageResponse : ReplyFormat := { code := "errcode", message := "errmsg" }

/-- `TencentAlarmResponse`. -/
def tencentAlarmResponse : ReplyFormat :=
  { code := "code", message := "message", besides := ["codeDesc"] }

/-- `discordMessageResponse`. -/
def discordMessageResponse : ReplyFormat := { code := "code", message := "message" }

/-- `oneBotMessageResponse`. -/
def oneBotMessageResponse : ReplyFormat :=
  { code := "retcode", message := "message", besides := ["status"] }

variable (decodeError : Option Json → String)

/-- The end of `SendDiscordMessage`. -/
def discordReply : HttpReply → Option String
  | .failed err => some err
  | .answered statusCode status body =>
      if statusCode = 204 then none
      else
        match discordMessageResponse.readBody decodeError body with
        | some err => some err
        | none => if statusCode = 400 then some status else none

/-- The end of `SendOneBotMessage`. -/
def oneBotReply : HttpReply → Option String
  | .failed err => some err
  | .answered statusCode status body =>
      if statusCode ≠ 200 then some status else oneBotMessageResponse.readBody decodeError body

/-- The end of `SendCustomMessage`. -/
def customReply : HttpReply → Option String
  | .failed err => some err
  | .answered statusCode status _ => if statusCode ≠ 200 then some status else none

/-- The end of `SendLarkAppMessage`. -/
def larkAppReply : SdkReply → Option String
  | .failed err => some err
  | .answered success code msg =>
      if success then none
      else some ("飞书应用号发送消息失败：code=" ++ Text.itoa code ++ ", msg=" ++ msg)

/-- The fields of the struct of Telegram. -/
def TelegramMessageResponse.jsonFields : List (Json.Field TelegramMessageResponse) :=
  [ Json.boolField "ok" fun ok reply => { reply with ok },
    Json.stringField "description" fun description reply => { reply with description } ]

/-- What the loop of `SendTelegramMessage` reads off the reply to one post. -/
def telegramReply : HttpReply → Except String TelegramMessageResponse
  | .failed err => .error err
  | .answered _ _ body =>
      match Json.decodeInto TelegramMessageResponse.jsonFields body ⟨false, ""⟩ with
      | none => .error (decodeError body)
      | some reply => .ok reply

/-! ### The services -/

/-- What comes back to a request, to each post of a text to Telegram, and from the packages that
send mails and talk to lark. -/
structure Services where
  reply : Outgoing → HttpReply
  telegram : Outgoing → Nat → HttpReply
  mail : Outgoing → Option String
  sdk : Outgoing → SdkReply

/-- A sender returns this error, or none, after a request, or panics with it where it has none.
A text to Telegram may have no end. -/
def Services.Return (services : Services) (outgoing : Outgoing) (err : Option String) : Prop :=
  match outgoing with
  | .nothing | .client .. => err = none
  | .panic => err = some nilDereference
  | .email .. => err = services.mail outgoing
  | .weChatTest .. => err = wechatTestMessageResponse.read decodeError (services.reply outgoing)
  | .weChatCorp .. => err = wechatCorpMessageResponse.read decodeError (services.reply outgoing)
  | .corp .. => err = corpMessageResponse.read decodeError (services.reply outgoing)
  | .lark .. => err = larkMessageResponse.read decodeError (services.reply outgoing)
  | .ding .. => err = dingMessageResponse.read decodeError (services.reply outgoing)
  | .bark .. => err = barkMessageResponse.read decodeError (services.reply outgoing)
  | .telegram secret chatId text parseMode => ∃ passes,
      (sendTelegramMessage secret chatId text parseMode
        (fun post => telegramReply decodeError (services.telegram outgoing post)) passes).outcome =
          some (.returned err)
  | .discord .. => err = discordReply decodeError (services.reply outgoing)
  | .oneBot .. => err = oneBotReply decodeError (services.reply outgoing)
  | .larkApp .. => err = larkAppReply (services.sdk outgoing)
  | .custom .. => err = customReply (services.reply outgoing)
  | .tencentAlarm .. => err = tencentAlarmResponse.read decodeError (services.reply outgoing)

/-! ### What is read as success -/

/-- The body has the code of a message that was taken. -/
def ReplyFormat.Takes (format : ReplyFormat) (body : Option Json) : Prop :=
  ∃ reply, format.decode body = some reply ∧ reply.code = format.accepted

variable {decodeError}

/-- An answer is one with its own status and body. -/
theorem HttpReply.exists_answered_iff {statusCode : Nat} {status : String} {body : Option Json}
    (p : Nat → String → Option Json → Prop) :
    (∃ code line content, HttpReply.answered statusCode status body = .answered code line content ∧
      p code line content) ↔ p statusCode status body := by
  constructor
  · rintro ⟨_, _, _, ⟨⟩, holds⟩
    exact holds
  · exact fun holds => ⟨_, _, _, rfl, holds⟩

/-- A body is no error exactly when the service takes the message. -/
theorem ReplyFormat.readBody_eq_none_iff {format : ReplyFormat} {body : Option Json} :
    format.readBody decodeError body = none ↔ format.Takes body := by
  unfold ReplyFormat.readBody ReplyFormat.Takes
  cases format.decode body with
  | none => simp
  | some reply => simp

/-- There is no error exactly when an answer came in which the service takes the message. -/
theorem ReplyFormat.read_eq_none_iff {format : ReplyFormat} {reply : HttpReply} :
    format.read decodeError reply = none ↔
      ∃ statusCode status body, reply = .answered statusCode status body ∧ format.Takes body := by
  cases reply with
  | failed err => simp [ReplyFormat.read]
  | answered statusCode status body =>
      rw [ReplyFormat.read, ReplyFormat.readBody_eq_none_iff]
      exact (HttpReply.exists_answered_iff fun _ _ body => format.Takes body).symm

/-- Discord takes a message with 204, or with a body that says so and any status but 400. -/
theorem discordReply_eq_none_iff {reply : HttpReply} : discordReply decodeError reply = none ↔
    ∃ statusCode status body, reply = .answered statusCode status body ∧
      (statusCode = 204 ∨ (statusCode ≠ 400 ∧ discordMessageResponse.Takes body)) := by
  cases reply with
  | failed err => simp [discordReply]
  | answered statusCode status body =>
      refine Iff.trans ?_ (HttpReply.exists_answered_iff fun statusCode _ body =>
        statusCode = 204 ∨ (statusCode ≠ 400 ∧ discordMessageResponse.Takes body)).symm
      rw [← @ReplyFormat.readBody_eq_none_iff decodeError, discordReply]
      by_cases empty : statusCode = 204
      · simp [empty]
      · rw [if_neg empty]
        cases discordMessageResponse.readBody decodeError body <;> simp [empty]

/-- OneBot takes a message with 200 and a body that says so. -/
theorem oneBotReply_eq_none_iff {reply : HttpReply} : oneBotReply decodeError reply = none ↔
    ∃ status body, reply = .answered 200 status body ∧ oneBotMessageResponse.Takes body := by
  cases reply with
  | failed err => simp [oneBotReply]
  | answered statusCode status body =>
      rw [oneBotReply]
      by_cases done : statusCode = 200
      · rw [if_neg (not_not.mpr done), ReplyFormat.readBody_eq_none_iff]
        simp [done]
      · simp [done]

/-- A custom channel takes any body with 200. -/
theorem customReply_eq_none_iff {reply : HttpReply} : customReply reply = none ↔
    ∃ status body, reply = .answered 200 status body := by
  cases reply with
  | failed err => simp [customReply]
  | answered statusCode status body => simp [customReply]

/-- The SDK of Lark tells a success by itself. -/
theorem larkAppReply_eq_none_iff {reply : SdkReply} : larkAppReply reply = none ↔
    ∃ code msg, reply = .answered true code msg := by
  cases reply with
  | failed err => simp [larkAppReply]
  | answered success code msg => cases success <;> simp [larkAppReply]

end MessagePusher.Channel
