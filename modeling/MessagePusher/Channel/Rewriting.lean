import MessagePusher.Channel.Dispatch

/-!
# What a sender makes of rewritten fields

The mail, Discord and Tencent senders store fields in the shared message and
user. `Unaffected` says, sender by sender, when the fields that were rewritten
before it make no difference to the request it decides on.
-/

namespace MessagePusher.Channel

open Common Model

variable (lib : Library)

/-- The ways the text fields can have been rewritten: not at all, an empty content replaced
by the description, or an empty description replaced by the content. -/
inductive Rewritten (carried : Carried) (message : Message) : Prop where
  | same (content : carried.content = message.content)
      (description : carried.description = message.description)
  | filled (noContent : message.content = "") (someText : message.description ≠ "")
      (content : carried.content = message.description)
      (description : carried.description = message.description)
  | described (noText : message.description = "") (someContent : message.content ≠ "")
      (content : carried.content = message.content)
      (description : carried.description = message.content)

/-- The rewriting of the text fields is one of the three ways, whatever senders ran. -/
theorem Rewritten.after {carried : Carried} {message : Message}
    (rewritten : Rewritten carried message) (readings : Readings) (sender : Option Sender)
    (current : Message) (user : User) :
    Rewritten (carried.after lib readings sender current user) message := by
  unfold Carried.after
  split
  · unfold Carried.afterEmail
    split_ifs
    · exact rewritten
    · exact rewritten
    · cases rewritten with
      | same content description => exact .same content description
      | filled noContent someText content description =>
          exact .filled noContent someText content description
      | described noText someContent content description =>
          exact .described noText someContent content description
  · cases rewritten with
    | same content description =>
        by_cases noContent : message.content = ""
        · by_cases someText : message.description = ""
          · exact .same (by simp [orElse, content, description, noContent, someText]) description
          · exact .filled noContent someText (by simp [orElse, content, description, noContent])
              description
        · exact .same (by simp [orElse, content, noContent]) description
    | filled noContent someText content description =>
        exact .filled noContent someText (by simp [orElse, content, description]) description
    | described noText someContent content description =>
        exact .described noText someContent (by simp [orElse, content, someContent]) description
  · cases rewritten with
    | same content description =>
        by_cases noText : message.description = ""
        · by_cases someContent : message.content = ""
          · exact .same content (by simp [orElse, content, description, noText, someContent])
          · exact .described noText someContent content
              (by simp [orElse, content, description, noText])
        · exact .same content (by simp [orElse, description, noText])
    | filled noContent someText content description =>
        exact .filled noContent someText content (by simp [orElse, description, someText])
    | described noText someContent content description =>
        exact .described noText someContent content (by simp [orElse, content, description])
  · exact rewritten

/-- The mail to a member is the same: its receiver, and if there is one, subject and body. -/
def mailUnaffected (readings : Readings) (carried : Carried) (message : Message) (user : User) :
    Prop :=
  let receiver := Text.replaceAll (orElse message.to_ user.email) '|' ';'
  mailForbidden message user ∨
    (Text.replaceAll (orElse message.to_ carried.email) '|' ';' = receiver ∧
      (receiver = "" ∨
        (emailSubject readings (carried.message message) = emailSubject readings message ∧
          markdown2HTML lib (emailContent readings (carried.message message)) =
            markdown2HTML lib (emailContent readings message))))

/-- The Feishu app message is the same: without a type it goes by the description, a text
reads whichever field is set, the other types read the content. -/
def larkAppUnaffected (carried : Carried) (message : Message) : Prop :=
  let msgType := lib.toLower (Text.trimSpace message.msgType)
  if msgType = "" then message.description ≠ "" ∨ carried.description = message.description
  else if msgType = "text" then True
  else if msgType ∈ ["post", "interactive", "image", "share_chat", "share_user", "audio", "media",
      "file", "sticker"] then
    carried.content = message.content ∨ Text.trimSpace carried.content = ""
  else carried.content = message.content ∨ larkJSONObjectMap lib carried.content = none

/-- `SendCustomMessage` refuses the URL of the channel. -/
def customRefused (readings : Readings) (channel : Model.Channel) : Prop :=
  Text.hasPrefix channel.url "http:" ∧ readings.allowNonHttps = false ∨
    Text.hasPrefix channel.url readings.serverAddress

/-- The rewritten fields make no difference to the request of a sender. -/
def Unaffected (readings : Readings) (sender : Option Sender) (carried : Carried)
    (message : Message) (user : User) (channel : Model.Channel) : Prop :=
  match sender with
  | some .email => mailUnaffected lib readings carried message user
  | some .weChatTest =>
      carried.content = message.content ∧ carried.description = message.description
  | some .weChatCorp =>
      (parseWechatCorpAccountAppId channel.appId).isOk = false ∨
        if channel.other = "plugin" then
          carried.description = message.description ∧
            (message.title ≠ "" ∨ carried.content = message.content)
        else carried.content = message.content
  | some .corp | some .lark | some .ding | some .telegram => carried.content = message.content
  | some .client =>
      readings.connected (channel.name ++ ":" ++ Text.itoa user.id) = false ∨
        (carried.content = message.content ∧ carried.description = message.description ∧
          carried.htmlContent = message.htmlContent)
  | some .larkApp =>
      (parseLarkAppTarget (orElse message.to_ channel.accountId)).isOk = false ∨
        larkAppUnaffected lib carried message
  | some .custom =>
      customRefused readings channel ∨
        lib.renderTemplate channel.other (customTemplateVariables lib (carried.message message)) =
          lib.renderTemplate channel.other (customTemplateVariables lib message)
  | some .bark | some .discord | some .none | some .oneBot | some .tencentAlarm | none => True

/-- A sender that reads the first set one of content and description sees no rewriting. -/
theorem Rewritten.orElse_content {carried : Carried} {message : Message}
    (rewritten : Rewritten carried message) :
    orElse carried.content carried.description = orElse message.content message.description := by
  cases rewritten with
  | same content description => rw [content, description]
  | filled noContent someText content description => simp [orElse, *]
  | described noText someContent content description => simp [orElse, *]

theorem Rewritten.orElse_description {carried : Carried} {message : Message}
    (rewritten : Rewritten carried message) :
    orElse carried.description carried.content = orElse message.description message.content := by
  cases rewritten with
  | same content description => rw [content, description]
  | filled noContent someText content description => simp [orElse, *]
  | described noText someContent content description => simp [orElse, *]

/-- A request that carries the description only when there is no content, in another form
than the content, changes exactly with the content. -/
theorem Rewritten.contentOrDescription_iff {α : Type} {carried : Carried} {message : Message}
    (rewritten : Rewritten carried message) (ofDescription ofContent : String → α)
    (apart : ∀ content description, ofContent content ≠ ofDescription description) :
    (if carried.content = "" then ofDescription carried.description
        else ofContent carried.content) =
        (if message.content = "" then ofDescription message.description
          else ofContent message.content) ↔
      carried.content = message.content := by
  cases rewritten with
  | same content description => simp only [content, description]
  | filled noContent someText content description =>
      simp only [noContent, content, someText, if_true, if_false, iff_false]
      exact apart _ _
  | described noText someContent content description =>
      simp only [content, someContent, if_false]

theorem sendEmailMessage_unaffected (readings : Readings) (carried : Carried) (message : Message)
    (user : User) :
    (sendEmailMessage lib readings (carried.message message) (carried.user user)).decision =
        (sendEmailMessage lib readings message user).decision ↔
      mailUnaffected lib readings carried message user := by
  have forbidden : mailForbidden (carried.message message) (carried.user user) ↔
      mailForbidden message user := Iff.rfl
  have receiver : orElse (carried.message message).to_ (carried.user user).email =
      orElse message.to_ carried.email := rfl
  unfold sendEmailMessage mailUnaffected
  simp only [forbidden, receiver]
  by_cases refused : mailForbidden message user
  · simp [refused]
  · have blank : ∀ email, Text.replaceAll (orElse message.to_ email) '|' ';' = "" ↔
        orElse message.to_ email = "" := fun _ => Text.replaceAll_eq_empty_iff
    by_cases unset : orElse message.to_ carried.email = ""
    · by_cases unsetOriginal : orElse message.to_ user.email = ""
      · simp [refused, unset, unsetOriginal]
      · have setOriginal := mt (blank user.email).mp unsetOriginal
        simp [refused, unset, unsetOriginal, Ne.symm setOriginal]
    · by_cases unsetOriginal : orElse message.to_ user.email = ""
      · have setCarried := mt (blank carried.email).mp unset
        simp [refused, unset, unsetOriginal, setCarried]
      · have setOriginal := mt (blank user.email).mp unsetOriginal
        simp only [refused, unset, unsetOriginal, setOriginal, if_false, false_or,
          Except.ok.injEq, Outgoing.email.injEq]
        exact and_left_comm

theorem weChatCorpMessage_unaffected (readings : Readings) (carried : Carried)
    (message : Message) (channel : Model.Channel) (rewritten : Rewritten carried message) :
    weChatCorpMessage readings (carried.message message) channel =
        weChatCorpMessage readings message channel ↔
      (parseWechatCorpAccountAppId channel.appId).isOk = false ∨
        if channel.other = "plugin" then
          carried.description = message.description ∧
            (message.title ≠ "" ∨ carried.content = message.content)
        else carried.content = message.content := by
  unfold weChatCorpMessage
  cases parseWechatCorpAccountAppId channel.appId with
  | error text => simp [Except.isOk, Except.toBool, bind, Except.bind]
  | ok ids =>
      simp only [bind, Except.bind, pure, Except.pure, Except.ok.injEq,
        Outgoing.weChatCorp.injEq, true_and, Except.isOk, Except.toBool, Bool.true_eq_false,
        false_or, Carried.message]
      cases rewritten with
      | same content description => simp [content, description]
      | filled noContent someText content description =>
          by_cases plugin : channel.other = "plugin"
          · by_cases untitled : message.title = ""
            · simp [plugin, untitled, noContent, someText, content, description]
            · simp [plugin, untitled, noContent, someText, content, description]
          · by_cases untitled : message.title = ""
            · simp [plugin, untitled, noContent, someText, content]
            · simp [plugin, untitled, noContent, someText, content]
      | described noText someContent content description =>
          by_cases plugin : channel.other = "plugin"
          · simp [plugin, noText, someContent, content, description]
          · simp [plugin, someContent, content]

/-- A message type that refuses exactly the blank contents is unaffected when the content is
the original one or blank. -/
theorem Rewritten.blankContent_iff {α : Type} {carried : Carried} {message : Message}
    (rewritten : Rewritten carried message) (build : String → Except String α) (refusal : String)
    (refused : ∀ content, build content = .error refusal ↔ Text.trimSpace content = "") :
    build carried.content = build message.content ↔
      carried.content = message.content ∨ Text.trimSpace carried.content = "" := by
  cases rewritten with
  | same content description => simp [content]
  | filled noContent someText content description =>
      have blank : build "" = .error refusal := (refused "").mpr rfl
      simp [noContent, blank, refused, content, someText]
  | described noText someContent content description => simp [content]

theorem validateLarkPostBlock_notBlank (postLang : List (String × Json)) (lang : String)
    (member : lang ∈ ["zh_cn", "en_us"]) :
    validateLarkPostBlock postLang lang ≠ .error "富文本消息（post）的 content 不能为空" := by
  have apart : "富文本消息（post）的 " ++ lang ++ ".content 不能为空" ≠
        "富文本消息（post）的 content 不能为空" ∧
      "富文本消息（post）的 " ++ lang ++ ".content 必须为段落数组" ≠
        "富文本消息（post）的 content 不能为空" ∧
      "富文本消息（post）的 " ++ lang ++ " 必须为 JSON 对象" ≠
        "富文本消息（post）的 content 不能为空" := by
    simp only [List.mem_cons, List.not_mem_nil, or_false] at member
    rcases member with rfl | rfl <;> decide
  unfold validateLarkPostBlock
  split
  · simp
  · split
    · simpa using apart.1
    · simp
    · simpa using apart.2.1
  · simpa using apart.2.2

theorem validateLarkPostLang_notBlank (postLang : List (String × Json)) :
    validateLarkPostLang postLang ≠ .error "富文本消息（post）的 content 不能为空" := by
  have notChinese := validateLarkPostBlock_notBlank postLang "zh_cn" (by simp)
  have notEnglish := validateLarkPostBlock_notBlank postLang "en_us" (by simp)
  unfold validateLarkPostLang
  cases chinese : validateLarkPostBlock postLang "zh_cn" with
  | error text => simpa [bind, Except.bind, chinese] using notChinese
  | ok hasChinese =>
      cases english : validateLarkPostBlock postLang "en_us" with
      | error text => simpa [bind, Except.bind, english] using notEnglish
      | ok hasEnglish =>
          simp only [bind, Except.bind, pure, Except.pure]
          split_ifs <;> simp

theorem buildLarkAppPostMessage_refused (message : Message) :
    buildLarkAppPostMessage lib message = .error "富文本消息（post）的 content 不能为空" ↔
      Text.trimSpace message.content = "" := by
  unfold buildLarkAppPostMessage
  by_cases blank : Text.trimSpace message.content = ""
  · simp [blank, bind, Except.bind]
  simp only [blank, if_false, iff_false, bind, Except.bind, pure, Except.pure]
  cases larkJSONObjectMap lib message.content with
  | none => simp
  | some object =>
      simp only
      cases postLang : larkPostLang object with
      | error text =>
          intro same
          simp only [Except.error.injEq] at same
          subst same
          unfold larkPostLang at postLang
          split at postLang
          · cases postLang
          · simp at postLang
          · split_ifs at postLang
      | ok post =>
          simp only
          have valid := validateLarkPostLang_notBlank post
          cases validated : validateLarkPostLang post with
          | error text => simpa [validated] using valid
          | ok _ => simp

theorem buildLarkAppInteractiveMessage_refused (message : Message) :
    buildLarkAppInteractiveMessage lib message = .error "交互卡片消息（interactive）的 content 不能为空" ↔
      Text.trimSpace message.content = "" := by
  unfold buildLarkAppInteractiveMessage
  split_ifs with blank object <;> simp [blank]

theorem buildLarkAppKeyedContentMessage_refused (msgType content key : String) :
    buildLarkAppKeyedContentMessage lib msgType content key =
        .error (msgType ++ " 消息的 content 不能为空") ↔ Text.trimSpace content = "" := by
  unfold buildLarkAppKeyedContentMessage
  split_ifs with blank object <;> simp [blank]

theorem buildLarkAppTextMessage_ne_interactive (text card : Message) :
    buildLarkAppTextMessage lib text ≠ buildLarkAppInteractiveMessage lib card := by
  unfold buildLarkAppTextMessage buildLarkAppInteractiveMessage
  dsimp only
  split_ifs <;> simp

/-- A post reads the content alone. -/
theorem buildLarkAppPostMessage_congr {left right : Message} (same : left.content = right.content) :
    buildLarkAppPostMessage lib left = buildLarkAppPostMessage lib right := by
  unfold buildLarkAppPostMessage
  rw [same]

/-- So does a card. -/
theorem buildLarkAppInteractiveMessage_congr {left right : Message}
    (same : left.content = right.content) :
    buildLarkAppInteractiveMessage lib left = buildLarkAppInteractiveMessage lib right := by
  unfold buildLarkAppInteractiveMessage
  rw [same]

/-- Without a type the description decides whether the content is a card. -/
theorem buildLarkAppMessage_untyped (carried : Carried) (message : Message)
    (rewritten : Rewritten carried message)
    (untyped : lib.toLower (Text.trimSpace message.msgType) = "") :
    buildLarkAppMessage lib (carried.message message) = buildLarkAppMessage lib message ↔
      message.description ≠ "" ∨ carried.description = message.description := by
  have asText : ∀ other : Message, other.msgType = message.msgType → other.description ≠ "" →
      buildLarkAppMessage lib other = buildLarkAppTextMessage lib other := by
    intro other sameType some
    simp [buildLarkAppMessage, larkAppMsgType, sameType, untyped, some]
  have asCard : ∀ other : Message, other.msgType = message.msgType → other.description = "" →
      buildLarkAppMessage lib other = buildLarkAppInteractiveMessage lib other := by
    intro other sameType none
    simp [buildLarkAppMessage, larkAppMsgType, sameType, untyped, none]
  cases rewritten with
  | same content description =>
      have unchanged : buildLarkAppMessage lib (carried.message message) =
          buildLarkAppMessage lib message := by
        simp only [Carried.message, content, description]
        rfl
      simp [unchanged, description]
  | filled noContent someText content description =>
      have someCarried : (carried.message message).description ≠ "" := by
        simpa [Carried.message, description] using someText
      rw [asText (carried.message message) rfl someCarried, asText _ rfl someText]
      simp [buildLarkAppTextMessage, Carried.message, content, description, someText, orElse]
  | described noText someContent content description =>
      have someCarried : (carried.message message).description ≠ "" := by
        simpa [Carried.message, description] using someContent
      rw [asText (carried.message message) rfl someCarried, asCard _ rfl noText]
      simp only [noText, description, ne_eq, not_true_eq_false, false_or, someContent, iff_false]
      exact buildLarkAppTextMessage_ne_interactive lib _ _

/-- The Feishu app message of the rewritten fields is the original one exactly when its type
does not read them or they are not rewritten for it. -/
theorem buildLarkAppMessage_unaffected (carried : Carried) (message : Message)
    (rewritten : Rewritten carried message) :
    buildLarkAppMessage lib (carried.message message) = buildLarkAppMessage lib message ↔
      larkAppUnaffected lib carried message := by
  unfold larkAppUnaffected
  by_cases untyped : lib.toLower (Text.trimSpace message.msgType) = ""
  · simp only [untyped, if_true]
    exact buildLarkAppMessage_untyped lib carried message rewritten untyped
  have typed : larkAppMsgType lib message = lib.toLower (Text.trimSpace message.msgType) := by
    simp [larkAppMsgType, untyped]
  have typedCarried : larkAppMsgType lib (carried.message message) =
      lib.toLower (Text.trimSpace message.msgType) := by
    simp [larkAppMsgType, untyped, Carried.message]
  unfold buildLarkAppMessage
  simp only [typed, typedCarried, untyped, if_false]
  generalize lib.toLower (Text.trimSpace message.msgType) = msgType
  have keyed : ∀ key, buildLarkAppKeyedContentMessage lib msgType carried.content key =
      buildLarkAppKeyedContentMessage lib msgType message.content key ↔
        carried.content = message.content ∨ Text.trimSpace carried.content = "" := fun key =>
    rewritten.blankContent_iff (fun content =>
      buildLarkAppKeyedContentMessage lib msgType content key) _
      fun content => buildLarkAppKeyedContentMessage_refused lib msgType content key
  by_cases text : msgType = "text"
  · subst text
    simp [buildLarkAppTextMessage, Carried.message, rewritten.orElse_description]
  by_cases post : msgType = "post"
  · subst post
    simp only [String.reduceEq, List.mem_cons, if_true, if_false, true_or]
    have reads : buildLarkAppPostMessage lib (carried.message message) =
        buildLarkAppPostMessage lib { message with content := carried.content } :=
      buildLarkAppPostMessage_congr lib rfl
    rw [reads]
    exact rewritten.blankContent_iff
      (fun content => buildLarkAppPostMessage lib { message with content }) _
      fun content => buildLarkAppPostMessage_refused lib { message with content }
  by_cases interactive : msgType = "interactive"
  · subst interactive
    simp only [String.reduceEq, List.mem_cons, if_true, if_false, true_or, or_true]
    have reads : buildLarkAppInteractiveMessage lib (carried.message message) =
        buildLarkAppInteractiveMessage lib { message with content := carried.content } :=
      buildLarkAppInteractiveMessage_congr lib rfl
    rw [reads]
    exact rewritten.blankContent_iff
      (fun content => buildLarkAppInteractiveMessage lib { message with content }) _
      fun content => buildLarkAppInteractiveMessage_refused lib { message with content }
  by_cases image : msgType = "image"
  · subst image
    simpa using keyed "image_key"
  by_cases chat : msgType = "share_chat"
  · subst chat
    simpa using keyed "chat_id"
  by_cases sharedUser : msgType = "share_user"
  · subst sharedUser
    simpa using keyed "user_id"
  by_cases file : msgType ∈ ["audio", "media", "file", "sticker"]
  · have known : msgType ∈ ["post", "interactive", "image", "share_chat", "share_user", "audio",
        "media", "file", "sticker"] :=
      List.mem_append_right ["post", "interactive", "image", "share_chat", "share_user"] file
    simp only [text, post, interactive, image, chat, sharedUser, file, known, if_true, if_false]
    exact keyed "file_key"
  · have unknown : msgType ∉ ["post", "interactive", "image", "share_chat", "share_user", "audio",
        "media", "file", "sticker"] := by
      simpa only [List.mem_cons, post, interactive, image, chat, sharedUser, false_or] using file
    simp only [text, post, interactive, image, chat, sharedUser, file, unknown, if_false]
    cases rewritten with
    | same content description => simp [Carried.message, content]
    | filled noContent someText content description =>
        have blank : larkJSONObjectMap lib "" = none := rfl
        simp only [Carried.message, noContent, blank, content]
        cases larkJSONObjectMap lib message.description with
        | none => simp
        | some object => simp [someText]
    | described noText someContent content description => simp [Carried.message, content]

theorem corpMessage_unaffected (carried : Carried) (message : Message) (channel : Model.Channel)
    (rewritten : Rewritten carried message) :
    corpMessage (carried.message message) channel = corpMessage message channel ↔
      carried.content = message.content := by
  have decided := rewritten.contentOrDescription_iff
    (fun text => ({ messageType := "text", text, mentionedList := corpMentions message } :
      CorpRequest))
    (fun markdown => { messageType := "markdown", markdown, mentionedList := corpMentions message })
    (by simp)
  simp only [corpMessage, Except.ok.injEq, Outgoing.corp.injEq, true_and]
  exact decided

theorem larkMessage_unaffected (readings : Readings) (carried : Carried) (message : Message)
    (channel : Model.Channel) (rewritten : Rewritten carried message) :
    larkMessage lib readings (carried.message message) channel =
        larkMessage lib readings message channel ↔
      carried.content = message.content := by
  have decided := rewritten.contentOrDescription_iff
    (fun text => ({
      messageType := "text"
      timestamp := Text.itoa (readings.unixMilli / 1000)
      sign := larkSign lib channel.secret (readings.unixMilli / 1000)
      text := larkAtPrefix message ++ text } : LarkRequest))
    (fun content => {
      messageType := "interactive"
      timestamp := Text.itoa (readings.unixMilli / 1000)
      sign := larkSign lib channel.secret (readings.unixMilli / 1000)
      card := some (larkAtPrefix message ++ content) })
    (by simp)
  simp only [larkMessage, Except.ok.injEq, Outgoing.lark.injEq, true_and]
  exact decided

theorem dingMessage_unaffected (readings : Readings) (carried : Carried) (message : Message)
    (channel : Model.Channel) (rewritten : Rewritten carried message) :
    dingMessage lib readings (carried.message message) channel =
        dingMessage lib readings message channel ↔
      carried.content = message.content := by
  have decided := rewritten.contentOrDescription_iff
    (fun text => ({
      messageType := "text"
      text
      atUserIds := dingMentions message
      isAtAll := message.to_ = "@all" } : DingRequest))
    (fun markdownText => {
      messageType := "markdown"
      markdownTitle := message.title
      markdownText
      atUserIds := dingMentions message
      isAtAll := message.to_ = "@all" })
    (by simp)
  simp only [dingMessage, Except.ok.injEq, Outgoing.ding.injEq, true_and]
  exact decided

theorem telegramMessage_unaffected (carried : Carried) (message : Message)
    (channel : Model.Channel) (rewritten : Rewritten carried message) :
    telegramMessage (carried.message message) channel = telegramMessage message channel ↔
      carried.content = message.content := by
  have decided := rewritten.contentOrDescription_iff
    (fun text => Outgoing.telegram channel.secret (orElse message.to_ channel.accountId) text "")
    (fun text => Outgoing.telegram channel.secret (orElse message.to_ channel.accountId) text
      "markdown")
    (by simp)
  simp only [telegramMessage, Except.ok.injEq]
  exact decided

theorem clientMessage_unaffected (readings : Readings) (carried : Carried) (message : Message)
    (user : User) (channel : Model.Channel) :
    clientMessage readings (carried.message message) (carried.user user) channel =
        clientMessage readings message user channel ↔
      readings.connected (channel.name ++ ":" ++ Text.itoa user.id) = false ∨
        (carried.content = message.content ∧ carried.description = message.description ∧
          carried.htmlContent = message.htmlContent) := by
  have sameFrame : carried.message message = message ↔
      carried.content = message.content ∧ carried.description = message.description ∧
        carried.htmlContent = message.htmlContent := by
    constructor
    · intro same
      exact ⟨congrArg Message.content same, congrArg Message.description same,
        congrArg Message.htmlContent same⟩
    · rintro ⟨content, description, htmlContent⟩
      simp [Carried.message, content, description, htmlContent]
  have sameKey : (carried.user user).id = user.id := rfl
  simp only [clientMessage, sameKey, ← sameFrame]
  by_cases connected : readings.connected (channel.name ++ ":" ++ Text.itoa user.id)
  · simp [connected]
  · simp [connected]

theorem larkAppMessage_unaffected (carried : Carried) (message : Message)
    (channel : Model.Channel) (rewritten : Rewritten carried message) :
    larkAppMessage lib (carried.message message) channel = larkAppMessage lib message channel ↔
      (parseLarkAppTarget (orElse message.to_ channel.accountId)).isOk = false ∨
        larkAppUnaffected lib carried message := by
  have sameTarget : (carried.message message).to_ = message.to_ := rfl
  rw [← buildLarkAppMessage_unaffected lib carried message rewritten]
  unfold larkAppMessage
  rw [sameTarget]
  cases parseLarkAppTarget (orElse message.to_ channel.accountId) with
  | error text => simp [Except.isOk, Except.toBool, bind, Except.bind]
  | ok target =>
      cases buildLarkAppMessage lib (carried.message message) <;>
        cases buildLarkAppMessage lib message <;>
        simp [Except.isOk, Except.toBool, bind, Except.bind, pure, Except.pure]

theorem customMessage_unaffected (readings : Readings) (carried : Carried) (message : Message)
    (channel : Model.Channel) :
    customMessage lib readings (carried.message message) channel =
        customMessage lib readings message channel ↔
      customRefused readings channel ∨
        lib.renderTemplate channel.other (customTemplateVariables lib (carried.message message)) =
          lib.renderTemplate channel.other (customTemplateVariables lib message) := by
  unfold customMessage customRefused
  by_cases insecure : Text.hasPrefix channel.url "http:" ∧ readings.allowNonHttps = false
  · simp [insecure]
  · by_cases own : Text.hasPrefix channel.url readings.serverAddress
    · simp [insecure, own]
    · simp [insecure, own]

/-- The decision of every sender is the same exactly when it is unaffected. -/
theorem sendDirect_unaffected (readings : Readings) (carried : Carried) (message : Message)
    (user : User) (channel : Model.Channel) (rewritten : Rewritten carried message) :
    (sendDirect lib readings (carried.message message) (carried.user user) channel).decision =
        (sendDirect lib readings message user channel).decision ↔
      Unaffected lib readings (senderOf channel.type) carried message user channel := by
  unfold sendDirect
  cases senderOf channel.type with
  | none => simp [Unaffected]
  | some sender =>
      simp only [Unaffected]
      cases sender with
      | email => exact sendEmailMessage_unaffected lib readings carried message user
      | weChatTest =>
          simp [runSender, weChatTestMessage, Carried.message, and_comm]
      | weChatCorp => exact weChatCorpMessage_unaffected readings carried message channel rewritten
      | corp => exact corpMessage_unaffected carried message channel rewritten
      | lark => exact larkMessage_unaffected lib readings carried message channel rewritten
      | ding => exact dingMessage_unaffected lib readings carried message channel rewritten
      | bark => simp [runSender, barkMessage, Carried.message, rewritten.orElse_content]
      | client => exact clientMessage_unaffected readings carried message user channel
      | telegram => exact telegramMessage_unaffected carried message channel rewritten
      | discord =>
          simp only [runSender, sendDiscordMessage, Carried.message_content,
            Carried.message_description, rewritten.orElse_content, iff_true]
          rfl
      | none => simp [runSender]
      | oneBot =>
          simp [runSender, oneBotMessage, oneBotRequest, Carried.message, rewritten.orElse_content]
      | larkApp => exact larkAppMessage_unaffected lib carried message channel rewritten
      | custom => exact customMessage_unaffected lib readings carried message channel
      | tencentAlarm =>
          simp [runSender, sendTencentAlarmMessage, tencentParameters, Carried.message,
            rewritten.orElse_description]

end MessagePusher.Channel
