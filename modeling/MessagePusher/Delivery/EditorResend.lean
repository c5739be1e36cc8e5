import MessagePusher.Delivery.DetailLink
import MessagePusher.Delivery.Disabled
import MessagePusher.Web.EditMessage

/-!
# Sending a stored message again

`ResendMessage` hands the stored row to `saveAndSendMessage`. The editor posts it to the push
handler instead, where a content in render mode `code` is fenced once more. `Copy` is what the
receiver and the list of messages get to see.
-/

namespace MessagePusher.Delivery

open Common Model Store Controller Web
open Channel (SendCall)

/-- The fields of a message that sending it again should keep, and whose it is. -/
structure Copy where
  userId : Int
  title : String
  description : String
  content : String
  to_ : String
  channel : String
  renderMode : String
  msgType : String
deriving DecidableEq

/-- The fields of a message that a receiver sees, and whose it is. -/
def copyOf (userId : Int) (message : Message) : Copy where
  userId := userId
  title := message.title
  description := message.description
  content := message.content
  to_ := message.to_
  channel := message.channel
  renderMode := message.renderMode
  msgType := message.msgType

/-- The copy that a request hands to `SendMessage`, and those that it stores. -/
@[ext]
structure Effect where
  delivered : Option Copy
  stored : Set Copy

/-- Nothing is delivered, and nothing stored. -/
def Effect.nothing : Effect := ⟨none, ∅⟩

/-- What an outcome has delivered, and the rows that it has stored. -/
def effectOf (before : Messages) (outcome : Outcome) : Effect where
  delivered := outcome.handed.map fun call => copyOf call.user.id call.message
  stored := { copy | ∃ row, before.rowAt row.id = none ∧
    outcome.messages.rowAt row.id = some row ∧ copy = copyOf row.userId (Message.ofRow row) }

/-- What both ways of sending a message again find: settings, tables, the browser, the error of
a database that executes no query, the user of the session and the id in the path. -/
structure Situation where
  env : Environment
  browser : Browser
  failure : Option String := none
  users : Users
  channels : Channels
  messages : Messages
  userId : Int
  idParam : String

namespace Situation

variable (given : Situation)

/-- The stored message that is opened or resent. -/
def loaded : Except String Message :=
  getMessageByIds given.messages (Text.parseInt given.idParam).1 given.userId

/-- `ResendMessage`. -/
def resent : Outcome :=
  (resendMessage given.env given.failure given.users given.channels given.messages given.userId
    given.idParam).1

/-- The push that `EditMessage` makes of the message when it is opened and sent unchanged. -/
def editorRequest : Option PushRequest :=
  match given.failure with
  | some _ => none
  | none => do
      let data ← given.loaded.toOption
      let self ← (getUserById given.users given.userId false).toOption
      let body ← ((loadMessage data).send given.browser (loadUser self)).toOption.join
      postPush given.browser (loadUser self) body

/-- The editor's way. -/
def edited : Outcome :=
  match given.editorRequest with
  | none => { messages := given.messages }
  | some request =>
      (pushMessage given.env given.users given.channels given.messages request).1

end Situation

/-! ### The effect of one call -/

section Effects

variable {env : Environment} {user : User} {message other : Message} {channel : Model.Channel}
  {messages : Messages}

/-- Whether the database accepts an insertion depends on the id and the new link alone. -/
theorem insertAccepted_congr (same : message.id = other.id) :
    insertAccepted env user message messages ↔ insertAccepted env user other messages := by
  have key : messages.keyFor (unstored env user message).toRow =
      messages.keyFor (unstored env user other).toRow := by
    show (if message.id = 0 then _ else message.id) = if other.id = 0 then _ else other.id
    rw [same]
  unfold insertAccepted Table.Insertable
  rw [key]
  exact Iff.rfl

/-- Only the id of a message and its way decide whether it is handed over. -/
theorem handsOver_congr (same : message.id = other.id) (way : message.async = other.async) :
    HandsOver env user message channel messages ↔ HandsOver env user other channel messages := by
  unfold HandsOver
  rw [insertAccepted_congr same, way]

/-- A table that stays as it is has stored nothing. -/
theorem effectOf_stored_unchanged {before : Messages} {outcome : Outcome}
    (table : outcome.messages = before) : (effectOf before outcome).stored = ∅ := by
  ext copy
  simp only [effectOf, table, Set.mem_ofPred_eq, Set.mem_empty_iff_false, iff_false]
  rintro ⟨row, fresh, there, -⟩
  rw [fresh] at there
  cases there

/-- Without a delivery and a row there is no effect. -/
theorem effectOf_unchanged {before : Messages} {outcome : Outcome} (handed : outcome.handed = none)
    (table : outcome.messages = before) : effectOf before outcome = .nothing := by
  apply Effect.ext
  · rw [effectOf, handed]
    rfl
  · exact effectOf_stored_unchanged table

/-- What is not handed over is not stored either, for a message without an id. -/
theorem effectOf_stays (unset : message.id = 0) (sync : message.async = false)
    (stays : ¬ HandsOver env user message channel messages) :
    effectOf messages (saveAndSendMessage env user message channel messages) = .nothing := by
  have handed : (saveAndSendMessage env user message channel messages).handed = none :=
    Option.eq_none_iff_forall_ne_some.mpr fun call handed =>
      stays ((handed_isSome_iff env user message channel messages).mp ⟨call, handed⟩)
  refine effectOf_unchanged handed ?_
  by_cases off : channel.status ≠ channelStatusEnabled ∨ ¬ persists env user
  · exact (saveAndSendMessage_unstored message messages off).1
  · obtain ⟨enabled, stored⟩ : channel.status = channelStatusEnabled ∧ persists env user := by
      simpa using off
    have refused : ¬ insertAccepted env user message messages :=
      fun accepted => stays ⟨enabled, sync, fun _ => accepted⟩
    rw [(saveAndSendMessage_refused enabled stored refused).1]
    simp [Message.updateStatus, unset]

/-- What is handed over is the message, and it is stored exactly for a user whose messages are. -/
theorem effectOf_goes (goes : HandsOver env user message channel messages) :
    effectOf messages (saveAndSendMessage env user message channel messages) =
      ⟨some (copyOf user.id message),
        if persists env user then {copyOf user.id message} else ∅⟩ := by
  obtain ⟨enabled, sync, accepts⟩ := goes
  by_cases stored : persists env user
  · obtain ⟨key, status, fresh, there, others, -, handed⟩ :=
      saveAndSendMessage_row enabled stored (accepts stored)
    have now : sendNow (insertedAs env user message key) user channel =
        some ⟨insertedAs env user message key, user, channel⟩ := by
      show (if message.async then none else _) = _
      rw [sync]
      rfl
    ext copy
    · simp only [effectOf, handed, now]
      rfl
    · simp only [effectOf, if_pos stored, Set.mem_ofPred_eq, Set.mem_singleton_iff]
      constructor
      · rintro ⟨row, new, found, rfl⟩
        by_cases same : row.id = key
        · rw [same, there] at found
          cases found
          rfl
        · rw [others _ same, new] at found
          cases found
      · rintro rfl
        exact ⟨(insertedAs env user message key).toRow.setStatus status, fresh, there, rfl⟩
  · have off : channel.status ≠ channelStatusEnabled ∨ ¬ persists env user := .inr stored
    have table := (saveAndSendMessage_unstored message messages off).1
    apply Effect.ext
    · simp [effectOf, saveAndSendMessage, enabled, stored, sync, sendNow, linkMessage, copyOf]
    · rw [effectOf_stored_unchanged table, if_neg stored]

end Effects

/-! ### What the editor makes of a content -/

/-- The types whose content is fenced in mode `code`. -/
def plainType (lower : String → String) (msgType : String) : Prop :=
  lower (Text.trimSpace msgType) = "" ∨ lower (Text.trimSpace msgType) = "text"

instance (lower : String → String) (msgType : String) : Decidable (plainType lower msgType) :=
  inferInstanceAs (Decidable (_ ∨ _))

/-- The stored message is fenced when it goes through the push handler. -/
def isFenced (lower : String → String) (row : MessageRow) : Prop :=
  row.renderMode = "code" ∧ plainType lower row.msgType ∧ row.content ≠ ""

/-- The content that the editor posts. -/
def postedContent (row : MessageRow) : String :=
  if row.msgType = "" then row.content else jsTrim row.content

/-- The editor posts the message: it has something to send, which is a JSON object when the
message has a type. -/
def EditorPosts (row : MessageRow) : Prop :=
  (row.description ≠ "" ∨ row.content ≠ "") ∧
    (row.msgType = "" ∨ ∃ members, jsonParse (jsTrim row.content) = some (.object members))

/-- The message as the push handler gets it from the editor. -/
def editedMessage (browser : Browser) (token : String) (row : MessageRow) : Message where
  userId := browser.readBack row.userId
  title := row.title
  description := row.description
  content := postedContent row
  url := row.url
  channel := row.channel
  token := token
  timestamp := browser.readBack row.timestamp
  link := row.link
  to_ := row.to_
  status := browser.readBack row.status
  renderMode := row.renderMode
  msgType := row.msgType

/-- The content that the push handler passes on. -/
def editedContent (env : Environment) (row : MessageRow) : String :=
  renderedContent env { Message.ofRow row with content := postedContent row }

/-- A text that begins with no space is trimmed at its end only. -/
theorem dropWhile_isJsSpace {first : Char} (text : List Char) (solid : isJsSpace first = false) :
    (first :: text).dropWhile isJsSpace = first :: text := by
  simp [solid]

/-- A fenced text has no white space around it. -/
theorem jsTrim_codeFence (text : String) : jsTrim (codeFence text) = codeFence text := by
  have solid : isJsSpace '`' = false := by decide
  have front : (codeFence text).toList =
      '`' :: '`' :: '`' :: '\n' :: (text.toList ++ ['\n', '`', '`', '`']) := by
    simp [codeFence, String.toList_append]
  have back : (codeFence text).toList.reverse =
      '`' :: '`' :: '`' :: '\n' :: (text.toList.reverse ++ ['\n', '`', '`', '`']) := by
    simp [front]
  rw [jsTrim, front, dropWhile_isJsSpace _ solid, ← front, back, dropWhile_isJsSpace _ solid,
    ← back, List.reverse_reverse, String.ofList_toList]

/-- A fence takes eight characters. -/
theorem length_codeFence (text : String) : (codeFence text).length = text.length + 8 := by
  have opening : ("```\n" : String).length = 4 := by decide
  have closing : ("\n```" : String).length = 4 := by decide
  rw [codeFence, String.length_append, String.length_append, opening, closing]
  omega

/-- A fence makes a text longer. -/
theorem codeFence_ne (text : String) : codeFence text ≠ text := by
  intro same
  have length := congrArg String.length same
  rw [length_codeFence] at length
  omega

/-- The editor keeps a content that is not fenced and, in JSON mode, has no white space around
it; and no other. -/
theorem editedContent_eq_iff (env : Environment) (row : MessageRow) :
    editedContent env row = row.content ↔
      ¬ isFenced env.toLower row ∧ (row.msgType = "" ∨ jsTrim row.content = row.content) := by
  have posted : postedContent row = row.content ↔
      row.msgType = "" ∨ jsTrim row.content = row.content := by
    unfold postedContent
    split_ifs with untyped
    · simp [untyped]
    · simp [untyped]
  rw [← posted]
  have rendered : editedContent env row =
      if row.renderMode = "code" ∧ plainType env.toLower row.msgType ∧ postedContent row ≠ "" then
        codeFence (postedContent row)
      else postedContent row := rfl
  rw [rendered]
  split_ifs with fenced
  · constructor
    · intro same
      have trimmed : jsTrim row.content = row.content := by
        rw [← same]
        exact jsTrim_codeFence _
      have kept : postedContent row = row.content := posted.mpr (.inr trimmed)
      rw [kept] at same
      exact absurd same (codeFence_ne _)
    · rintro ⟨unfenced, kept⟩
      rw [kept] at fenced
      exact absurd fenced unfenced
  · constructor
    · intro kept
      rw [kept] at fenced
      exact ⟨fenced, kept⟩
    · exact fun both => both.2

/-! ### What the editor posts -/

/-- The data of the form, once its content is decided. -/
def editedData (token : String) (row : MessageRow) : Message :=
  { (loadMessage (Message.ofRow row)).inputs with content := postedContent row, token }

/-- The request that the editor makes. -/
def editorPush (browser : Browser) (token : String) (row : MessageRow) (username : String) :
    PushRequest :=
  { username, body := some (messageData browser (editedData token row)) }

/-- The content is accepted without a type, or as a JSON object. -/
theorem msgContent_eq_ok_iff {browser : Browser} {row : MessageRow} {content : String} :
    (loadMessage (Message.ofRow row)).msgContent browser = .ok content ↔
      (row.msgType = "" ∨
          ∃ members, jsonParse (jsTrim row.content) = some (.object members)) ∧
        content = postedContent row := by
  have held : (loadMessage (Message.ofRow row)).inputs.content = row.content := rfl
  have mode : (loadMessage (Message.ofRow row)).jsonMode = decide (row.msgType ≠ "") := rfl
  unfold Editor.msgContent
  rw [held, mode]
  by_cases untyped : row.msgType = ""
  · have posted : postedContent row = row.content := if_pos untyped
    simp only [untyped, ne_eq, not_true_eq_false, decide_false, if_true, Except.ok.injEq, true_or,
      true_and, posted]
    exact eq_comm
  have posted : postedContent row = jsTrim row.content := if_neg untyped
  have typed : ¬ decide (row.msgType ≠ "") = false := by simp [untyped]
  simp only [if_neg typed, untyped, false_or, posted]
  by_cases empty : jsTrim row.content = ""
  · have nothing : jsonParse "" = none := by decide
    simp [empty, nothing]
  rw [if_neg empty]
  cases parsed : jsonParse (jsTrim row.content) with
  | none => simp
  | some value =>
      cases value with
      | object members =>
          simp only [Except.ok.injEq, Option.some.injEq, Json.object.injEq, exists_eq', true_and]
          exact eq_comm
      | _ => simp

/-- `send` posts exactly what has a text and, with a type, is a JSON object. -/
theorem send_eq_some_iff {browser : Browser} {user : User} {row : MessageRow} {body : Json} :
    ((loadMessage (Message.ofRow row)).send browser user).toOption.join = some body ↔
      EditorPosts row ∧ body = messageData browser (editedData user.token row) := by
  have description : (loadMessage (Message.ofRow row)).inputs.description = row.description := rfl
  have content : (loadMessage (Message.ofRow row)).inputs.content = row.content := rfl
  unfold Editor.send EditorPosts
  rw [description, content]
  by_cases blank : row.description = "" ∧ row.content = ""
  · simp [blank, pure, Except.pure, Except.toOption]
  have some_ : row.description ≠ "" ∨ row.content ≠ "" := by
    rw [← not_and_or]
    exact blank
  simp only [if_neg blank, some_, true_and]
  cases checked : (loadMessage (Message.ofRow row)).msgContent browser with
  | error text =>
      have refused : ¬ (row.msgType = "" ∨
          ∃ members, jsonParse (jsTrim row.content) = some (.object members)) := fun accepted => by
        have passed : (loadMessage (Message.ofRow row)).msgContent browser =
            .ok (postedContent row) := msgContent_eq_ok_iff.mpr ⟨accepted, rfl⟩
        rw [checked] at passed
        cases passed
      simp [refused, bind, Except.bind, Except.toOption]
  | ok posted =>
      obtain ⟨accepted, rfl⟩ := msgContent_eq_ok_iff.mp checked
      simp only [accepted, bind, Except.bind, pure, Except.pure, Except.toOption, Option.join_some,
        Option.some.injEq, true_and]
      exact eq_comm

/-- What is posted has a text. -/
theorem EditorPosts.some_text {row : MessageRow} (posts : EditorPosts row) :
    row.description ≠ "" ∨ postedContent row ≠ "" := by
  obtain ⟨some_, accepted⟩ := posts
  rcases some_ with description | content
  · exact .inl description
  · refine .inr ?_
    unfold postedContent
    split_ifs with untyped
    · exact content
    · obtain ⟨members, parsed⟩ := accepted.resolve_left untyped
      intro empty
      have nothing : jsonParse "" = none := by decide
      rw [empty, nothing] at parsed
      cases parsed

/-- The alias fields are blank, so nothing is filled in. -/
theorem keepCompatible_of_blank {message : Message} (short : message.short = "")
    (desp : message.desp = "") (openId : message.openId = "") : keepCompatible message = message := by
  have description : (if message.description = "" then "" else message.description) =
      message.description := ite_eq_right_iff.mpr Eq.symm
  have content : (if message.content = "" then "" else message.content) = message.content :=
    ite_eq_right_iff.mpr Eq.symm
  have target : (if message.to_ = "" then "" else message.to_) = message.to_ :=
    ite_eq_right_iff.mpr Eq.symm
  rw [keepCompatible, short, desp, openId, description, content, target]
  cases message
  cases short
  cases desp
  cases openId
  rfl

/-- The handler gets the message when its numbers fit. -/
theorem decodePush_edited_iff {env : Environment} {browser : Browser} {row : MessageRow}
    {token username : String} {message : Message}
    (zero : browser.numberText 0 = "0")
    (lower : env.toLower "application/json" = "application/json") (posts : EditorPosts row) :
    decodePush env (editorPush browser token row username) = .ok message ↔
      NumbersRead browser (editedData token row) ∧ message = editedMessage browser token row := by
  have json : Text.contains (env.toLower "application/json") "application/json" = true := by
    rw [lower]
    decide
  have number : browser.readBack 0 = 0 := by
    rw [Browser.readBack, zero]
    decide
  have decoded : ∀ read : NumbersRead browser (editedData token row),
      Json.decodeInto Message.jsonFields (some (messageData browser (editedData token row))) {} =
        some (editedMessage browser token row) := by
    intro read
    rw [decodeInto_messageData, if_pos read]
    show some (Message.mk (browser.readBack 0) _ _ _ _ _ _ _ _ _ _ _ _ _ _ _ _ _ _ _) = _
    rw [number]
    rfl
  have blankToken : ∀ message : Message,
      (if message.token = "" then { message with token := "" } else message) = message := by
    intro message
    split_ifs with unset
    · rw [← unset]
    · rfl
  have compatible : keepCompatible (editedMessage browser token row) =
      editedMessage browser token row := keepCompatible_of_blank rfl rfl rfl
  have texts : editedMessage browser token row ≠ {} := by
    intro empty
    rcases posts.some_text with description | content
    · exact description (congrArg Message.description empty)
    · exact content (congrArg Message.content empty)
  unfold decodePush postPushMessage editorPush
  simp only [if_true, json, bind, Except.bind, pure, Except.pure]
  by_cases read : NumbersRead browser (editedData token row)
  · simp only [decoded read, texts, if_false, blankToken, compatible, Except.ok.injEq, read,
      true_and]
    exact eq_comm
  · rw [decodeInto_messageData, if_neg read]
    simp only [read, reduceCtorEq, false_and]

/-! ### What is admitted -/

/-- The stored message as a resend hands it over. -/
def storedMessage (row : MessageRow) : Message := { Message.ofRow row with id := 0 }

/-- A resend is let through to the channel of the stored name, with the stored message. -/
theorem admitResend_eq_ok_iff {failure : Option String} {users : Users} {channels : Channels}
    {messages : Messages} {userId : Int} {idParam : String} {row : MessageRow} {user other : User}
    {message : Message} {channel : Model.Channel}
    (loaded : getMessageByIds messages (Text.parseInt idParam).1 userId = .ok (Message.ofRow row))
    (owner : getUserById users userId true = .ok user) :
    admitResend failure users channels messages userId idParam = .ok (other, message, channel) ↔
      failure = none ∧ getChannelByName channels row.channel user.id = .ok channel ∧
        other = user ∧ message = storedMessage row := by
  have known : ¬ ((Text.parseInt idParam).1 = 0 ∨ userId = 0) := by
    intro blank
    rw [getMessageByIds, if_pos blank] at loaded
    cases loaded
  have route : (Message.ofRow row).channel = row.channel := rfl
  unfold admitResend
  rw [if_neg known]
  cases failure with
  | some text => simp
  | none =>
      simp only [bind, Except.bind, pure, Except.pure, loaded, owner, Except.mapError, route,
        true_and]
      cases getChannelByName channels row.channel user.id with
      | error text => simp
      | ok found =>
          simp only [Except.ok.injEq, Prod.mk.injEq, storedMessage]
          constructor
          · rintro ⟨rfl, rfl, rfl⟩
            exact ⟨rfl, rfl, rfl⟩
          · rintro ⟨rfl, rfl, rfl⟩
            exact ⟨rfl, rfl, rfl⟩

/-- A push is let through its three stages. -/
theorem admitPush_of_stages {env : Environment} {users : Users} {channels : Channels}
    {request : PushRequest} {read next message : Message} {user : User} {channel : Model.Channel}
    (decoded : decodePush env request = .ok read)
    (passed : pushUser env users request read = .ok (user, next))
    (prepared : prepareMessage env channels next user true = .ok (message, channel)) :
    admitPush env users channels request = .ok (user, message, channel) := by
  simp only [admitPush, decoded, passed, prepared, bind, Except.bind, pure, Except.pure]

/-- A request that the editor makes is admitted as the message that it posted, fenced when the
push handler fences it. -/
theorem admitPush_edited_iff {env : Environment} {browser : Browser} {users : Users}
    {channels : Channels} {row : MessageRow} {token username : String} {other : User}
    {message : Message} {channel : Model.Channel} (zero : browser.numberText 0 = "0")
    (lower : env.toLower "application/json" = "application/json") (posts : EditorPosts row) :
    admitPush env users channels (editorPush browser token row username) =
        .ok (other, message, channel) ↔
      NumbersRead browser (editedData token row) ∧ findUser env users username = .ok other ∧
        other.status ≠ userStatusNonExisted ∧ other.status ≠ userStatusDisabled ∧
        env.faults.readChannel = false ∧
        getChannelByName channels (routeOf (storedMessage row) other) other.id = .ok channel ∧
        authMessage token other.token channel.token = true ∧
        message = { addressed env (editedMessage browser token row) other with
          content := editedContent env row } := by
  have held : ∀ request : PushRequest, request.authorization = "" →
      ({ editedMessage browser token row with
        token := heldToken request (editedMessage browser token row) } : Message) =
        editedMessage browser token row := by
    intro request unset
    have same : heldToken request (editedMessage browser token row) = token := by
      show (if token = "" then Text.trimPrefix request.authorization "Bearer " else token) = token
      rw [unset]
      split_ifs with blank
      · rw [blank]
        decide
      · rfl
    rw [same]
    rfl
  constructor
  · intro admitted
    obtain ⟨read, next, decoded, passed, prepared⟩ := admitPush_ok admitted
    obtain ⟨numbers, rfl⟩ := (decodePush_edited_iff zero lower posts).mp decoded
    obtain ⟨found, present, enabled, rfl⟩ := pushUser_ok_iff.mp passed
    rw [held _ rfl] at prepared
    obtain ⟨working, route, authorised, rfl⟩ := prepareMessage_ok_iff.mp prepared
    exact ⟨numbers, found, present, enabled, working, route, authorised rfl, rfl⟩
  · rintro ⟨numbers, found, present, enabled, working, route, authorised, rfl⟩
    refine admitPush_of_stages ((decodePush_edited_iff zero lower posts).mpr ⟨numbers, rfl⟩)
      (pushUser_ok_iff.mpr ⟨found, present, enabled, rfl⟩) ?_
    rw [held _ rfl]
    exact prepareMessage_ok_iff.mpr ⟨working, route, fun _ => authorised, rfl⟩

/-! ### The two ways -/

section Ways

variable (given : Situation) (row : MessageRow) (user : User)

/-- The resend hands the message over. -/
def ResendGoes : Prop :=
  given.failure = none ∧ ∃ channel,
    getChannelByName given.channels row.channel user.id = .ok channel ∧
      HandsOver given.env user (storedMessage row) channel given.messages

/-- The push of the editor is admitted for `other` and hands the message over. -/
def EditorGoesFor (other : User) : Prop :=
  given.failure = none ∧ EditorPosts row ∧
    NumbersRead given.browser (editedData (shownToken user) row) ∧
    (∃ username, given.browser.pathName user.username = some username ∧
      findUser given.env given.users username = .ok other) ∧
    other.status ≠ userStatusNonExisted ∧ other.status ≠ userStatusDisabled ∧
    given.env.faults.readChannel = false ∧ ∃ channel,
      getChannelByName given.channels (routeOf (storedMessage row) other) other.id = .ok channel ∧
        authMessage (shownToken user) other.token channel.token = true ∧
        HandsOver given.env other (storedMessage row) channel given.messages

/-- The editor sends on behalf of somebody. -/
def EditorGoes : Prop := ∃ other, EditorGoesFor given row user other

/-- The fields survive the editor: the path reaches the handler with the user's own name, a title
is not filled in, the content is not fenced again and, in JSON mode, not trimmed. -/
def KeptByEditor : Prop :=
  given.browser.pathName user.username = some user.username ∧
    (row.title ≠ "" ∨ given.env.settings.systemName = "") ∧
    ¬ isFenced given.env.toLower row ∧ (row.msgType = "" ∨ jsTrim row.content = row.content)

/-- What the push handler passes on for the editor. -/
def editedCopy (other : User) : Copy where
  userId := other.id
  title := if row.title = "" then given.env.settings.systemName else row.title
  description := row.description
  content := editedContent given.env row
  to_ := row.to_
  channel := routeOf (storedMessage row) other
  renderMode := row.renderMode
  msgType := row.msgType

/-- The effect of handing a copy over. -/
def effectFor (other : User) (copy : Copy) : Effect :=
  ⟨some copy, if persists given.env other then {copy} else ∅⟩

variable {given row user}

/-- The row of a user and its brief form. -/
theorem getUserById_whole {users : Users} {id : Int} {user : User}
    (loaded : getUserById users id true = .ok user) :
    user ∈ users.rows ∧ getUserById users id false = .ok user.brief := by
  unfold getUserById at loaded ⊢
  by_cases unset : id = 0
  · simp [unset] at loaded
  cases found : users.rowAt id with
  | none => simp [unset, found] at loaded
  | some row =>
      simp only [unset, found, if_false, if_true, Except.ok.injEq] at loaded ⊢
      exact ⟨loaded ▸ Table.rowAt_mem found, by rw [if_neg Bool.false_ne_true, loaded]⟩

/-- A resend has the effect of the stored message, or none. -/
theorem resent_effect (loaded : given.loaded = .ok (Message.ofRow row))
    (owner : getUserById given.users given.userId true = .ok user) :
    (ResendGoes given row user → effectOf given.messages given.resent =
        effectFor given user (copyOf user.id (storedMessage row))) ∧
      (¬ ResendGoes given row user → effectOf given.messages given.resent = .nothing) := by
  have decided := @admitResend_eq_ok_iff given.failure given.users given.channels given.messages
    given.userId given.idParam row user
  rw [Situation.resent, resendMessage_eq]
  cases admitted : admitResend given.failure given.users given.channels given.messages given.userId
      given.idParam with
  | error refusal =>
      have stays : ¬ ResendGoes given row user := by
        rintro ⟨working, channel, route, -⟩
        have passed := (decided loaded owner).mpr ⟨working, route, rfl, rfl⟩
        rw [admitted] at passed
        cases passed
      exact ⟨fun goes => absurd goes stays, fun _ => effectOf_unchanged rfl rfl⟩
  | ok call =>
      obtain ⟨other, message, channel⟩ := call
      obtain ⟨working, route, rfl, rfl⟩ := (decided loaded owner).mp admitted
      have same : ResendGoes given row other ↔
          HandsOver given.env other (storedMessage row) channel given.messages := by
        simp [ResendGoes, working, route]
      rw [same]
      exact ⟨effectOf_goes, effectOf_stays rfl rfl⟩

/-- The request that the editor sends. -/
theorem editorRequest_eq_some_iff (loaded : given.loaded = .ok (Message.ofRow row))
    (owner : getUserById given.users given.userId true = .ok user) {request : PushRequest} :
    given.editorRequest = some request ↔
      given.failure = none ∧ EditorPosts row ∧ ∃ username,
        given.browser.pathName user.username = some username ∧
          request = editorPush given.browser (shownToken user) row username := by
  have self : getUserById given.users given.userId false = .ok user.brief :=
    (getUserById_whole owner).2
  have name : (loadUser user.brief).username = user.username := rfl
  have token : (loadUser user.brief).token = shownToken user := rfl
  unfold Situation.editorRequest
  cases given.failure with
  | some text => simp
  | none =>
      have first : (Except.ok (Message.ofRow row) : Except String Message).toOption =
        some (Message.ofRow row) := rfl
      have second : (Except.ok user.brief : Except String User).toOption = some user.brief := rfl
      simp only [loaded, self, first, second, Option.bind_eq_bind, Option.bind_some,
        Option.bind_eq_some_iff, send_eq_some_iff, postPush, name, token, Option.map_eq_some_iff,
        true_and]
      constructor
      · rintro ⟨body, ⟨posts, rfl⟩, username, path, rfl⟩
        exact ⟨posts, username, path, rfl⟩
      · rintro ⟨posts, username, path, rfl⟩
        exact ⟨_, ⟨posts, rfl⟩, username, path, rfl⟩

/-- An admitted push is for one user only, and hands over what the resend would. -/
theorem editorGoesFor_iff (zero : given.browser.numberText 0 = "0")
    (lower : given.env.toLower "application/json" = "application/json")
    (working : given.failure = none) (posts : EditorPosts row) {username : String}
    (path : given.browser.pathName user.username = some username) {other third : User}
    {message : Message} {channel : Model.Channel}
    (admitted : admitPush given.env given.users given.channels
      (editorPush given.browser (shownToken user) row username) = .ok (other, message, channel)) :
    EditorGoesFor given row user third ↔ third = other ∧
      HandsOver given.env other message channel given.messages := by
  obtain ⟨numbers, found, present, enabled, reads, route, authorised, sent⟩ :=
    (admitPush_edited_iff zero lower posts).mp admitted
  have sameId : message.id = (storedMessage row).id := by
    rw [sent]
    rfl
  have sameWay : message.async = (storedMessage row).async := by
    rw [sent]
    rfl
  rw [handsOver_congr sameId sameWay]
  constructor
  · rintro ⟨-, -, -, ⟨name, samePath, again⟩, -, -, -, chosen, sameRoute, -, goes⟩
    obtain rfl : username = name := Option.some.inj (path.symm.trans samePath)
    obtain rfl : other = third := Except.ok.inj (found.symm.trans again)
    obtain rfl : channel = chosen := Except.ok.inj (route.symm.trans sameRoute)
    exact ⟨rfl, goes⟩
  · rintro ⟨rfl, goes⟩
    exact ⟨working, posts, numbers, ⟨username, path, found⟩, present, enabled, reads, channel,
      route, authorised, goes⟩

/-- A push that goes through was admitted. -/
theorem EditorGoesFor.admitted {other : User} (goes : EditorGoesFor given row user other)
    (zero : given.browser.numberText 0 = "0")
    (lower : given.env.toLower "application/json" = "application/json") {username : String}
    (path : given.browser.pathName user.username = some username) :
    ∃ call, admitPush given.env given.users given.channels
      (editorPush given.browser (shownToken user) row username) = .ok call := by
  obtain ⟨-, posts, numbers, ⟨name, samePath, found⟩, present, enabled, reads, channel, route,
    authorised, -⟩ := goes
  obtain rfl : username = name := Option.some.inj (path.symm.trans samePath)
  exact ⟨_, (admitPush_edited_iff zero lower posts).mpr
    ⟨numbers, found, present, enabled, reads, route, authorised, rfl⟩⟩

/-- The editor has the effect of the message that it sends, or none. -/
theorem edited_effect (zero : given.browser.numberText 0 = "0")
    (lower : given.env.toLower "application/json" = "application/json")
    (loaded : given.loaded = .ok (Message.ofRow row))
    (owner : getUserById given.users given.userId true = .ok user) :
    (∀ other, EditorGoesFor given row user other → effectOf given.messages given.edited =
        effectFor given other (editedCopy given row other)) ∧
      (¬ EditorGoes given row user → effectOf given.messages given.edited = .nothing) := by
  have requested := fun request => @editorRequest_eq_some_iff given row user loaded owner request
  unfold Situation.edited
  cases made : given.editorRequest with
  | none =>
      refine ⟨fun other goes => ?_, fun _ => effectOf_unchanged rfl rfl⟩
      obtain ⟨working, posts, -, ⟨username, path, -⟩, -⟩ := goes
      have request := (requested _).mpr ⟨working, posts, username, path, rfl⟩
      rw [made] at request
      cases request
  | some request =>
      obtain ⟨working, posts, username, path, rfl⟩ := (requested request).mp made
      dsimp only
      rw [pushMessage_eq]
      cases admitted : admitPush given.env given.users given.channels
          (editorPush given.browser (shownToken user) row username) with
      | error refusal =>
          refine ⟨fun other goes => ?_, fun _ => effectOf_unchanged rfl rfl⟩
          obtain ⟨call, passed⟩ := goes.admitted zero lower path
          rw [admitted] at passed
          cases passed
      | ok call =>
          obtain ⟨other, message, channel⟩ := call
          have only : ∀ third, EditorGoesFor given row user third ↔ third = other ∧
              HandsOver given.env other message channel given.messages :=
            fun third => editorGoesFor_iff zero lower working posts path admitted
          obtain ⟨-, -, -, -, -, -, -, sent⟩ := (admitPush_edited_iff zero lower posts).mp admitted
          constructor
          · intro third goes
            obtain ⟨rfl, handed⟩ := (only third).mp goes
            have sameCopy : copyOf third.id message = editedCopy given row third := by
              rw [sent]
              rfl
            have effect := effectOf_goes handed
            rw [sameCopy] at effect
            exact effect
          · intro stays
            refine effectOf_stays ?_ ?_ fun handed => stays ⟨other, (only other).mpr ⟨rfl, handed⟩⟩
            · rw [sent]
              rfl
            · rw [sent]
              rfl

/-- The editor and the resend hand over the same fields exactly when the fields survive. -/
theorem editedCopy_eq_iff {other : User} {username : String} (known : user ∈ given.users.rows)
    (member : other ∈ given.users.rows) (reached : other.username = username)
    (path : given.browser.pathName user.username = some username) (named : row.channel ≠ "") :
    editedCopy given row other = copyOf user.id (storedMessage row) ↔
      KeptByEditor given row user := by
  have title : (if row.title = "" then given.env.settings.systemName else row.title) = row.title ↔
      row.title ≠ "" ∨ given.env.settings.systemName = "" := by
    by_cases blank : row.title = ""
    · simp [blank]
    · simp [blank]
  have content := editedContent_eq_iff given.env row
  constructor
  · intro same
    obtain rfl : other = user :=
      Table.eq_of_id_eq given.users member known (congrArg Copy.userId same)
    exact ⟨by rw [path, reached], title.mp (congrArg Copy.title same),
      content.mp (congrArg Copy.content same)⟩
  · rintro ⟨own, kept, whole⟩
    obtain rfl : username = user.username := Option.some.inj (path.symm.trans own)
    obtain rfl : other = user := Table.eq_of_clash given.users member known
      (by simp [Record.clash, reached])
    have routed : routeOf (storedMessage row) other = row.channel := if_neg named
    rw [editedCopy, routed, content.mpr whole, title.mpr kept]
    rfl

/-- Sending a stored message again through the editor has the effect of a resend exactly when both
or neither go through and, if they do, the fields survive the editor. -/
theorem edited_effect_eq_iff (zero : given.browser.numberText 0 = "0")
    (lower : given.env.toLower "application/json" = "application/json")
    (loaded : given.loaded = .ok (Message.ofRow row))
    (owner : getUserById given.users given.userId true = .ok user) :
    effectOf given.messages given.edited = effectOf given.messages given.resent ↔
      (ResendGoes given row user ↔ EditorGoes given row user) ∧
        (ResendGoes given row user → KeptByEditor given row user) := by
  obtain ⟨resends, keeps⟩ := resent_effect loaded owner
  obtain ⟨edits, rests⟩ := edited_effect zero lower loaded owner
  have known := (getUserById_whole owner).1
  by_cases resend : ResendGoes given row user
  · rw [resends resend]
    by_cases editor : EditorGoes given row user
    · obtain ⟨other, goes⟩ := editor
      rw [edits other goes]
      simp only [resend, true_implies, show EditorGoes given row user from ⟨other, goes⟩,
        true_and]
      have named : row.channel ≠ "" := by
        obtain ⟨-, channel, route, -⟩ := resend
        intro blank
        rw [getChannelByName, if_pos (.inl blank)] at route
        cases route
      obtain ⟨-, -, -, ⟨username, path, found⟩, present, -⟩ := goes
      have copies := @editedCopy_eq_iff given row user other username known
        (findUser_mem found present).2 (findUser_username found) path named
      rw [← copies]
      constructor
      · exact fun same => Option.some.inj (congrArg Effect.delivered same)
      · intro same
        obtain rfl : other = user := Table.eq_of_id_eq given.users (findUser_mem found present).2
          known (congrArg Copy.userId same)
        rw [same]
    · rw [rests editor]
      simp only [resend, editor, iff_false, not_true_eq_false, false_and, iff_false]
      intro same
      cases congrArg Effect.delivered same
  · rw [keeps resend]
    by_cases editor : EditorGoes given row user
    · simp only [resend, editor, false_iff, not_true_eq_false, false_and, iff_false]
      obtain ⟨other, goes⟩ := editor
      rw [edits other goes]
      intro same
      cases congrArg Effect.delivered same
    · simp [rests editor, resend, editor]

end Ways

/-! ### Copies of copies -/

/-- The two ways to send a message again. -/
inductive Way where
  | resend
  | editor
deriving DecidableEq

/-- A message sent again one way or the other. -/
def Situation.sendAgain (given : Situation) : Way → Outcome
  | .resend => given.resent
  | .editor => given.edited

/-- A stored message of a user is opened. Zero is written `0`, and `strings.ToLower` leaves the
content type of the browser alone. -/
structure Opens (given : Situation) (row : MessageRow) (user : User) : Prop where
  zero : given.browser.numberText 0 = "0"
  lower : given.env.toLower "application/json" = "application/json"
  loaded : given.loaded = .ok (Message.ofRow row)
  owner : getUserById given.users given.userId true = .ok user

/-- The second row is a copy of the first, whose status may have changed since, that was stored
when it was sent again. -/
inductive CopiedBy (lower : String → String) (way : Way) (before after : MessageRow) : Prop where
  | mk {given : Situation} {user : User} {status : Int}
      (opens : Opens given (before.setStatus status) user) (lowers : given.env.toLower = lower)
      (fresh : given.messages.rowAt after.id = none)
      (stored : (given.sendAgain way).messages.rowAt after.id = some after)

/-- Copies of copies, with the ways they were made. -/
inductive CopiedAlong (lower : String → String) (first : MessageRow) :
    List Way → MessageRow → Prop where
  | refl : CopiedAlong lower first [] first
  | step {ways before way after} (prior : CopiedAlong lower first ways before)
      (again : CopiedBy lower way before after) : CopiedAlong lower first (ways ++ [way]) after

/-- What one copy has of the row it was made from. -/
theorem CopiedBy.fields {lower : String → String} {way : Way} {before after : MessageRow}
    (copied : CopiedBy lower way before after) :
    after.renderMode = before.renderMode ∧ after.msgType = before.msgType ∧
      match way with
      | .resend => after.content = before.content
      | .editor => EditorPosts before ∧ after.content =
          if before.renderMode = "code" ∧ plainType lower before.msgType ∧
              postedContent before ≠ "" then codeFence (postedContent before)
          else postedContent before := by
  obtain @⟨given, user, status, opens, lowers, fresh, stored⟩ := copied
  have listed : copyOf after.userId (Message.ofRow after) ∈
      (effectOf given.messages (given.sendAgain way)).stored := ⟨after, fresh, stored, rfl⟩
  have only : ∀ {other : User} {copy : Copy},
      effectOf given.messages (given.sendAgain way) = effectFor given other copy →
        copyOf after.userId (Message.ofRow after) = copy := by
    intro other copy effect
    rw [effect, effectFor] at listed
    dsimp only at listed
    split_ifs at listed
    · exact listed
    · exact listed.elim
  have some_ : effectOf given.messages (given.sendAgain way) ≠ .nothing := by
    intro effect
    rw [effect] at listed
    exact listed
  cases way with
  | resend =>
      obtain ⟨resends, keeps⟩ := resent_effect opens.loaded opens.owner
      have goes := not_imp_comm.mp keeps some_
      have same := only (resends goes)
      exact ⟨congrArg Copy.renderMode same, congrArg Copy.msgType same,
        congrArg Copy.content same⟩
  | editor =>
      obtain ⟨edits, rests⟩ := edited_effect opens.zero opens.lower opens.loaded opens.owner
      obtain ⟨other, goes⟩ := not_imp_comm.mp rests some_
      have same := only (edits other goes)
      refine ⟨congrArg Copy.renderMode same, congrArg Copy.msgType same, goes.2.1, ?_⟩
      rw [← lowers]
      exact congrArg Copy.content same

/-- No JSON begins with a code fence. -/
theorem jsonParse_codeFence (text : String) : jsonParse (codeFence text) = none := by
  have front : (codeFence text).toList =
      '`' :: ("``\n".toList ++ text.toList ++ "\n```".toList) := by
    simp [codeFence, String.toList_append]
  have stuck : JsonText.Mode.idle.step '`' = ([], none) := rfl
  have tokens : JsonText.lex (codeFence text).toList = [.bad] := by
    rw [front, JsonText.lex, JsonText.lexFrom_stuck stuck]
    rfl
  rw [jsonParse, JsonText.decode, JsonText.syntaxTree, tokens]
  rfl

/-- Every copy is longer by a fence. -/
theorem length_iterate_codeFence (count : Nat) (text : String) :
    (codeFence^[count] text).length = text.length + 8 * count := by
  induction count with
  | zero => rfl
  | succ count ih =>
      rw [Function.iterate_succ_apply', length_codeFence, ih]
      omega

/-- Each copy that the editor made has one more fence. -/
theorem CopiedAlong.fenced {lower : String → String} {first last : MessageRow}
    {ways : List Way} {original : String} (mode : first.renderMode = "code")
    (plain : plainType lower first.msgType) (content : first.content = codeFence original)
    (along : CopiedAlong lower first ways last) :
    last.renderMode = "code" ∧ last.msgType = first.msgType ∧
      last.content = codeFence^[ways.count .editor + 1] original := by
  induction along with
  | refl => exact ⟨mode, rfl, content⟩
  | @step ways before way after prior again ih =>
      obtain ⟨modeBefore, typeBefore, contentBefore⟩ := ih
      obtain ⟨sameMode, sameType, change⟩ := again.fields
      refine ⟨sameMode.trans modeBefore, sameType.trans typeBefore, ?_⟩
      rw [List.count_append]
      cases way with
      | resend => exact change.trans contentBefore
      | editor =>
          obtain ⟨⟨-, accepted⟩, changed⟩ := change
          rw [Function.iterate_succ_apply'] at contentBefore
          have untyped : before.msgType = "" := by
            refine accepted.resolve_right ?_
            rintro ⟨members, parsed⟩
            rw [contentBefore, jsTrim_codeFence, jsonParse_codeFence] at parsed
            cases parsed
          have posted : postedContent before = before.content := if_pos untyped
          have some_ : before.content ≠ "" := by
            intro empty
            have length := congrArg String.length (contentBefore.symm.trans empty)
            rw [length_codeFence] at length
            cases length
          rw [posted, if_pos ⟨modeBefore, typeBefore ▸ plain, some_⟩, contentBefore] at changed
          have once : [Way.editor].count .editor = 1 := rfl
          rw [changed, once, Function.iterate_succ_apply', Function.iterate_succ_apply']

/-- The two ways of sending a stored message again agree on it exactly when both or neither go
through and, if they do, its fields survive the editor; and a fenced content stays fenced once
exactly as long as the editor is not used. -/
theorem sending_again_iff {given : Situation} {row : MessageRow} {user : User}
    (opens : Opens given row user) :
    (effectOf given.messages given.edited = effectOf given.messages given.resent ↔
      (ResendGoes given row user ↔ EditorGoes given row user) ∧
        (ResendGoes given row user → KeptByEditor given row user)) ∧
    ∀ last ways original, row.renderMode = "code" →
      plainType given.env.toLower row.msgType → row.content = codeFence original →
        CopiedAlong given.env.toLower row ways last →
          (last.content = codeFence original ↔ Way.editor ∉ ways) := by
  refine ⟨edited_effect_eq_iff opens.zero opens.lower opens.loaded opens.owner, ?_⟩
  intro last ways original mode plain content along
  obtain ⟨-, -, fences⟩ := along.fenced mode plain content
  rw [fences, ← List.count_eq_zero]
  constructor
  · intro same
    have length := congrArg String.length same
    rw [length_iterate_codeFence, length_codeFence] at length
    omega
  · intro none_
    rw [none_]
    rfl

/-! A message in mode `code`: its content `x` is stored in a fence, and fenced again. -/

/-- A message in the mode `code`, with its fence. -/
def codeRow : MessageRow where
  id := 1
  userId := 2
  title := "t"
  description := ""
  content := codeFence "x"
  url := "u"
  channel := "c"
  timestamp := 0
  link := "l"
  to_ := ""
  status := messageSendStatusSent
  renderMode := "code"
  msgType := ""
  extra := ""

/-- Its user opens it. -/
def codeSituation : Situation where
  env := { uuid := "fresh" }
  browser := { numberText := Text.itoa, parseError := fun _ => "", pathName := some }
  users := forgerUsers
  channels := forgerChannels
  messages :=
    { rows := [codeRow]
      counter := 1
      sorted := by decide
      unique := by decide
      counterNonneg := Int.one_nonneg
      bounded := by decide }
  userId := 2
  idParam := "1"

/-- The situation is as the theorem has it. -/
theorem codeSituation_opens : Opens codeSituation codeRow bob where
  zero := by decide
  lower := rfl
  loaded := rfl
  owner := rfl

/-- The editor fences the content once more, and a resend does not. -/
theorem editor_fences_again :
    Opens codeSituation codeRow bob ∧
      effectOf codeSituation.messages codeSituation.edited ≠
        effectOf codeSituation.messages codeSituation.resent := by
  refine ⟨codeSituation_opens, fun same => ?_⟩
  have edited : (codeSituation.edited.handed.map fun call => call.message.content.toList) =
      some (codeFence (codeFence "x")).toList := by decide
  have resent : (codeSituation.resent.handed.map fun call => call.message.content.toList) =
      some (codeFence "x").toList := by decide
  have delivered := congrArg (Option.map fun copy => copy.content.toList)
    (congrArg Effect.delivered same)
  simp only [effectOf, Option.map_map] at delivered
  have contents := edited.symm.trans (delivered.trans resent)
  exact absurd contents (by decide)

theorem sending_again_iff_fenced :
    (effectOf codeSituation.messages codeSituation.edited =
        effectOf codeSituation.messages codeSituation.resent ↔
      (ResendGoes codeSituation codeRow bob ↔ EditorGoes codeSituation codeRow bob) ∧
        (ResendGoes codeSituation codeRow bob → KeptByEditor codeSituation codeRow bob)) ∧
      (codeRow.content = codeFence "x" ↔ Way.editor ∉ []) :=
  ⟨(sending_again_iff codeSituation_opens).1,
    (sending_again_iff codeSituation_opens).2 codeRow [] "x" rfl (by decide) rfl .refl⟩

end MessagePusher.Delivery
