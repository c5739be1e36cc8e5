import MessagePusher.Channel.Replies
import MessagePusher.Delivery.GroupOutcome
import MessagePusher.Delivery.MessageStatus
import MessagePusher.Telegram.Posts

/-!
# What a sent message was confirmed by

A row says that its message is sent exactly when each sender of the delivery found its request
confirmed. Most services confirm with an error code in the body: their senders take a body without
one for a success, whatever the status code is, and the sender of Discord does so but for 400.
-/

namespace MessagePusher.Delivery

open Common Model Store Controller
open Channel
open Semantics.Cursor

/-! ### Telegram -/

section Telegram

variable {url : String} {request : TelegramMessageRequest} {replies : Channel.Replies}
  {passes : Nat} {err : Option String}

/-- The chunk of a pass was posted and accepted. -/
def PostedWell (request : TelegramMessageRequest) (replies : Channel.Replies) (pass : Nat) : Prop :=
  Telegram.HasChunk request pass ∧ replyOutcome (replies pass) = none

/-- A call that has not ended has posted a chunk with each pass, and each was accepted. -/
theorem postedWell_of_going
    (going : (sendPasses url request replies passes).outcome = none) :
    ∀ pass < passes, PostedWell request replies pass := by
  induction passes with
  | zero => exact fun pass before => absurd before (Nat.not_lt_zero _)
  | succ passes ih =>
      have before : (sendPasses url request replies passes).outcome = none := by
        by_contra ended
        rw [sendPasses, Telegram.step_ended ended] at going
        exact ended going
      obtain ⟨now, -⟩ := (Telegram.posted_sendPasses url request replies passes).going before
      rw [sendPasses, now, Telegram.step_inLoop] at going
      intro pass within
      rcases Nat.lt_succ_iff_lt_or_eq.mp within with earlier | rfl
      · exact ih before pass earlier
      · by_cases inside : Telegram.HasChunk request pass
        · rw [if_pos inside] at going
          exact ⟨inside, going⟩
        · rw [if_neg inside] at going
          cases going

/-- How a call that returned got there: it ran out of chunks, or one of them was not accepted. -/
theorem sendPasses_returned
    (returned : (sendPasses url request replies passes).outcome = some (.returned err)) :
    ∃ last, (∀ pass < last, PostedWell request replies pass) ∧
      (¬ Telegram.HasChunk request last ∧ err = none ∨
        Telegram.HasChunk request last ∧ replyOutcome (replies last) = some (.returned err)) := by
  induction passes with
  | zero => cases returned
  | succ passes ih =>
      rw [sendPasses] at returned
      by_cases going : (sendPasses url request replies passes).outcome = none
      · obtain ⟨now, -⟩ := (Telegram.posted_sendPasses url request replies passes).going going
        rw [now, Telegram.step_inLoop] at returned
        refine ⟨passes, postedWell_of_going going, ?_⟩
        by_cases inside : Telegram.HasChunk request passes
        · rw [if_pos inside] at returned
          exact .inr ⟨inside, returned⟩
        · rw [if_neg inside] at returned
          cases returned
          exact .inl ⟨inside, rfl⟩
      · rw [Telegram.step_ended going] at returned
        exact ih returned

theorem replyOutcome_ne_returned (reply : Except String TelegramMessageResponse) :
    replyOutcome reply ≠ some (.returned none) := by
  cases reply with
  | error text => exact fun same => by cases same
  | ok reply =>
      rw [replyOutcome]
      split_ifs
      · exact fun same => by cases same
      · exact fun same => by cases same

/-- A call that returns has no error exactly when every chunk of the text was accepted. -/
theorem returned_none_iff
    (returned : (sendPasses url request replies passes).outcome = some (.returned err)) :
    err = none ↔ ∀ pass, Telegram.HasChunk request pass → replyOutcome (replies pass) = none := by
  obtain ⟨last, before, ends⟩ := sendPasses_returned returned
  constructor
  · rintro rfl pass inside
    rcases ends with ⟨arrived, -⟩ | ⟨-, failed⟩
    · have earlier : pass < last := by
        by_contra behind
        exact arrived (lt_of_position_lt inside (Nat.not_lt.mp behind))
      exact (before pass earlier).2
    · exact absurd failed (replyOutcome_ne_returned _)
  · intro accepted
    rcases ends with ⟨-, none_⟩ | ⟨inside, failed⟩
    · exact none_
    · rw [accepted last inside] at failed
      cases failed

theorem replyOutcome_eq_none_iff {reply : Except String TelegramMessageResponse} :
    replyOutcome reply = none ↔ ∃ response, reply = .ok response ∧ response.ok = true := by
  cases reply with
  | error text => simp [replyOutcome]
  | ok response => cases done : response.ok <;> simp [replyOutcome, done]

end Telegram

/-! ### Requests -/

/-- What the request met is what its sender takes for success. -/
def Confirms (services : Services) (outgoing : Outgoing) : Prop :=
  match outgoing with
  | .nothing | .client .. => True
  | .panic => False
  | .email .. => services.mail outgoing = none
  | .weChatTest .. => Coded wechatTestMessageResponse
  | .weChatCorp .. => Coded wechatCorpMessageResponse
  | .corp .. => Coded corpMessageResponse
  | .lark .. => Coded larkMessageResponse
  | .ding .. => Coded dingMessageResponse
  | .bark .. => Coded barkMessageResponse
  | .tencentAlarm .. => Coded tencentAlarmResponse
  | .telegram _ chatId text parseMode =>
      ∀ pass, Telegram.HasChunk (telegramRequest chatId text parseMode) pass →
        ∃ statusCode status body reply,
          services.telegram outgoing pass = .answered statusCode status body ∧
            Json.decodeInto TelegramMessageResponse.jsonFields body ⟨false, ""⟩ = some reply ∧
            reply.ok = true
  | .discord .. => ∃ statusCode status body,
      services.reply outgoing = .answered statusCode status body ∧
        (statusCode = 204 ∨ (statusCode ≠ 400 ∧ discordMessageResponse.Takes body))
  | .oneBot .. => ∃ status body,
      services.reply outgoing = .answered 200 status body ∧ oneBotMessageResponse.Takes body
  | .larkApp .. => ∃ code msg, services.sdk outgoing = .answered true code msg
  | .custom .. => ∃ status body, services.reply outgoing = .answered 200 status body
where
  /-- Any status code will do. -/
  Coded (format : ReplyFormat) : Prop := ∃ statusCode status body,
    services.reply outgoing = .answered statusCode status body ∧ format.Takes body

variable {decodeError : Option Json → String} {services : Services}

theorem replyOutcome_telegramReply_eq_none_iff {reply : HttpReply} :
    replyOutcome (telegramReply decodeError reply) = none ↔
      ∃ statusCode status body response, reply = .answered statusCode status body ∧
        Json.decodeInto TelegramMessageResponse.jsonFields body ⟨false, ""⟩ = some response ∧
        response.ok = true := by
  cases reply with
  | failed err => simp [telegramReply, replyOutcome]
  | answered statusCode status body =>
      rw [replyOutcome_eq_none_iff, telegramReply]
      cases decoded : Json.decodeInto TelegramMessageResponse.jsonFields body ⟨false, ""⟩ with
      | none => simp [decoded]
      | some response =>
          constructor
          · rintro ⟨_, ⟨⟩, done⟩
            exact ⟨statusCode, status, body, response, rfl, decoded, done⟩
          · rintro ⟨_, _, _, found, ⟨⟩, same, done⟩
            rw [decoded] at same
            cases same
            exact ⟨response, rfl, done⟩

/-- A sender returns no error exactly when its request is confirmed. -/
theorem return_eq_none_iff {outgoing : Outgoing} {err : Option String}
    (returned : services.Return decodeError outgoing err) :
    err = none ↔ Confirms services outgoing := by
  cases outgoing with
  | telegram secret chatId text parseMode =>
      obtain ⟨passes, ended⟩ := returned
      rw [returned_none_iff ended]
      exact forall_congr' fun pass => imp_congr_right fun _ =>
        replyOutcome_telegramReply_eq_none_iff
  | nothing => exact iff_of_true returned trivial
  | panic =>
      cases returned
      exact iff_of_false (fun none_ => by cases none_) id
  | client key message => exact iff_of_true returned trivial
  | email subject receiver html =>
      cases returned
      exact Iff.rfl
  | discord url content =>
      cases returned
      exact discordReply_eq_none_iff
  | oneBot url secret request =>
      cases returned
      exact oneBotReply_eq_none_iff
  | larkApp appId secret receiveIdType receiveId spec =>
      cases returned
      exact larkAppReply_eq_none_iff
  | custom url body =>
      cases returned
      exact customReply_eq_none_iff
  | _ =>
      cases returned
      exact ReplyFormat.read_eq_none_iff

/-! ### Deliveries -/

section Errors

variable (lib : Library) (transport : Outgoing → Option String) (channels : Channels)

theorem appendError_eq_empty_iff (errMessage name : String) (error : Option String) :
    appendError errMessage name error = "" ↔ errMessage = "" ∧ error = none := by
  cases error with
  | none => simp [appendError]
  | some text =>
      rw [appendError_some, String.append_eq_empty_iff]
      simp [failureLine_ne_empty]

/-- The loop ends without an error exactly when it had none before, met no refusal and every
attempt succeeded. -/
theorem groupLoop_error_eq_none_iff (readings : Nat → Readings) (pairs : List (String × String))
    (index : Nat) (errMessage : String) (message : Message) (user : User) :
    (groupLoop lib transport channels readings index errMessage message user pairs).error = none ↔
      errMessage = "" ∧
      (groupLoop lib transport channels readings index errMessage message user
        pairs).refusal = none ∧
      ∀ attempt ∈ (groupLoop lib transport channels readings index errMessage message user
        pairs).attempts, errorOf transport attempt.decision = none := by
  induction pairs generalizing index errMessage message user with
  | nil => simp [groupLoop]
  | cons pair rest ih =>
      obtain ⟨name, target⟩ := pair
      cases found : getChannelByName channels name user.id with
      | error text => simp [groupLoop, found]
      | ok row =>
          by_cases nested : row.type = typeGroup
          · simp [groupLoop, found, nested]
          · simp only [groupLoop, found, nested, if_false]
            split_ifs with broken
            · have failed : errorOf transport (sendDirect lib (readings index)
                  { message with to_ := target, channel := name } user row).decision ≠ none :=
                errorOf_of_panics transport broken
              simp [failed]
            · simp only [List.forall_mem_cons]
              rw [ih, appendError_eq_empty_iff]
              constructor
              · rintro ⟨⟨silent, here⟩, whole, later⟩
                exact ⟨silent, whole, here, later⟩
              · rintro ⟨silent, whole, here, later⟩
                exact ⟨⟨silent, here⟩, whole, later⟩

/-- A delivery has no error exactly when nothing in it has one. -/
theorem deliver_error_eq_none_iff (readings : Nat → Readings) (call : SendCall) :
    (call.deliver lib transport channels readings).error = none ↔
      (call.deliver lib transport channels readings).refusal = none ∧
        ∀ attempt ∈ (call.deliver lib transport channels readings).attempts,
          errorOf transport attempt.decision = none := by
  unfold SendCall.deliver sendMessage
  by_cases group : call.channel.type = typeGroup
  · rw [if_pos group, sendGroupMessage]
    split_ifs
    · simp
    · rw [groupLoop_error_eq_none_iff]
      simp
  · simp [group]

end Errors

/-- Every sender that sent a request returned what its service answered. -/
def Returned (decodeError : Option Json → String) (services : Services)
    (transport : Outgoing → Option String) (delivery : Channel.Delivery) : Prop :=
  ∀ attempt ∈ delivery.attempts, ∀ outgoing, attempt.decision = .ok outgoing →
    services.Return decodeError outgoing (errorOf transport attempt.decision)

/-- Nothing was refused, and every request is confirmed. -/
def AllConfirmed (services : Services) (delivery : Channel.Delivery) : Prop :=
  delivery.refusal = none ∧ ∀ attempt ∈ delivery.attempts, ∃ outgoing,
    attempt.decision = .ok outgoing ∧ Confirms services outgoing

variable {lib : Library} {transport : Outgoing → Option String} {channels : Channels}
  {readings : Nat → Readings} {call : SendCall}

theorem deliver_allConfirmed_iff
    (returned : Returned decodeError services transport
      (call.deliver lib transport channels readings)) :
    (call.deliver lib transport channels readings).error = none ↔
      AllConfirmed services (call.deliver lib transport channels readings) := by
  rw [deliver_error_eq_none_iff]
  refine and_congr_right fun _ => forall₂_congr fun attempt listed => ?_
  cases decided : attempt.decision with
  | error text => simp [errorOf]
  | ok outgoing =>
      have here := returned attempt listed outgoing decided
      rw [decided] at here
      rw [return_eq_none_iff here]
      simp

/-! ### Rows -/

/-- The row of a message that is sent at once ends as sent exactly when its delivery was
confirmed, and otherwise as failed. -/
theorem sent_iff_confirmed (decodeError : Option Json → String) (services : Services)
    (lib : Library) (transport : Outgoing → Option String) (channels : Channels)
    (readings : Nat → Readings) (env : Environment) (user : User) (message : Message)
    (channel : Model.Channel) (messages : Messages)
    (network : ∀ call : SendCall,
      env.send call = (call.deliver lib transport channels readings).error)
    (returned : ∀ call, (saveAndSendMessage env user message channel messages).handed = some call →
      Returned decodeError services transport (call.deliver lib transport channels readings))
    (enabled : channel.status = channelStatusEnabled) (stored : persists env user)
    (accepted : insertAccepted env user message messages) (unset : message.id = 0)
    (sync : message.async = false) (working : env.faults.updateStatus = none) :
    ∃ call row, (saveAndSendMessage env user message channel messages).handed = some call ∧
      messages.rowAt row.id = none ∧
      (saveAndSendMessage env user message channel messages).messages.rowAt row.id = some row ∧
      (row.status = messageSendStatusSent ∨ row.status = messageSendStatusFailed) ∧
      (row.status = messageSendStatusSent ↔
        AllConfirmed services (call.deliver lib transport channels readings)) := by
  obtain ⟨call, row, handed, fresh, found, status⟩ :=
    (statusKept_of_sync enabled stored unset sync).sent accepted enabled sync working
  have ended : row.status = messageSendStatusSent ∨ row.status = messageSendStatusFailed := by
    rw [status, sentStatus]
    split_ifs
    · exact .inl rfl
    · exact .inr rfl
  refine ⟨call, row, handed, fresh, found, ended, ?_⟩
  rw [← deliver_allConfirmed_iff (returned call handed), status, sentStatus, network]
  constructor
  · intro sent
    by_contra failed
    rw [if_neg failed] at sent
    cases sent
  · exact fun clean => if_pos clean

/-! A message that Discord turned away because too many came: the reply has a text and no code. -/

def limitedServices : Services where
  reply _ := .answered 429 "429 Too Many Requests"
    (some (.object [("message", .string "You are being rate limited."), ("global", .bool false)]))
  telegram _ _ := .failed ""
  mail _ := none
  sdk _ := .failed ""

def limitedTransport : Outgoing → Option String :=
  fun outgoing => discordReply (fun _ => "") (limitedServices.reply outgoing)

def limitedChannel : Model.Channel := { discordRow with status := channelStatusEnabled }

def limitedMessage : Message := { title := "t", content := "c", channel := "d" }

def limitedEnvironment : Environment where
  uuid := "l"
  send call := (call.deliver plainLibrary limitedTransport groupChannels
    fun _ => plainReadings).error

/-- The call that the limited message comes to. -/
def limitedCall : SendCall where
  message := { unstored limitedEnvironment lostUser limitedMessage with id := 1 }
  user := lostUser
  channel := limitedChannel

/-- The message counts as sent. -/
theorem sent_iff_confirmed_limited : ∃ row : MessageRow,
    (saveAndSendMessage limitedEnvironment lostUser limitedMessage limitedChannel
      .empty).messages.rowAt row.id = some row ∧ row.status = messageSendStatusSent := by
  have only : ∀ attempt ∈ (limitedCall.deliver plainLibrary limitedTransport groupChannels
      fun _ => plainReadings).attempts,
      attempt.decision = .ok (.discord "https://discord" "c") := by decide
  have taken : discordMessageResponse.Takes (some (.object
      [("message", .string "You are being rate limited."), ("global", .bool false)])) :=
    ⟨⟨0, "You are being rate limited."⟩, by decide, rfl⟩
  have handed_ : (saveAndSendMessage limitedEnvironment lostUser limitedMessage limitedChannel
      .empty).handed = some limitedCall := by decide
  obtain ⟨call, row, handed, -, found, -, sent⟩ := sent_iff_confirmed (fun _ => "")
    limitedServices plainLibrary limitedTransport groupChannels (fun _ => plainReadings)
    limitedEnvironment lostUser limitedMessage limitedChannel .empty (fun _ => rfl)
    (fun call handed attempt listed outgoing decided => by
      rw [handed_] at handed
      cases handed
      have request := only attempt listed
      rw [decided] at request
      cases request
      rw [decided]
      rfl)
    rfl (.inl rfl) ⟨rfl, by decide⟩ rfl rfl rfl
  rw [handed_] at handed
  cases handed
  refine ⟨row, found, sent.mpr ⟨by decide, fun attempt listed => ?_⟩⟩
  exact ⟨_, only attempt listed, 429, _, _, rfl, .inr ⟨by decide, taken⟩⟩

end MessagePusher.Delivery
