import MessagePusher.Channel.Senders

/-!
# `SendMessage` and group channels

A group channel hands one shared message and user to its sub-channels in turn.
`Delivery` records every decision of a delivery; the network answers each
outgoing request through `transport`. The readings may differ from one
sub-channel to the next, since time passes between them.
-/

namespace MessagePusher.Channel

open Common Model

/-- One call of a sender: the channel row and what the sender decided. -/
structure Attempt where
  channel : Model.Channel
  decision : Except String Outgoing

/-- A whole call of `SendMessage`: the calls of senders in order, the configuration error
that ended a group delivery early, and the error it returns. A call that panics returns nothing;
`error` is then what it panics with. -/
structure Delivery where
  attempts : List Attempt := []
  refusal : Option String := none
  error : Option String := none
  panicked : Bool := false

variable (lib : Library) (transport : Outgoing → Option String)

/-- What the dereferencing of a missing request panics with. -/
def nilDereference : String := "runtime error: invalid memory address or nil pointer dereference"

/-- The sender panics instead of making a request. -/
def panics : Except String Outgoing → Bool
  | .ok .panic => true
  | _ => false

/-- The error a sender returns once its decision met the network, or panics with. -/
def errorOf (decision : Except String Outgoing) : Option String :=
  match decision with
  | .error text => some text
  | .ok .panic => some nilDereference
  | .ok .nothing => none
  | .ok (.client _ _) => none
  | .ok outgoing => transport outgoing

/-- What `SendGroupMessage` adds to its error text after one sub-channel. -/
def appendError (errMessage subName : String) (error : Option String) : String :=
  match error with
  | none => errMessage
  | some text => errMessage ++ "发送群组消息子通道 " ++ subName ++ " 失败：" ++ text ++ "\n"

/-- The loop of `SendGroupMessage` over the pairs of sub-channel name and target. -/
def groupLoop (channels : Channels) (readings : Nat → Readings) (index : Nat)
    (errMessage : String) (message : Message) (user : User) :
    List (String × String) → Delivery
  | [] => { error := if errMessage = "" then none else some errMessage }
  | (subName, target) :: rest =>
      let message := { message with to_ := target, channel := subName }
      match getChannelByName channels subName user.id with
      | .error text =>
          let refusal := some ("获取群组消息子通道失败：" ++ text)
          { refusal, error := refusal }
      | .ok subChannel =>
          if subChannel.type = typeGroup then
            let refusal := some "群组消息子通道不能是群组消息"
            { refusal, error := refusal }
          else
            let sent := sendDirect lib (readings index) message user subChannel
            -- nothing recovers before the sender's panic has left `SendGroupMessage`
            if panics sent.decision then
              { attempts := [⟨subChannel, sent.decision⟩], error := errorOf transport sent.decision,
                panicked := true }
            else
              let errMessage := appendError errMessage subName (errorOf transport sent.decision)
              let delivery := groupLoop channels readings (index + 1) errMessage sent.message
                sent.user rest
              { delivery with attempts := ⟨subChannel, sent.decision⟩ :: delivery.attempts }

def groupSubChannels (channel : Model.Channel) : List String := Text.split channel.appId '|'

def groupTargets (message : Message) (channel : Model.Channel) : List String :=
  if message.to_ ≠ "" then Text.split message.to_ '|' else Text.split channel.accountId '|'

/-- `SendGroupMessage`. -/
def sendGroupMessage (channels : Channels) (readings : Nat → Readings) (message : Message)
    (user : User) (channel : Model.Channel) : Delivery :=
  if (groupSubChannels channel).length ≠ (groupTargets message channel).length then
    let refusal := some "无效的群组消息配置，子通道数量与子目标数量不一致"
    { refusal, error := refusal }
  else
    groupLoop lib transport channels readings 0 "" message user
      ((groupSubChannels channel).zip (groupTargets message channel))

/-- `SendMessage`. -/
def sendMessage (channels : Channels) (readings : Nat → Readings) (message : Message)
    (user : User) (channel : Model.Channel) : Delivery :=
  if channel.type = typeGroup then
    sendGroupMessage lib transport channels readings message user channel
  else
    let sent := sendDirect lib (readings 0) message user channel
    { attempts := [⟨channel, sent.decision⟩], error := errorOf transport sent.decision,
      panicked := panics sent.decision }

/-- The arguments of one call of `SendMessage`. -/
structure SendCall where
  message : Message
  user : User
  channel : Model.Channel
deriving DecidableEq

/-- What `SendMessage` does on a call. -/
def SendCall.deliver (channels : Channels) (readings : Nat → Readings) (call : SendCall) :
    Delivery :=
  sendMessage lib transport channels readings call.message call.user call.channel

/-! ### What a sender may do to the shared message and user -/

/-- The fields that a sender has rewritten for the next one. -/
structure Carried where
  content : String
  description : String
  htmlContent : String
  email : String
deriving DecidableEq

/-- A message and user with the rewritten fields put in. -/
def Carried.message (carried : Carried) (message : Message) : Message :=
  { message with
    content := carried.content
    description := carried.description
    htmlContent := carried.htmlContent }

def Carried.user (carried : Carried) (user : User) : User := { user with email := carried.email }

/-- The fields as the original message and user have them. -/
def Carried.original (message : Message) (user : User) : Carried where
  content := message.content
  description := message.description
  htmlContent := message.htmlContent
  email := user.email

/-- The fields after the mail sender ran. -/
def Carried.afterEmail (carried : Carried) (readings : Readings) (message : Message)
    (user : User) : Carried :=
  if mailForbidden message user then carried
  else if orElse message.to_ carried.email = "" then carried
  else
    { carried with
      htmlContent := markdown2HTML lib (emailContent readings (carried.message message))
      email := Text.replaceAll (orElse message.to_ carried.email) '|' ';' }

/-- The fields after one sender ran. -/
def Carried.after (carried : Carried) (readings : Readings) (sender : Option Sender)
    (message : Message) (user : User) : Carried :=
  match sender with
  | some .email => carried.afterEmail lib readings message user
  | some .discord => { carried with content := orElse carried.content carried.description }
  | some .tencentAlarm =>
      { carried with description := orElse carried.description carried.content }
  | _ => carried

@[simp] theorem Carried.original_message (message : Message) (user : User) :
    (Carried.original message user).message message = message := rfl

@[simp] theorem Carried.original_user (message : Message) (user : User) :
    (Carried.original message user).user user = user := rfl

@[simp] theorem Carried.message_content (carried : Carried) (message : Message) :
    (carried.message message).content = carried.content := rfl

@[simp] theorem Carried.message_description (carried : Carried) (message : Message) :
    (carried.message message).description = carried.description := rfl

/-- Nothing but the carried fields is ever rewritten. -/
theorem sendDirect_carried (carried : Carried) (readings : Readings) (message : Message)
    (user : User) (channel : Model.Channel) :
    (sendDirect lib readings (carried.message message) (carried.user user) channel).message =
        (carried.after lib readings (senderOf channel.type) message user).message message ∧
      (sendDirect lib readings (carried.message message) (carried.user user) channel).user =
        (carried.after lib readings (senderOf channel.type) message user).user user := by
  unfold sendDirect
  cases senderOf channel.type with
  | none => exact ⟨rfl, rfl⟩
  | some sender =>
      cases sender with
      | email =>
          simp only [runSender, Carried.after]
          unfold sendEmailMessage Carried.afterEmail
          have forbidden : mailForbidden (carried.message message) (carried.user user) ↔
              mailForbidden message user := Iff.rfl
          have receiver : orElse (carried.message message).to_ (carried.user user).email =
              orElse message.to_ carried.email := rfl
          simp only [forbidden, receiver]
          split_ifs with refused unset
          · exact ⟨rfl, rfl⟩
          · obtain ⟨noTarget, blank⟩ := orElse_eq_empty.mp unset
            exact ⟨rfl, by simp only [orElse, noTarget, Carried.user, blank, if_true]⟩
          · exact ⟨rfl, rfl⟩
      | discord => exact ⟨rfl, rfl⟩
      | tencentAlarm => exact ⟨rfl, rfl⟩
      | _ => exact ⟨rfl, rfl⟩

/-! ### Senders that panic -/

/-- `SendOneBotMessage` knows the receiver: an id, or the kind and the id. -/
def oneBotTarget (target : String) : Bool :=
  match Text.split target '_' with
  | [_] => true
  | [type, _] => type = "user" || type = "group"
  | _ => false

/-- The sender of a channel panics for a target: a one_bot channel whose URL does not parse. -/
def panicsFor (target : String) (channel : Model.Channel) : Bool :=
  senderOf channel.type = some .oneBot && oneBotTarget (orElse target channel.accountId) &&
    !lib.parsesUrl (channel.url ++ "/send_msg")

theorem panics_iff {decision : Except String Outgoing} :
    panics decision = true ↔ decision = .ok .panic := by
  cases decision with
  | error text => simp [panics]
  | ok outgoing => cases outgoing <;> simp [panics]

theorem errorOf_of_panics {decision : Except String Outgoing} (broken : panics decision = true) :
    errorOf transport decision ≠ none := by
  rw [panics_iff.mp broken]
  exact Option.some_ne_none _

theorem panics_oneBotOutgoing (url secret : String) (request : OneBotRequest) :
    panics (.ok (oneBotOutgoing lib url secret request)) = !lib.parsesUrl url := by
  unfold oneBotOutgoing
  cases lib.parsesUrl url with
  | true => rfl
  | false => rfl

theorem panics_oneBotMessage (message : Message) (channel : Model.Channel) :
    panics (oneBotMessage lib message channel) =
      (oneBotTarget (orElse message.to_ channel.accountId) &&
        !lib.parsesUrl (channel.url ++ "/send_msg")) := by
  unfold oneBotMessage oneBotTarget
  generalize Text.split (orElse message.to_ channel.accountId) '_' = parts
  match parts with
  | [] => rfl
  | [id] => simp [oneBotRequest, panics_oneBotOutgoing]
  | [type, id] =>
      simp only [oneBotRequest]
      split_ifs with toUser toGroup
      · simp [panics_oneBotOutgoing, toUser]
      · simp [panics_oneBotOutgoing, toGroup]
      · simp [panics, toUser, toGroup]
  | _ :: _ :: _ :: _ => rfl

theorem panics_bind {α : Type} {result : Except String α} {next : α → Except String Outgoing}
    (calm : ∀ value, panics (next value) = false) : panics (result >>= next) = false := by
  cases result with
  | error text => rfl
  | ok value => exact calm value

/-- Whether a sender panics depends on the channel and the target alone. -/
theorem panics_sendDirect (readings : Readings) (message : Message) (user : User)
    (channel : Model.Channel) :
    panics (sendDirect lib readings message user channel).decision =
      panicsFor lib message.to_ channel := by
  unfold sendDirect panicsFor
  cases senderOf channel.type with
  | none => rfl
  | some sender =>
      cases sender with
      | oneBot =>
          change panics (oneBotMessage lib message channel) = _
          rw [panics_oneBotMessage, Bool.and_assoc]
          rfl
      | email =>
          simp only [runSender]
          unfold sendEmailMessage
          split_ifs <;> rfl
      | weChatCorp => exact panics_bind fun _ => rfl
      | larkApp => exact panics_bind fun _ => panics_bind fun _ => rfl
      | client =>
          simp only [runSender, clientMessage]
          split_ifs <;> rfl
      | telegram =>
          simp only [runSender, telegramMessage]
          split_ifs <;> rfl
      | custom =>
          simp only [runSender]
          unfold customMessage
          split_ifs <;> rfl
      | _ => rfl

end MessagePusher.Channel
