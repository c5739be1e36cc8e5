import MessagePusher.Controller.PushIsolation
import MessagePusher.Middleware.Auth

/-!
# Resending a message

`ResendMessage` of `controller/message.go`, behind `UserAuth`. It loads the message, the user
and the channel again, and hands a copy without an id to `saveAndSendMessage`.
-/

namespace MessagePusher.Controller

open Common Model Store Middleware
open Channel (SendCall)

/-- `ResendMessage` up to its call of `saveAndSendMessage`: the arguments of that call, or the
refusal. Without a message id or a user id the struct to clear is missing, and the server
answers the panic with its status alone. `failure` is the error of a database that does not
execute a query. -/
def admitResend (failure : Option String) (users : Users) (channels : Channels)
    (messages : Messages) (userId : Int) (idParam : String) :
    Except Response (User × Message × Channel) := do
  let messageId := (Text.parseInt idParam).1
  if messageId = 0 ∨ userId = 0 then .error { httpStatus := 500 }
  match failure with
  | some text => .error { message := text }
  | none =>
      let message ← (getMessageByIds messages messageId userId).mapError
        fun text => { message := text }
      let user ← (getUserById users userId true).mapError fun text => { message := text }
      let channel ← (getChannelByName channels message.channel user.id).mapError
        fun text => { message := text }
      return (user, { message with id := 0 }, channel)

/-- `ResendMessage`. -/
def resendMessage (env : Environment) (failure : Option String) (users : Users)
    (channels : Channels) (messages : Messages) (userId : Int) (idParam : String) :
    Outcome × Response :=
  match admitResend failure users channels messages userId idParam with
  | .error refusal => ({ messages }, refusal)
  | .ok (user, message, channel) =>
      let outcome := saveAndSendMessage env user message channel messages
      match outcome.error with
      | some text => (outcome, { message := text })
      | none => (outcome, { success := true })

/-- `ResendMessage` behind `UserAuth`, which looks at the session alone. -/
def serveResend (env : Environment) (failure : Option String) (users : Users)
    (channels : Channels) (messages : Messages) (session : Option Session) (idParam : String) :
    Outcome × Response :=
  match @userAuth Unit session with
  | .error refusal => ({ messages }, { httpStatus := refusal.httpStatus, message := refusal.message })
  | .ok actor => resendMessage env failure users channels messages actor.id idParam

/-- A resend is `saveAndSendMessage` on what was admitted, and nothing when it was refused. -/
theorem resendMessage_eq (env : Environment) (failure : Option String) (users : Users)
    (channels : Channels) (messages : Messages) (userId : Int) (idParam : String) :
    (resendMessage env failure users channels messages userId idParam).1 =
      match admitResend failure users channels messages userId idParam with
      | .error _ => { messages }
      | .ok (user, message, channel) => saveAndSendMessage env user message channel messages := by
  unfold resendMessage
  cases admitResend failure users channels messages userId idParam with
  | error refusal => rfl
  | ok call =>
      obtain ⟨user, message, channel⟩ := call
      dsimp only
      split
      · rfl
      · rfl

/-- What a resend goes on with: the user's own message, without its id, and the user's channel
of that name. -/
theorem admitResend_ok {failure : Option String} {users : Users} {channels : Channels}
    {messages : Messages} {userId : Int} {idParam : String} {user : User} {message : Message}
    {channel : Channel}
    (admitted : admitResend failure users channels messages userId idParam =
      .ok (user, message, channel)) :
    (∃ row ∈ messages.rows, row.id = (Text.parseInt idParam).1 ∧ row.userId = userId ∧
        message = { Message.ofRow row with id := 0 }) ∧
      getUserById users userId true = .ok user ∧
      getChannelByName channels message.channel user.id = .ok channel := by
  unfold admitResend at admitted
  simp only [bind, Except.bind, pure, Except.pure] at admitted
  split_ifs at admitted with blank
  cases failure with
  | some text => cases admitted
  | none =>
      cases stored : getMessageByIds messages (Text.parseInt idParam).1 userId with
      | error text => simp [stored, Except.mapError] at admitted
      | ok found =>
          cases loaded : getUserById users userId true with
          | error text => simp [stored, loaded, Except.mapError] at admitted
          | ok owner =>
              cases route : getChannelByName channels found.channel owner.id with
              | error text => simp [stored, loaded, route, Except.mapError] at admitted
              | ok row =>
                  simp only [stored, loaded, route, Except.mapError, Except.ok.injEq,
                    Prod.mk.injEq] at admitted
                  obtain ⟨rfl, rfl, rfl⟩ := admitted
                  obtain ⟨read, member, number, own, rfl⟩ := getMessageByIds_ok stored
                  exact ⟨⟨read, member, number, own, rfl⟩, rfl, route⟩

end MessagePusher.Controller
