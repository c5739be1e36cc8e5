import MessagePusher.Common.Verification
import MessagePusher.Controller.User
import MessagePusher.Model.Channel

/-!
# Verification codes by mail

The handlers of `controller/misc.go` that mail a code, `ResetPassword`, and `EmailBind` of
`controller/user.go`. The validator, the random code and the outcome of the mail come in
from outside.
-/

namespace MessagePusher.Controller

open Common Model Store Middleware

structure Mail where
  subject : String
  receiver : String
  content : String
deriving DecidableEq

/-- What the handlers that mail a code read besides the table. -/
structure MailEnvironment where
  settings : Settings := {}
  /-- The rule `email` of the validator. -/
  isEmail : String → Bool
  /-- The error of `SendEmail`, if any. -/
  sendEmail : Mail → Option String := fun _ => none

/-- `Validate.Var(email, "required,email")`. -/
def MailEnvironment.accepts (env : MailEnvironment) (email : String) : Bool :=
  email ≠ "" && env.isEmail email

/-- What such a handler does. -/
structure CodeMailed where
  codes : VerificationMap
  mail : Option Mail := none
  reply : Reply User

/-- The end of a handler that has registered its code. -/
def mailCode (env : MailEnvironment) (codes : VerificationMap) (mail : Mail) : CodeMailed :=
  match env.sendEmail mail with
  | some text => { codes, mail := some mail, reply := { message := text } }
  | none => { codes, mail := some mail, reply := { success := true } }

def sendEmailVerification (env : MailEnvironment) (email code : String) (now : Int)
    (users : Users) (codes : VerificationMap) : CodeMailed :=
  if !env.accepts email then { codes, reply := { message := "无效的参数" } }
  else if isEmailAlreadyTaken users email then { codes, reply := { message := "邮箱地址已被占用" } }
  else mailCode env (codes.register now email code emailVerificationPurpose)
    { subject := env.settings.systemName ++ "邮箱验证邮件"
      receiver := email
      content := "<p>您好，你正在进行" ++ env.settings.systemName ++ "邮箱验证。</p>" ++
        "<p>您的验证码为: <strong>" ++ code ++ "</strong></p>" ++
        "<p>验证码 " ++ Text.itoa verificationValidMinutes ++
        " 分钟内有效，如果不是本人操作，请忽略。</p>" }

def sendPasswordResetEmail (env : MailEnvironment) (email code : String) (now : Int)
    (users : Users) (codes : VerificationMap) : CodeMailed :=
  if !env.accepts email then { codes, reply := { message := "无效的参数" } }
  else if !isEmailAlreadyTaken users email then { codes, reply := { message := "该邮箱地址未注册" } }
  else
    let link := env.settings.serverAddress ++ "/user/reset?email=" ++ email ++ "&token=" ++ code
    mailCode env (codes.register now email code passwordResetPurpose)
      { subject := env.settings.systemName ++ "密码重置"
        receiver := email
        content := "<p>您好，你正在进行" ++ env.settings.systemName ++ "密码重置。</p>" ++
          "<p>点击<a href='" ++ link ++ "'>此处</a>进行密码重置。</p>" ++
          "<p>重置链接 " ++ Text.itoa verificationValidMinutes ++
          " 分钟内有效，如果不是本人操作，请忽略。</p>" }

structure PasswordResetRequest where
  email : String := ""
  token : String := ""
deriving DecidableEq

def PasswordResetRequest.jsonFields : List (Json.Field PasswordResetRequest) :=
  [ Json.stringField "email" fun value request => { request with email := value },
    Json.stringField "token" fun value request => { request with token := value } ]

/-- The request as `ResetPassword` takes it, whatever the decoder says. -/
def resetRequest (body : Option Json) : PasswordResetRequest :=
  Json.decodeAnyway PasswordResetRequest.jsonFields body {}

/-- What `ResetPassword` does. -/
structure PasswordReset where
  users : Users
  codes : VerificationMap
  reply : Reply String

/-- `ResetPassword` up to its write: the email, or the refusal. -/
def admitReset (verifyReset : String → String → Bool) (body : Option Json) :
    Except String String :=
  let request := resetRequest body
  if request.email = "" ∨ request.token = "" then .error "无效的参数"
  else if !verifyReset request.email request.token then .error "重置链接非法或已过期"
  else .ok request.email

/-- `ResetPassword`, with the random password. -/
def resetPassword (passwords : Passwords) (body : Option Json) (password : String) (now : Int)
    (users : Users) (codes : VerificationMap) : PasswordReset :=
  match admitReset (fun email token => codes.verify now email token passwordResetPurpose) body with
  | .error text => { users, codes, reply := { message := text } }
  | .ok email =>
      match resetUserPasswordByEmail passwords users email password with
      | (next, some text) => { users := next, codes, reply := { message := text } }
      | (next, none) =>
          { users := next
            codes := codes.deleteKey email passwordResetPurpose
            reply := { success := true, data := some password } }

/-- What `EmailBind` does. -/
structure EmailBound where
  users : Users
  channels : Channels
  reply : Reply User

/-- The channel that `EmailBind` creates. -/
def emailChannel (user : User) (timestamp : Int) : Channel where
  type := typeEmail
  userId := user.id
  name := "email"
  description := "系统自动创建"
  status := channelStatusEnabled
  createdTime := timestamp

/-- `EmailBind`; whether the channel could be inserted does not matter. -/
def emailBind (env : UserEnvironment) (id : Int) (email code : String) (timestamp : Int)
    (users : Users) (channels : Channels) : EmailBound :=
  if !env.verifyCode email code then { users, channels, reply := { message := "验证码错误或已过期" } }
  else match fillUserById users { id } with
    | .error text => { users, channels, reply := { message := text } }
    | .ok user =>
        match { user with email }.update env.passwords false users with
        | (next, some text) => { users := next, channels, reply := { message := text } }
        | (next, none) =>
            { users := next
              channels := ((emailChannel user timestamp).insert channels).1
              reply := { success := true } }

/-- The channels that `EmailBind` leaves: the same after a failure, and after a success those after
the insertion for the user. -/
theorem emailBind_channels (env : UserEnvironment) (id : Int) (email code : String)
    (timestamp : Int) (users : Users) (channels : Channels) :
    let done := emailBind env id email code timestamp users channels
    (done.reply.success = false ∧ done.channels = channels) ∨
      (done.reply.success = true ∧
        done.channels = ((emailChannel { id } timestamp).insert channels).1) := by
  unfold emailBind
  cases verified : env.verifyCode email code with
  | false => exact .inl ⟨rfl, rfl⟩
  | true =>
      simp only [Bool.not_true, Bool.false_eq_true, if_false]
      cases filled : fillUserById users { id } with
      | error text => exact .inl ⟨rfl, rfl⟩
      | ok user =>
          have same : emailChannel user timestamp = emailChannel { id } timestamp := by
            rw [emailChannel, fillUserById_id filled]
            rfl
          dsimp only
          cases ({ user with email } : User).update env.passwords false users with
          | mk next failure =>
              cases failure with
              | some text => exact .inl ⟨rfl, rfl⟩
              | none => exact .inr ⟨rfl, by rw [same]⟩

end MessagePusher.Controller
