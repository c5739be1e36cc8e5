import MessagePusher.Controller.Login
import MessagePusher.Controller.Misc
import MessagePusher.Model.UserColumns
import MessagePusher.Semantics.Transition

/-!
# Requests on the users table, statement by statement

A request runs its database statements one by one, and other requests come in between. A
`UserCall` is a request before its next statement, with what it has read so far.
`run_start` says that a request that nothing interrupts does what its handler does.
-/

namespace MessagePusher.Controller

open Common Model Store Middleware Semantics

/-- What the calls read besides the database. -/
structure CallEnvironment extends UserEnvironment where
  verifyReset : String → String → Bool := fun _ _ => false
  /-- Whether `session.Save` succeeds. -/
  saved : Bool := true

/-- An account that GitHub or the WeChat server reports. -/
inductive ThirdPartyAccount where
  | gitHub (account : GitHubUser)
  | weChat (weChatId : String)

namespace ThirdPartyAccount

/-- The name of an account in its own service. -/
def name : ThirdPartyAccount → String
  | .gitHub account => account.login
  | .weChat weChatId => weChatId

/-- The field of the struct that the account is kept in. -/
def field : ThirdPartyAccount → User → String
  | .gitHub _ => User.gitHubId
  | .weChat _ => User.weChatId

/-- The column of the account. -/
def column : ThirdPartyAccount → Column
  | .gitHub _ => .gitHubId
  | .weChat _ => .weChatId

/-- The test for an account that is in use. -/
def isTaken (users : Users) : ThirdPartyAccount → Bool
  | .gitHub account => isGitHubIdAlreadyTaken users account.login
  | .weChat weChatId => isWeChatIdAlreadyTaken users weChatId

/-- The struct that a login fills. -/
def asUser : ThirdPartyAccount → User
  | .gitHub account => { gitHubId := account.login }
  | .weChat weChatId => { weChatId }

/-- The struct that a binding fills by its id. -/
def asBinding (id : Int) : ThirdPartyAccount → User
  | .gitHub account => { id, gitHubId := account.login }
  | .weChat _ => { id }

/-- The struct with the account in its field. -/
def bindTo (user : User) : ThirdPartyAccount → User
  | .gitHub account => { user with gitHubId := account.login }
  | .weChat weChatId => { user with weChatId }

/-- The user that a first login makes. -/
def newUser (users : Users) : ThirdPartyAccount → User
  | .gitHub account => gitHubNewUser account users
  | .weChat weChatId => weChatNewUser weChatId users

/-- The error of a blank account. -/
def blankError : ThirdPartyAccount → String
  | .gitHub _ => "GitHub id 为空！"
  | .weChat _ => "WeChat id 为空！"

/-- The error of an account that is in use. -/
def boundError : ThirdPartyAccount → String
  | .gitHub _ => "该 GitHub 账户已被绑定"
  | .weChat _ => "该微信账号已被绑定"

end ThirdPartyAccount

/-- A request to a handler of users, with what the session and the services answer. -/
inductive CallRequest where
  | gitHubOAuth (session : Option Session) (account : Except String GitHubUser)
  | gitHubBind (id : Int) (account : Except String GitHubUser)
  | weChatAuth (account : Except String String)
  | weChatBind (id : Int) (account : Except String String)
  | manageUser (myRole : Int) (body : Option Json)
  | generateToken (id : Int) (token : String)
  | updateSelf (id : Int) (body : Option Json)
  | updateUser (myRole : Int) (body : Option Json)
  | emailBind (id : Int) (email code : String)
  | resetPassword (body : Option Json) (password : String)

/-- How a request ended: the refusal, the session it opened, or the columns it was meant to
change and the struct that has their new values. -/
structure CallOutcome where
  refusal : Option String := none
  session : Option Session := none
  columns : List Column := []
  values : User := {}

/-- What a call has still to do: a step with the database, and how it goes on. -/
inductive UserCall where
  | start (request : CallRequest)
  /-- The account is taken: the login reads its row. -/
  | filling (account : ThirdPartyAccount)
  /-- The account is new: the login reads the greatest id. -/
  | naming (account : ThirdPartyAccount)
  | inserting (user : User)
  /-- The account is not taken: the binding reads the row of the id. -/
  | loading (id : Int) (account : ThirdPartyAccount)
  | checkingToken (user : User)
  | deleting (user : User)
  /-- The statement of `Update` is next, which is meant for these columns. -/
  | writing (columns : List Column) (user : User)
  | resetting (email hash : String)
  | done (outcome : CallOutcome)

namespace UserCall

/-- A call that ends with an error. -/
def refused (text : String) : UserCall := .done { refusal := some text }

/-- `Update` up to its statement. -/
def updating (env : CallEnvironment) (columns : List Column) (user : User) : UserCall :=
  let hashed := if user.password ≠ "" then env.passwords.hash user.password else .ok user.password
  match hashed with
  | .error text => refused text
  | .ok hash => .writing columns { user with password := hash }

/-- The end of a third-party login. -/
def enter (env : CallEnvironment) (user : User) : UserCall :=
  if user.status ≠ userStatusEnabled then refused "用户已被封禁"
  else if env.saved then .done { session := some (sessionOf user) }
  else refused "无法保存会话信息，请重试"

/-- The question whether an account is taken, in a login. -/
def login (env : CallEnvironment) (account : ThirdPartyAccount) (users : Users) : UserCall :=
  if account.isTaken users then .filling account
  else if env.settings.registerEnabled then .naming account
  else refused "管理员关闭了新用户注册"

/-- The question whether an account is taken, in a binding. -/
def bind (id : Int) (account : ThirdPartyAccount) (users : Users) : UserCall :=
  if account.isTaken users then refused account.boundError else .loading id account

/-- A request that goes on with an account. -/
def withAccount {α : Type} (enabled : Bool) (closed : String) (account : Except String α)
    (goOn : α → UserCall) : UserCall :=
  if !enabled then refused closed
  else match account with
    | .error text => refused text
    | .ok account => goOn account

/-- The beginning of the handlers for GitHub. -/
def withGitHub (env : CallEnvironment) (account : Except String GitHubUser)
    (goOn : ThirdPartyAccount → UserCall) : UserCall :=
  withAccount env.settings.gitHubOAuthEnabled "管理员未开启通过 GitHub 登录以及注册" account
    fun account => goOn (.gitHub account)

/-- The beginning of the handlers for WeChat. -/
def withWeChat (env : CallEnvironment) (account : Except String String)
    (goOn : ThirdPartyAccount → UserCall) : UserCall :=
  withAccount env.settings.weChatAuthEnabled "管理员未开启通过微信登录以及注册" account
    fun weChatId => goOn (.weChat weChatId)

/-- The column that an action of `ManageUser` is meant to change. -/
def managedColumns (action : String) : List Column :=
  if action = "disable" ∨ action = "enable" then [.status]
  else if action = "promote" ∨ action = "demote" then [.role]
  else if action = "allow_send_email_to_others" ∨ action = "disallow_send_email_to_others" then
    [.sendEmailToOthers]
  else if action = "allow_save_message_to_database" ∨
      action = "disallow_save_message_to_database" then [.saveMessageToDatabase]
  else []

/-- A request up to and with its first look at the table. -/
def begin (env : CallEnvironment) (users : Users) : CallRequest → UserCall
  | .gitHubOAuth (some session) account =>
      withGitHub env account fun account => bind session.id account users
  | .gitHubOAuth none account => withGitHub env account fun account => login env account users
  | .gitHubBind id account => withGitHub env account fun account => bind id account users
  | .weChatAuth account => withWeChat env account fun account => login env account users
  | .weChatBind id account => withWeChat env account fun account => bind id account users
  | .manageUser myRole body =>
      match admitManage myRole body users with
      | .error text => refused text
      | .ok (action, _, managed) =>
          if managed.deletes then .deleting managed.user
          else .writing (managedColumns action) managed.user
  | .generateToken id token =>
      match getUserById users id true with
      | .error text => refused text
      | .ok user => .checkingToken { user with token }
  | .updateSelf id body =>
      match admitUpdateSelf id body with
      | .error text => refused text
      | .ok user => updating env [.username, .password, .displayName, .token, .channel] user
  | .updateUser myRole body =>
      match admitUpdate myRole body users with
      | .error text => refused text
      | .ok user => updating env [.username, .password, .displayName] user
  | .emailBind id email code =>
      if !env.verifyCode email code then refused "验证码错误或已过期"
      else match fillUserById users { id } with
        | .error text => refused text
        | .ok user => .writing [.email] { user with email }
  | .resetPassword body password =>
      match admitReset env.verifyReset body with
      | .error text => refused text
      | .ok email =>
          if email = "" ∨ password = "" then refused "邮箱地址或密码为空！"
          else match env.passwords.hash password with
            | .error text => refused text
            | .ok hash => .resetting email hash

/-- The next statement of a call. A blank value asks for no change. -/
def next (env : CallEnvironment) (users : Users) : UserCall → Option (Users × UserCall)
  | .start request => some (users, begin env users request)
  | .filling account =>
      some (users,
        if account.name = "" then refused account.blankError
        else enter env ((users.first fun row => account.field row = account.name).getD
          account.asUser))
  | .naming account => some (users, .inserting (account.newUser users))
  | .inserting user =>
      match user.insert env.passwords users with
      | (after, .error text) => some (after, refused text)
      | (after, .ok stored) => some (after, enter env stored)
  | .loading id account =>
      match fillUserById users (account.asBinding id) with
      | .error text => some (users, refused text)
      | .ok user => some (users, .writing [account.column] (account.bindTo user))
  | .checkingToken user =>
      some (users,
        if tokenRepeated user users then refused "请重试，系统生成的 UUID 竟然重复了！"
        else .writing [.token] user)
  | .deleting user => some (users.delete user.id, .writing [] user)
  | .writing columns user =>
      match user.update env.passwords false users with
      | (after, some text) => some (after, refused text)
      | (after, none) =>
          some (after, .done
            { columns := columns.filter fun column => !(user.get column).blank, values := user })
  | .resetting email hash =>
      match setPasswordByEmail users email hash with
      | (after, some text) => some (after, refused text)
      | (after, none) =>
          some (after, .done { columns := [.password], values := { password := hash } })
  | .done _ => none

/-- What the next statement of a call does to the table. -/
inductive Effect (users : Users) : UserCall → Users → Prop where
  | nothing {call} : Effect users call users
  | inserted {user next key hash} (accepted : users.Insertable user)
      (writes : users.Rewrites next key
        (some { user with id := key, password := hash }.withDefaults)) :
      Effect users (.inserting user) next
  | deleted {user} : Effect users (.deleting user) (users.delete user.id)
  | written {columns user row next} (found : users.rowAt user.id = some row)
      (writes : users.Rewrites next user.id (some (user.applyNonZero row))) :
      Effect users (.writing columns user) next
  | reset {email hash} : Effect users (.resetting email hash) (setPasswordByEmail users email hash).1

/-- What a step does to the users is its effect. -/
theorem next_effect {env : CallEnvironment} {users after : Users} {call following : UserCall}
    (taken : call.next env users = some (after, following)) : Effect users call after := by
  cases call with
  | start request =>
      cases taken
      exact .nothing
  | filling account =>
      cases taken
      exact .nothing
  | naming account =>
      cases taken
      exact .nothing
  | inserting user =>
      have wrote : after = (user.insert env.passwords users).1 := by
        rw [next] at taken
        split at taken <;> cases taken <;> simp [*]
      rcases user.insert_writes env.passwords users with same | ⟨key, hash, accepted, -, writes⟩
      · rw [wrote, same]
        exact .nothing
      · rw [wrote]
        exact .inserted accepted writes
  | loading id account =>
      rw [next] at taken
      split at taken <;> cases taken <;> exact .nothing
  | checkingToken user =>
      cases taken
      exact .nothing
  | deleting user =>
      cases taken
      exact .deleted
  | writing columns user =>
      rw [next] at taken
      rcases User.update_statement env.passwords user users with
        ⟨text, result⟩ | ⟨-, result⟩ | ⟨row, next, found, result, writes⟩
      · rw [result] at taken
        cases taken
        exact .nothing
      · rw [result] at taken
        cases taken
        exact .nothing
      · rw [result] at taken
        cases taken
        exact .written found writes
  | resetting email hash =>
      have wrote : after = (setPasswordByEmail users email hash).1 := by
        rw [next] at taken
        split at taken <;> cases taken <;> simp [*]
      rw [wrote]
      exact .reset
  | done outcome => cases taken

end UserCall

/-! ### Requests at once -/

/-- The table and the requests under way. -/
structure CallState where
  users : Users
  calls : List UserCall

/-- One call takes its next statement; the label is its position. -/
inductive CallStep (env : CallEnvironment) (state : CallState) : Nat → CallState → Prop where
  | mk {turn call users following} (at_ : state.calls[turn]? = some call)
      (taken : call.next env state.users = some (users, following)) :
      CallStep env state turn { users, calls := state.calls.set turn following }

/-- The state after a turn. -/
def CallState.after (env : CallEnvironment) (state : CallState) (turn : Nat) : CallState :=
  match (state.calls[turn]?).bind (·.next env state.users) with
  | some (users, following) => { users, calls := state.calls.set turn following }
  | none => state

/-- A call that may move moves. -/
theorem CallState.step_after {env : CallEnvironment} {state : CallState} {turn : Nat}
    (moves : ((state.calls[turn]?).bind (·.next env state.users)).isSome) :
    CallStep env state turn (state.after env turn) := by
  unfold CallState.after
  cases taken : (state.calls[turn]?).bind (·.next env state.users) with
  | none =>
      rw [taken] at moves
      cases moves
  | some result =>
      obtain ⟨call, at_, taken⟩ := Option.bind_eq_some_iff.mp taken
      exact .mk at_ taken

end MessagePusher.Controller
