import MessagePusher.Controller.User

/-!
# Logging in and out

`Login`, `setupLogin` and `Logout` of `controller/user.go`, and the logins through
GitHub and WeChat. What those services answer comes in with the request. `saved`
says whether `session.Save` succeeds.
-/

namespace MessagePusher.Controller

open Common Model Store Middleware

/-- The struct `LoginRequest`. -/
structure LoginRequest where
  username : String := ""
  password : String := ""
deriving DecidableEq

/-- The JSON names of its fields. -/
def LoginRequest.jsonFields : List (Json.Field LoginRequest) :=
  [ Json.stringField "username" fun value request => { request with username := value },
    Json.stringField "password" fun value request => { request with password := value } ]

/-- What a login does; without `session` the session of the client stays as it was. -/
structure LoginOutcome where
  users : Users
  session : Option Session := none
  reply : Reply User

/-- An error is answered, and no session opened. -/
def rejectLogin (users : Users) (message : String) : LoginOutcome :=
  { users, reply := { message } }

/-- The session of a user, from the row as it is at login. -/
def sessionOf (user : User) : Session where
  id := user.id
  username := user.username
  role := user.role
  status := user.status

/-- The columns of the user that a login shows. -/
def loginView (user : User) : User where
  id := user.id
  username := user.username
  displayName := user.displayName
  role := user.role
  status := user.status

/-- `setupLogin`: without a session that is saved there is none. -/
def setupLogin (saved : Bool) (user : User) (users : Users) : LoginOutcome :=
  if saved then
    { users, session := some (sessionOf user)
      reply := { success := true, data := some (loginView user) } }
  else rejectLogin users "无法保存会话信息，请重试"

/-- `Login`. -/
def login (env : UserEnvironment) (saved : Bool) (body : Option Json) (users : Users) :
    LoginOutcome :=
  if !env.settings.passwordLoginEnabled then rejectLogin users "管理员关闭了密码登录"
  else match Json.decodeInto LoginRequest.jsonFields body {} with
    | none => rejectLogin users "无效的参数"
    | some request =>
        if request.username = "" ∨ request.password = "" then rejectLogin users "无效的参数"
        else
          let user : User := { username := request.username, password := request.password }
          match validateAndFill env.passwords users user with
          | .error text => rejectLogin users text
          | .ok user => setupLogin saved user users

/-- `Logout` clears the session. -/
def logout (saved : Bool) (session : Option Session) : Option Session :=
  if saved then none else session

/-! ### Third parties -/

/-- The user of a third-party account: the first row that has it, or a new one. -/
def thirdPartyUser (env : UserEnvironment) (account : User → String) (blank : String)
    (user : User) (newUser : User) (users : Users) : Users × Except String User :=
  let holds (row : User) : Bool := account row = account user
  if alreadyTaken account users (account user) then
    (users, if account user = "" then .error blank else .ok ((users.first holds).getD user))
  else if env.settings.registerEnabled then newUser.insert env.passwords users
  else (users, .error "管理员关闭了新用户注册")

/-- The common end of both third-party logins. -/
def thirdPartyLogin (saved : Bool) (found : Users × Except String User) : LoginOutcome :=
  match found with
  | (users, .error text) => rejectLogin users text
  | (users, .ok user) =>
      if user.status ≠ userStatusEnabled then rejectLogin users "用户已被封禁"
      else setupLogin saved user users

/-- The fields of a GitHub account. -/
structure GitHubUser where
  login : String
  name : String := ""
  email : String := ""
deriving DecidableEq

/-- The user that `GitHubOAuth` registers. -/
def gitHubNewUser (account : GitHubUser) (users : Users) : User where
  username := "github_" ++ Text.itoa (getMaxUserId users + 1)
  displayName := if account.name = "" then "GitHub User" else account.name
  email := account.email
  gitHubId := account.login
  role := roleCommonUser
  status := userStatusEnabled

/-- `GitHubBind`, with the id of the session. -/
def gitHubBind (env : UserEnvironment) (id : Int) (account : Except String GitHubUser)
    (users : Users) : LoginOutcome :=
  if !env.settings.gitHubOAuthEnabled then rejectLogin users "管理员未开启通过 GitHub 登录以及注册"
  else match account with
    | .error text => rejectLogin users text
    | .ok account =>
        if isGitHubIdAlreadyTaken users account.login then
          rejectLogin users "该 GitHub 账户已被绑定"
        else match fillUserById users { id, gitHubId := account.login } with
          | .error text => rejectLogin users text
          | .ok user =>
              match { user with gitHubId := account.login }.update env.passwords false users with
              | (next, some text) => rejectLogin next text
              | (next, none) => { users := next, reply := { success := true, message := "bind" } }

/-- `GitHubOAuth`; a client with a session binds the account instead of logging in. -/
def gitHubOAuth (env : UserEnvironment) (saved : Bool) (session : Option Session)
    (account : Except String GitHubUser) (users : Users) : LoginOutcome :=
  match session with
  | some session => gitHubBind env session.id account users
  | none =>
      if !env.settings.gitHubOAuthEnabled then
        rejectLogin users "管理员未开启通过 GitHub 登录以及注册"
      else match account with
        | .error text => rejectLogin users text
        | .ok account =>
            thirdPartyLogin saved
              (thirdPartyUser env User.gitHubId "GitHub id 为空！" { gitHubId := account.login }
                (gitHubNewUser account users) users)

/-- The user that `GitHubOAuth` is about to insert for a client without a session, if any. -/
def gitHubRegistration (env : UserEnvironment) (account : Except String GitHubUser)
    (users : Users) : Option User :=
  match account with
  | .error _ => none
  | .ok account =>
      if env.settings.gitHubOAuthEnabled ∧ !isGitHubIdAlreadyTaken users account.login ∧
          env.settings.registerEnabled then
        some (gitHubNewUser account users)
      else none

theorem gitHubRegistration_some {env : UserEnvironment} {account : Except String GitHubUser}
    {users : Users} {user : User} (registers : gitHubRegistration env account users = some user) :
    ∃ profile, account = .ok profile ∧ user = gitHubNewUser profile users := by
  cases account with
  | error text => cases registers
  | ok profile =>
      unfold gitHubRegistration at registers
      dsimp only at registers
      split_ifs at registers
      exact ⟨profile, rfl, (Option.some.inj registers).symm⟩

/-- The user that `WeChatAuth` registers. -/
def weChatNewUser (weChatId : String) (users : Users) : User where
  username := "wechat_" ++ Text.itoa (getMaxUserId users + 1)
  displayName := "WeChat User"
  weChatId := weChatId
  role := roleCommonUser
  status := userStatusEnabled

/-- The user that `WeChatAuth` is about to insert, if any. -/
def weChatRegistration (env : UserEnvironment) (account : Except String String) (users : Users) :
    Option User :=
  match account with
  | .error _ => none
  | .ok weChatId =>
      if env.settings.weChatAuthEnabled ∧ !isWeChatIdAlreadyTaken users weChatId ∧
          env.settings.registerEnabled then
        some (weChatNewUser weChatId users)
      else none

theorem weChatRegistration_some {env : UserEnvironment} {account : Except String String}
    {users : Users} {user : User} (registers : weChatRegistration env account users = some user) :
    ∃ weChatId, account = .ok weChatId ∧ user = weChatNewUser weChatId users := by
  cases account with
  | error text => cases registers
  | ok weChatId =>
      unfold weChatRegistration at registers
      dsimp only at registers
      split_ifs at registers
      exact ⟨weChatId, rfl, (Option.some.inj registers).symm⟩

/-- `WeChatAuth`. -/
def weChatAuth (env : UserEnvironment) (saved : Bool) (account : Except String String)
    (users : Users) : LoginOutcome :=
  if !env.settings.weChatAuthEnabled then rejectLogin users "管理员未开启通过微信登录以及注册"
  else match account with
    | .error text => rejectLogin users text
    | .ok weChatId =>
        thirdPartyLogin saved
          (thirdPartyUser env User.weChatId "WeChat id 为空！" { weChatId }
            (weChatNewUser weChatId users) users)

/-- `WeChatBind`. -/
def weChatBind (env : UserEnvironment) (id : Int) (account : Except String String)
    (users : Users) : LoginOutcome :=
  if !env.settings.weChatAuthEnabled then rejectLogin users "管理员未开启通过微信登录以及注册"
  else match account with
    | .error text => rejectLogin users text
    | .ok weChatId =>
        if isWeChatIdAlreadyTaken users weChatId then rejectLogin users "该微信账号已被绑定"
        else match fillUserById users { id } with
          | .error text => rejectLogin users text
          | .ok user =>
              match { user with weChatId }.update env.passwords false users with
              | (next, some text) => rejectLogin next text
              | (next, none) => { users := next, reply := { success := true } }

end MessagePusher.Controller
