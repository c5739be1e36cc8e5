import MessagePusher.Middleware.Auth

/-!
# The user handlers

`controller/user.go`, `github.go` and `wechat.go` as far as they read and write the
users table or a session. A handler answers the table afterwards, its call of the
token store and its reply; a missing reply is an empty body.
-/

namespace MessagePusher.Controller

open Common Model Store Middleware

/-- What the user handlers read besides request, session and table. -/
structure UserEnvironment where
  settings : Settings := {}
  passwords : Passwords
  verifyCode : String → String → Bool := fun _ _ => false

/-- The calls of the package `channel` that user handlers make. -/
inductive TokenStoreCall where
  | addUser (id : Int)
  | removeUser (id : Int)
deriving DecidableEq

/-- What a user handler does. -/
structure Handled where
  users : Users
  tokenStore : Option TokenStoreCall := none
  reply : Option (Reply User) := none

/-- An error is answered, and nothing changed. -/
def refuse (users : Users) (message : String) : Handled :=
  { users, reply := some { message } }

/-- A success without data. -/
def succeed (users : Users) : Handled :=
  { users, reply := some { success := true } }

/-- The answer after `Insert`. -/
def answerInsert (result : Users × Except String User) : Handled :=
  match result with
  | (users, .error text) => refuse users text
  | (users, .ok _) => succeed users

/-- The answer after `Update`. -/
def answerUpdate (result : Users × Option String) : Handled :=
  match result with
  | (users, some text) => refuse users text
  | (users, none) => succeed users

/-! ### Registration and creation -/

/-- The user that `Register` inserts. -/
def registeredUser (env : UserEnvironment) (form : UserForm) : User where
  username := form.username
  password := form.password
  displayName := form.username
  email := if env.settings.emailVerificationEnabled then form.email else ""

/-- `Register`. -/
def register (env : UserEnvironment) (body : Option Json) (users : Users) : Handled :=
  if !env.settings.registerEnabled then refuse users "管理员关闭了新用户注册"
  else if !env.settings.passwordRegisterEnabled then
    refuse users "管理员关闭了通过密码进行注册，请使用第三方账户验证的形式进行注册"
  else match Json.decodeInto UserForm.jsonFields body {} with
    | none => refuse users "无效的参数"
    | some form =>
        match form.validate with
        | some text => refuse users ("输入不合法 " ++ text)
        | none =>
            if env.settings.emailVerificationEnabled ∧
                (form.email = "" ∨ form.verificationCode = "") then
              refuse users "管理员开启了邮箱验证，请输入邮箱地址和验证码"
            else if env.settings.emailVerificationEnabled ∧
                env.verifyCode form.email form.verificationCode = false then
              refuse users "验证码错误或已过期"
            else answerInsert ((registeredUser env form).insert env.passwords users)

/-- `Register` up to its insertion: the user to insert, or the refusal. -/
def admitRegister (env : UserEnvironment) (body : Option Json) : Except String User := do
  if !env.settings.registerEnabled then .error "管理员关闭了新用户注册"
  if !env.settings.passwordRegisterEnabled then
    .error "管理员关闭了通过密码进行注册，请使用第三方账户验证的形式进行注册"
  let form ←
    match Json.decodeInto UserForm.jsonFields body {} with
    | none => .error "无效的参数"
    | some form => .ok form
  match form.validate with
  | some text => .error ("输入不合法 " ++ text)
  | none =>
      if env.settings.emailVerificationEnabled ∧
          (form.email = "" ∨ form.verificationCode = "") then
        .error "管理员开启了邮箱验证，请输入邮箱地址和验证码"
      else if env.settings.emailVerificationEnabled ∧
          env.verifyCode form.email form.verificationCode = false then
        .error "验证码错误或已过期"
      else return registeredUser env form

theorem register_eq (env : UserEnvironment) (body : Option Json) (users : Users) :
    register env body users =
      match admitRegister env body with
      | .error text => refuse users text
      | .ok user => answerInsert (user.insert env.passwords users) := by
  unfold register admitRegister
  cases env.settings.registerEnabled with
  | false => rfl
  | true =>
      cases env.settings.passwordRegisterEnabled with
      | false => rfl
      | true =>
          cases Json.decodeInto UserForm.jsonFields body {} with
          | none => rfl
          | some form =>
              simp only [Bool.not_true, Bool.false_eq_true, if_false, pure, Except.pure, bind,
                Except.bind]
              cases form.validate with
              | some text => rfl
              | none =>
                  dsimp only
                  split_ifs with missing refused
                  · rfl
                  · rfl
                  · rfl

/-- A user that `Register` admits has passed the validator. -/
theorem admitRegister_ok {env : UserEnvironment} {body : Option Json} {user : User}
    (admitted : admitRegister env body = .ok user) :
    ∃ form, Json.decodeInto UserForm.jsonFields body {} = some form ∧ form.validate = none ∧
      user = registeredUser env form := by
  unfold admitRegister at admitted
  cases decoded : Json.decodeInto UserForm.jsonFields body {} with
  | none =>
      simp only [decoded, bind, Except.bind] at admitted
      split_ifs at admitted
  | some form =>
      cases invalid : form.validate with
      | some text =>
          simp only [decoded, invalid, bind, Except.bind] at admitted
          split_ifs at admitted
      | none =>
          simp only [decoded, invalid, bind, Except.bind, pure, Except.pure] at admitted
          split_ifs at admitted
          exact ⟨form, rfl, invalid, (Except.ok.inj admitted).symm⟩

/-- The user that `CreateUser` inserts. -/
def createdUser (form : UserForm) : User where
  username := form.username
  password := form.password
  displayName := if form.displayName = "" then form.username else form.displayName

/-- `CreateUser`. -/
def createUser (env : UserEnvironment) (myRole : Int) (body : Option Json) (users : Users) :
    Handled :=
  match Json.decodeInto UserForm.jsonFields body {} with
  | none => refuse users "无效的参数"
  | some form =>
      if form.username = "" ∨ form.password = "" then refuse users "无效的参数"
      else if form.role ≥ myRole then refuse users "无法创建权限大于等于自己的用户"
      else answerInsert ((createdUser form).insert env.passwords users)

/-- `CreateUser` up to its insertion: the user to insert, or the refusal. -/
def admitCreate (myRole : Int) (body : Option Json) : Except String User :=
  match Json.decodeInto UserForm.jsonFields body {} with
  | none => .error "无效的参数"
  | some form =>
      if form.username = "" ∨ form.password = "" then .error "无效的参数"
      else if form.role ≥ myRole then .error "无法创建权限大于等于自己的用户"
      else .ok (createdUser form)

theorem createUser_eq (env : UserEnvironment) (myRole : Int) (body : Option Json)
    (users : Users) :
    createUser env myRole body users =
      match admitCreate myRole body with
      | .error text => refuse users text
      | .ok user => answerInsert (user.insert env.passwords users) := by
  unfold createUser admitCreate
  cases Json.decodeInto UserForm.jsonFields body {} with
  | none => rfl
  | some form =>
      dsimp only
      split_ifs with missing high
      · rfl
      · rfl
      · rfl

/-- A user that `CreateUser` admits is named, and has passed no validator. -/
theorem admitCreate_ok {myRole : Int} {body : Option Json} {user : User}
    (admitted : admitCreate myRole body = .ok user) :
    ∃ form, Json.decodeInto UserForm.jsonFields body {} = some form ∧ form.username ≠ "" ∧
      user = createdUser form := by
  unfold admitCreate at admitted
  cases decoded : Json.decodeInto UserForm.jsonFields body {} with
  | none =>
      rw [decoded] at admitted
      cases admitted
  | some form =>
      simp only [decoded] at admitted
      split_ifs at admitted with missing high
      exact ⟨form, rfl, fun empty => missing (.inl empty), (Except.ok.inj admitted).symm⟩

/-! ### Changes of a profile -/

/-- The password that stands for "unchanged" while the form is validated. -/
def placeholderPassword : String := "$I_LOVE_U"

/-- The columns that `UpdateUser` writes; the rest of the struct is zero. -/
def profileOf (form : UserForm) : User where
  id := form.id
  username := form.username
  password := if form.password = placeholderPassword then "" else form.password
  displayName := form.displayName

/-- The form as `UpdateUser` validates it. -/
def withPlaceholder (form : UserForm) : UserForm :=
  { form with password := if form.password = "" then placeholderPassword else form.password }

/-- `UpdateUser` up to its write: the struct to write, or the refusal. -/
def admitUpdate (myRole : Int) (body : Option Json) (users : Users) : Except String User := do
  let form ←
    match Json.decodeInto UserForm.jsonFields body {} with
    | none => .error "无效的参数"
    | some form => if form.id = 0 then .error "无效的参数" else .ok (withPlaceholder form)
  match form.validate with
  | some text => .error ("输入不合法 " ++ text)
  | none =>
      let originUser ← getUserById users form.id false
      if myRole ≤ originUser.role then .error "无权更新同权限等级或更高权限等级的用户信息"
      if myRole ≤ form.role then .error "无权将其他用户权限等级提升到大于等于自己的权限等级"
      return profileOf form

/-- `UpdateUser`. -/
def updateUser (env : UserEnvironment) (myRole : Int) (body : Option Json) (users : Users) :
    Handled :=
  match admitUpdate myRole body users with
  | .error text => refuse users text
  | .ok cleanUser =>
      answerUpdate (cleanUser.update env.passwords (cleanUser.password ≠ "") users)

/-- The struct that `UpdateSelf` writes. -/
def ownProfileOf (id : Int) (form : UserForm) : User where
  id := id
  username := form.username
  password := if form.password = placeholderPassword then "" else form.password
  displayName := form.displayName
  token := form.token
  channel := form.channel

/-- `UpdateSelf` up to its write, without a look at the table. -/
def admitUpdateSelf (id : Int) (body : Option Json) : Except String User :=
  match Json.decodeInto UserForm.jsonFields body {} with
  | none => .error "无效的参数"
  | some form =>
      match (withPlaceholder form).validate with
      | some text => .error ("输入不合法 " ++ text)
      | none => .ok (ownProfileOf id (withPlaceholder form))

/-- `UpdateSelf`. -/
def updateSelf (env : UserEnvironment) (id : Int) (body : Option Json) (users : Users) : Handled :=
  match admitUpdateSelf id body with
  | .error text => refuse users text
  | .ok cleanUser =>
      answerUpdate (cleanUser.update env.passwords (cleanUser.password ≠ "") users)

/-- What `UpdateUser` admits: a form with an id, which passed the validator, of an account that
ranks below the actor. -/
theorem admitUpdate_passed {myRole : Int} {body : Option Json} {users : Users} {user : User}
    (admitted : admitUpdate myRole body users = .ok user) :
    ∃ form origin, (withPlaceholder form).validate = none ∧
      getUserById users form.id false = .ok origin ∧ origin.role < myRole ∧
      user = profileOf (withPlaceholder form) := by
  unfold admitUpdate at admitted
  cases decoded : Json.decodeInto UserForm.jsonFields body {} with
  | none => simp [decoded, bind, Except.bind] at admitted
  | some form =>
      simp only [decoded, bind, Except.bind, pure, Except.pure] at admitted
      by_cases unset : form.id = 0
      · simp [unset] at admitted
      · simp only [unset, if_false] at admitted
        cases invalid : (withPlaceholder form).validate with
        | some text => simp [invalid] at admitted
        | none =>
            simp only [invalid] at admitted
            cases loaded : getUserById users (withPlaceholder form).id false with
            | error text => simp [loaded] at admitted
            | ok origin =>
                simp only [loaded] at admitted
                split_ifs at admitted with low high
                exact ⟨form, origin, invalid, loaded, Int.not_le.mp low,
                  (Except.ok.inj admitted).symm⟩

/-- The struct that `UpdateUser` writes has passed the validator, and its row is there. -/
theorem admitUpdate_form {myRole : Int} {body : Option Json} {users : Users} {user : User}
    (admitted : admitUpdate myRole body users = .ok user) :
    ∃ form, (withPlaceholder form).validate = none ∧ user = profileOf (withPlaceholder form) := by
  obtain ⟨form, -, valid, -, -, same⟩ := admitUpdate_passed admitted
  exact ⟨form, valid, same⟩

/-- So has the struct that `UpdateSelf` writes. -/
theorem admitUpdateSelf_form {id : Int} {body : Option Json} {user : User}
    (admitted : admitUpdateSelf id body = .ok user) :
    ∃ form, (withPlaceholder form).validate = none ∧
      user = ownProfileOf id (withPlaceholder form) := by
  unfold admitUpdateSelf at admitted
  cases decoded : Json.decodeInto UserForm.jsonFields body {} with
  | none =>
      rw [decoded] at admitted
      cases admitted
  | some form =>
      cases invalid : (withPlaceholder form).validate with
      | some text => simp [decoded, invalid] at admitted
      | none =>
          simp only [decoded, invalid] at admitted
          exact ⟨form, invalid, (Except.ok.inj admitted).symm⟩

/-- Whether the row of the user has the token of the struct: `First` into a struct with an id
looks at that row alone. -/
def tokenRepeated (user : User) (users : Users) : Bool :=
  (users.first fun row => row.token = user.token ∧ row.id = user.id).isSome

/-- What `GenerateToken` does; the token is the random one, without hyphens. -/
structure TokenGenerated where
  users : Users
  reply : Reply String

/-- `GenerateToken`; `token` is the UUID that it makes. -/
def generateToken (env : UserEnvironment) (id : Int) (token : String) (users : Users) :
    TokenGenerated :=
  match getUserById users id true with
  | .error text => { users, reply := { message := text } }
  | .ok user =>
      if tokenRepeated { user with token } users then
        { users, reply := { message := "请重试，系统生成的 UUID 竟然重复了！" } }
      else match { user with token }.update env.passwords false users with
        | (next, some text) => { users := next, reply := { message := text } }
        | (next, none) => { users := next, reply := { success := true, data := some token } }

/-! ### Management -/

/-- The struct `ManageRequest`. -/
structure ManageRequest where
  username : String := ""
  action : String := ""
deriving DecidableEq

/-- The JSON names of its fields. -/
def ManageRequest.jsonFields : List (Json.Field ManageRequest) :=
  [ Json.stringField "username" fun value request => { request with username := value },
    Json.stringField "action" fun value request => { request with action := value } ]

/-- What an action makes of the user it is applied to. -/
structure Managed where
  user : User
  deletes : Bool := false
  tokenStore : Option TokenStoreCall := none

/-- The switch of `ManageUser`; an unknown action leaves the user as it is. -/
def manageAction (myRole : Int) (action : String) (user : User) : Except String Managed :=
  if action = "disable" then
    if user.status = userStatusDisabled then .error "该账户已经是封禁状态"
    else if user.role = roleRootUser then .error "无法禁用超级管理员用户"
    else .ok
      { user := { user with status := userStatusDisabled }
        tokenStore := some (.removeUser user.id) }
  else if action = "enable" then
    if user.status = userStatusEnabled then .error "该账户已经是启用状态"
    else .ok
      { user := { user with status := userStatusEnabled }
        tokenStore := some (.addUser user.id) }
  else if action = "delete" then
    if user.role = roleRootUser then .error "无法删除超级管理员用户"
    else .ok { user, deletes := true, tokenStore := some (.removeUser user.id) }
  else if action = "promote" then
    if myRole ≠ roleRootUser then .error "普通管理员用户无法提升其他用户为管理员"
    else if user.role ≥ roleAdminUser then .error "该用户已经是管理员"
    else .ok { user := { user with role := roleAdminUser } }
  else if action = "demote" then
    if user.role = roleRootUser then .error "无法降级超级管理员用户"
    else if user.role = roleCommonUser then .error "该用户已经是普通用户"
    else .ok { user := { user with role := roleCommonUser } }
  else if action = "allow_send_email_to_others" then
    .ok { user := { user with sendEmailToOthers := sendEmailToOthersAllowed } }
  else if action = "disallow_send_email_to_others" then
    .ok { user := { user with sendEmailToOthers := sendEmailToOthersDisallowed } }
  else if action = "allow_save_message_to_database" then
    .ok { user := { user with saveMessageToDatabase := saveMessageToDatabaseAllowed } }
  else if action = "disallow_save_message_to_database" then
    .ok { user := { user with saveMessageToDatabase := saveMessageToDatabaseDisallowed } }
  else .ok { user }

/-- The row that `ManageUser` finds. A blank name is no condition, so that the first row
is found. -/
def managedRow (request : ManageRequest) (users : Users) : Option User :=
  users.first fun row => request.username = "" ∨ row.username = request.username

/-- `ManageUser` up to its writes: the action, the row it is applied to and what it makes
of it, or the refusal. -/
def admitManage (myRole : Int) (body : Option Json) (users : Users) :
    Except String (String × User × Managed) := do
  let request ←
    match Json.decodeInto ManageRequest.jsonFields body {} with
    | none => .error "无效的参数"
    | some request => .ok request
  let user := (managedRow request users).getD { username := request.username }
  if user.id = 0 then .error "用户不存在"
  if myRole ≤ user.role ∧ myRole ≠ roleRootUser then
    .error "无权更新同权限等级或更高权限等级的用户信息"
  let managed ← manageAction myRole request.action user
  return (request.action, user, managed)

/-- The columns that `ManageUser` shows. -/
def managedView (user : User) : User where
  role := user.role
  status := user.status
  sendEmailToOthers := user.sendEmailToOthers
  saveMessageToDatabase := user.saveMessageToDatabase

/-- `ManageUser`. -/
def manageUser (env : UserEnvironment) (myRole : Int) (body : Option Json) (users : Users) :
    Handled :=
  match admitManage myRole body users with
  | .error text => refuse users text
  | .ok (_, _, managed) =>
      let remaining := if managed.deletes then users.delete managed.user.id else users
      match managed.user.update env.passwords false remaining with
      | (next, some text) => { refuse next text with tokenStore := managed.tokenStore }
      | (next, none) =>
          { users := next
            tokenStore := managed.tokenStore
            reply := some { success := true, data := some (managedView managed.user) } }

/-! ### Deletion -/

/-- `DeleteUser` up to its writes: the row to delete, or the refusal. -/
def admitDelete (myRole : Int) (idParam : String) (users : Users) : Except String User := do
  let id ← Text.atoi idParam
  let originUser ← getUserById users id false
  if myRole ≤ originUser.role then .error "无权删除同权限等级或更高权限等级的用户"
  return originUser

/-- `DeleteUser`; after a deletion nothing is written to the response. -/
def deleteUser (myRole : Int) (idParam : String) (users : Users) : Handled :=
  match admitDelete myRole idParam users with
  | .error text => refuse users text
  | .ok originUser =>
      let tokenStore := some (TokenStoreCall.removeUser originUser.id)
      match deleteUserById users originUser.id with
      | (next, some _) => { users := next, tokenStore, reply := some { success := true } }
      | (next, none) => { users := next, tokenStore }

/-- `DeleteSelf`. -/
def deleteSelf (id : Int) (users : Users) : Handled :=
  match fillUserById users { id } with
  | .error text => refuse users text
  | .ok user =>
      let tokenStore := some (TokenStoreCall.removeUser user.id)
      match deleteUserById users id with
      | (next, some text) => { refuse next text with tokenStore }
      | (next, none) => { succeed next with tokenStore }

end MessagePusher.Controller
