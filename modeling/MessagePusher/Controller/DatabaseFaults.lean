import MessagePusher.Controller.Channel
import MessagePusher.Controller.Misc
import MessagePusher.Controller.UpdateOption
import MessagePusher.Controller.UserEffects

/-!
# Handlers on a database that fails

The nine handlers that delete or change rows, with a failure at any of their database steps. Beside
the tables a server has the token store, an entry of which is an item and the token that was fetched
for it. `wrote` records the writing statements that went through.
-/

namespace MessagePusher.Controller.Failing

open Common Model Store Middleware
open Channel (StoreCall TokenStoreItem channels2items tokenStoreAddUser tokenStoreAddChannel
  tokenStoreRemoveChannel tokenStoreUpdateChannel keepChangedParts)

/-- The steps of the handlers; the count of `IsShared` with the position of its item. -/
inductive DbStep where
  | firstUser
  | deleteUser
  | updateUser
  | storeChannels
  | countItem (position : Nat)
  | countName
  | firstChannel
  | insertChannel
  | updateChannel
  | deleteChannel
  | firstOption
  | createOption
  | saveOption
deriving DecidableEq

/-- The error of each step, if it fails. -/
abbrev Faults := DbStep → Option String

/-- No step fails. -/
def Faults.none : Faults := fun _ => Option.none

/-- The writing statements, without the values that they write. -/
inductive Write where
  | deleteUser (id : Int)
  | updateUser (id : Int)
  | insertChannel (userId : Int) (name : String)
  | updateChannel (id : Int)
  | deleteChannel (id : Int)
  | createOption (key : String)
  | saveOption (key value : String)
deriving DecidableEq

/-- The tables, the options in memory and the token store. -/
structure Server where
  users : Users
  channels : Channels
  options : OptionServer
  store : String → Option (TokenStoreItem × String)

/-- What a handler does; a missing reply is an empty body. -/
structure Served (α : Type) where
  server : Server
  wrote : List Write := []
  reply : Option (Reply α) := none

/-- Nothing was written, and an error is answered. -/
def Served.refuse {α : Type} (server : Server) (message : String) : Served α :=
  { server, reply := some { message } }

/-! ### Steps -/

section Steps

variable (fetch : TokenStoreItem → String) (faults : Faults)

/-- A query whose failure is answered; `early` is when the function returns before it. -/
def query {α : Type} (step : DbStep) (early : Prop) [Decidable early] (result : Except String α) :
    Except String α :=
  if early then result
  else match faults step with
    | some text => .error text
    | Option.none => result

/-- The rows that a query finds whose failure is ignored. -/
def visible {ρ : Type} [Record ρ] (step : DbStep) (table : Table ρ) : Table ρ :=
  match faults step with
  | some _ => .empty
  | Option.none => table

/-- A call of the token store; `fetch` answers the token that `Refresh` gets, blank if none. -/
def applyCall (store : String → Option (TokenStoreItem × String)) :
    StoreCall → String → Option (TokenStoreItem × String)
  | .addItem item =>
      if item.isFilled then Function.update store item.key (some (item, fetch item)) else store
  | .removeItem item => Function.update store item.key Option.none

/-- The calls one after the other. -/
def runCalls (store : String → Option (TokenStoreItem × String)) (calls : List StoreCall) :
    String → Option (TokenStoreItem × String) :=
  calls.foldl (applyCall fetch) store

/-- `IsShared`; a failed count leaves zero. -/
def isShared (channels : Channels) (item : TokenStoreItem) (position : Nat) : Bool :=
  match faults (.countItem position) with
  | some _ => false
  | Option.none => item.isShared channels

/-- `TokenStoreAddUser`. -/
def addUserCalls (channels : Channels) (userId : Int) : List StoreCall :=
  match faults .storeChannels with
  | some _ => []
  | Option.none => tokenStoreAddUser channels userId

/-- `TokenStoreRemoveUser`. -/
def removeUserCalls (channels : Channels) (userId : Int) : List StoreCall :=
  match faults .storeChannels with
  | some _ => []
  | Option.none =>
      ((channels2items (getTokenStoreChannelsByUserId channels userId)).zipIdx.filter fun entry =>
        !isShared faults channels entry.1 entry.2).map fun entry => .removeItem entry.1

/-- The calls that an action of `ManageUser` asks for. -/
def userCalls (channels : Channels) : Option TokenStoreCall → List StoreCall
  | Option.none => []
  | some (.addUser userId) => addUserCalls faults channels userId
  | some (.removeUser userId) => removeUserCalls faults channels userId

/-- `User.Update`: the table, the writes and the error. -/
def update (passwords : Passwords) (user : User) (updatePassword : Bool) (users : Users) :
    Users × List Write × Option String :=
  match faults .updateUser with
  | some text =>
      let hashed := if updatePassword then passwords.hash user.password else .ok user.password
      (users, [], some (match hashed with
        | .error hashError => hashError
        | .ok _ => text))
  | Option.none =>
      match user.update passwords updatePassword users with
      | (next, some text) => (next, [], some text)
      | (next, Option.none) =>
          (next, if (users.rowAt user.id).isSome then [.updateUser user.id] else [], Option.none)

/-- `DeleteUserById` and `User.Delete`. -/
def deleteUserById (id : Int) (users : Users) : Users × List Write × Option String :=
  if id = 0 then (users, [], some "id 为空！")
  else match faults .deleteUser with
    | some text => (users, [], some text)
    | Option.none => (users.delete id, [.deleteUser id], Option.none)

/-- `Channel.Insert`, answering the stored row. -/
def insertChannel (channel : Model.Channel) (channels : Channels) :
    Channels × List Write × Except String Model.Channel :=
  match faults .insertChannel with
  | some text => (channels, [], .error text)
  | Option.none =>
      match channel.insert channels with
      | (next, .error text) => (next, [], .error text)
      | (next, .ok stored) => (next, [.insertChannel channel.userId channel.name], .ok stored)

end Steps

/-! ### Users -/

section Users

variable (fetch : TokenStoreItem → String) (faults : Faults)

/-- `GetUserById`, which answers for a blank id without its query. -/
def getUserById (users : Users) (id : Int) (selectAll : Bool) : Except String User :=
  query faults .firstUser (id = 0) (Model.getUserById users id selectAll)

/-- `DeleteUser` up to its writes: the row to delete, or the refusal. -/
def admitDelete (myRole : Int) (idParam : String) (users : Users) : Except String User := do
  let id ← Text.atoi idParam
  let originUser ← getUserById faults users id false
  if myRole ≤ originUser.role then .error "无权删除同权限等级或更高权限等级的用户"
  return originUser

/-- `DeleteUser`: a failed deletion is answered with a success, and a deletion with nothing. -/
def deleteUser (myRole : Int) (idParam : String) (server : Server) : Served User :=
  match admitDelete faults myRole idParam server.users with
  | .error text => .refuse server text
  | .ok originUser =>
      let calls := removeUserCalls faults server.channels originUser.id
      let cleared := { server with store := runCalls fetch server.store calls }
      match deleteUserById faults originUser.id server.users with
      | (next, wrote, some _) =>
          { server := { cleared with users := next }, wrote, reply := some { success := true } }
      | (next, wrote, Option.none) => { server := { cleared with users := next }, wrote }

/-- `DeleteSelf`: the token store is called before the deletion. -/
def deleteSelf (id : Int) (server : Server) : Served User :=
  match fillUserById (visible faults .firstUser server.users) { id } with
  | .error text => .refuse server text
  | .ok user =>
      let calls := removeUserCalls faults server.channels user.id
      let cleared := { server with store := runCalls fetch server.store calls }
      match deleteUserById faults id server.users with
      | (next, wrote, some text) =>
          { server := { cleared with users := next }, wrote, reply := some { message := text } }
      | (next, wrote, Option.none) =>
          { server := { cleared with users := next }, wrote, reply := some { success := true } }

/-- `ManageUser` up to its writes. A failed query finds nobody. -/
def admitManage (myRole : Int) (body : Option Json) (users : Users) :
    Except String (String × User × Managed) :=
  Controller.admitManage myRole body (visible faults .firstUser users)

/-- The end of `ManageUser`. -/
def updateManaged (env : UserEnvironment) (user : User) (server : Server) (wrote : List Write) :
    Served User :=
  match update faults env.passwords user false server.users with
  | (next, also, some text) =>
      { server := { server with users := next }
        wrote := wrote ++ also
        reply := some { message := text } }
  | (next, also, Option.none) =>
      { server := { server with users := next }
        wrote := wrote ++ also
        reply := some { success := true, data := some (managedView user) } }

/-- `ManageUser`: the token store is called before the update, but after a deletion. -/
def manageUser (env : UserEnvironment) (myRole : Int) (body : Option Json) (server : Server) :
    Served User :=
  match admitManage faults myRole body server.users with
  | .error text => .refuse server text
  | .ok (_, _, managed) =>
      let calls := userCalls faults server.channels managed.tokenStore
      let called := { server with store := runCalls fetch server.store calls }
      if managed.deletes then
        match deleteUserById faults managed.user.id server.users with
        | (next, wrote, some text) =>
            { server := { server with users := next }, wrote, reply := some { message := text } }
        | (next, wrote, Option.none) =>
            updateManaged faults env managed.user { called with users := next } wrote
      else updateManaged faults env managed.user called []

/-- `UpdateUser` up to its write. -/
def admitUpdate (myRole : Int) (body : Option Json) (users : Users) : Except String User := do
  let form ←
    match Json.decodeInto UserForm.jsonFields body {} with
    | Option.none => .error "无效的参数"
    | some form => if form.id = 0 then .error "无效的参数" else .ok (withPlaceholder form)
  match form.validate with
  | some text => .error ("输入不合法 " ++ text)
  | Option.none =>
      let originUser ← getUserById faults users form.id false
      if myRole ≤ originUser.role then .error "无权更新同权限等级或更高权限等级的用户信息"
      if myRole ≤ form.role then .error "无权将其他用户权限等级提升到大于等于自己的权限等级"
      return profileOf form

/-- `UpdateUser`. -/
def updateUser (env : UserEnvironment) (myRole : Int) (body : Option Json) (server : Server) :
    Served User :=
  match admitUpdate faults myRole body server.users with
  | .error text => .refuse server text
  | .ok cleanUser =>
      match update faults env.passwords cleanUser (cleanUser.password ≠ "") server.users with
      | (next, wrote, some text) =>
          { server := { server with users := next }, wrote, reply := some { message := text } }
      | (next, wrote, Option.none) =>
          { server := { server with users := next }, wrote, reply := some { success := true } }

/-- `EmailBind`; whether the channel could be inserted does not matter. -/
def emailBind (env : UserEnvironment) (id : Int) (email code : String) (timestamp : Int)
    (server : Server) : Served User :=
  if !env.verifyCode email code then .refuse server "验证码错误或已过期"
  else match fillUserById (visible faults .firstUser server.users) { id } with
    | .error text => .refuse server text
    | .ok user =>
        match update faults env.passwords { user with email } false server.users with
        | (next, wrote, some text) =>
            { server := { server with users := next }, wrote, reply := some { message := text } }
        | (next, wrote, Option.none) =>
            match insertChannel faults (emailChannel user timestamp) server.channels with
            | (channels, also, _) =>
                { server := { server with users := next, channels }
                  wrote := wrote ++ also
                  reply := some { success := true } }

end Users

/-! ### Options -/

section Options

variable (faults : Faults)

/-- `FirstOrCreate`, whose error is ignored: the table, the key in the struct and the writes. -/
def firstOrCreate (table : OptionTable) (key : String) : OptionTable × String × List Write :=
  match faults .firstOption with
  | some _ => (table, key, [])
  | Option.none =>
      match table.first key with
      | some row => (table, row.1, [])
      | Option.none =>
          match faults .createOption with
          | some _ => (table, key, [])
          | Option.none =>
              match table.create key "" with
              | some made => (made, key, [.createOption key])
              | Option.none => (table, key, [])

/-- `Save`, whose error is ignored too. -/
def saveOption (table : OptionTable) (key value : String) : OptionTable × List Write :=
  match faults .saveOption with
  | some _ => (table, [])
  | Option.none =>
      match table.save key value with
      | some next => (next, [.saveOption key value])
      | Option.none => (table, [])

/-- `UpdateOption`, with the options in memory: no error of the two statements is looked at. -/
def updateOption (body : Option Json) (server : Server) : Served Unit :=
  match Json.decodeInto optionFields body ("", "") with
  | Option.none => { server, reply := some { httpStatus := 400, message := "无效的参数" } }
  | some (key, value) =>
      match refuseOption server.options.options.settings key value with
      | some text => .refuse server text
      | Option.none =>
          let (made, found, created) := firstOrCreate faults server.options.table key
          let (saved, wrote) := saveOption faults made found value
          { server :=
              { server with
                options :=
                  { table := saved, options := updateOptionMap server.options.options key value } }
            wrote := created ++ wrote
            reply := some { success := true } }

end Options

/-! ### Channels -/

section Channels

variable (fetch : TokenStoreItem → String) (faults : Faults)

/-- `ChannelNameExists`, which answers for a blank name without its query. -/
def channelNameExists (channels : Channels) (name : String) (userId : Int) : Except String Bool :=
  query faults .countName (name = "" ∨ userId = 0) (Model.channelNameExists channels name userId)

/-- `GetChannelById`, which answers for a blank id without its query. -/
def getChannelById (channels : Channels) (id userId : Int) (selectAll : Bool) :
    Except String Model.Channel :=
  query faults .firstChannel (id = 0 ∨ userId = 0)
    (Model.getChannelById channels id userId selectAll)

/-- `AddChannel` up to its write. -/
def admitAddChannel (env : ChannelEnvironment) (userId : Int) (body : Option Json)
    (channels : Channels) : Except String Model.Channel := do
  let channel ←
    match Json.decodeInto Channel.jsonFields body {} with
    | Option.none => .error (env.bindError body)
    | some channel => .ok channel
  if byteLength channel.name = 0 ∨ 20 < byteLength channel.name then
    .error "通道名称长度必须在1-20之间"
  if channel.name = "email" then .error "不能使用系统保留名称"
  let nameExists ← (channelNameExists faults channels channel.name userId).mapError
    ("检查通道名称失败：" ++ ·)
  if nameExists then .error "通道名称已存在，请换一个名称"
  return addedChannel env userId channel

/-- `AddChannel`: the token store is called after the insertion. -/
def addChannel (env : ChannelEnvironment) (userId : Int) (body : Option Json) (server : Server) :
    Served Model.Channel :=
  match admitAddChannel faults env userId body server.channels with
  | .error text => .refuse server text
  | .ok cleanChannel =>
      match insertChannel faults cleanChannel server.channels with
      | (next, wrote, .error text) =>
          { server := { server with channels := next }, wrote, reply := some { message := text } }
      | (next, wrote, .ok stored) =>
          let store := runCalls fetch server.store (tokenStoreAddChannel stored)
          { server := { server with channels := next, store }
            wrote
            reply := some { success := true } }

/-- `UpdateChannel` up to its write. -/
def admitUpdateChannel (env : ChannelEnvironment) (userId : Int) (statusOnly : String)
    (body : Option Json) (channels : Channels) :
    Except String (Model.Channel × Model.Channel) := do
  let channel ←
    match Json.decodeInto Channel.jsonFields body {} with
    | Option.none => .error (env.bindError body)
    | some channel => .ok channel
  let oldChannel ← getChannelById faults channels channel.id userId true
  if statusOnly ≠ "" then return ({ oldChannel with status := channel.status }, oldChannel)
  if channel.name ≠ oldChannel.name then
    let nameExists ← (channelNameExists faults channels channel.name userId).mapError
      ("检查通道名称失败：" ++ ·)
    if nameExists then .error "通道名称已存在，请换一个名称"
  return (updatedChannel channel oldChannel, oldChannel)

/-- `Channel.Update`. -/
def updateChannelRow (channel : Model.Channel) (channels : Channels) :
    Channels × List Write × Option String :=
  match faults .updateChannel with
  | some text => (channels, [], some text)
  | Option.none =>
      match channel.update channels with
      | (next, some text) => (next, [], some text)
      | (next, Option.none) => (next, [.updateChannel channel.id], Option.none)

/-- `UpdateChannel`: the token store is called after the update. -/
def updateChannel (env : ChannelEnvironment) (userId : Int) (statusOnly : String)
    (body : Option Json) (server : Server) : Served Model.Channel :=
  match admitUpdateChannel faults env userId statusOnly body server.channels with
  | .error text => .refuse server text
  | .ok (cleanChannel, oldChannel) =>
      match updateChannelRow faults cleanChannel server.channels with
      | (next, wrote, some text) =>
          { server := { server with channels := next }, wrote, reply := some { message := text } }
      | (next, wrote, Option.none) =>
          let calls :=
            tokenStoreUpdateChannel (isShared faults next · 0) cleanChannel oldChannel
          { server := { server with channels := next, store := runCalls fetch server.store calls }
            wrote
            reply :=
              some { success := true, data := some (keepChangedParts cleanChannel oldChannel) } }

/-- `DeleteChannelById`, answering the deleted row. -/
def deleteChannelById (channels : Channels) (id userId : Int) :
    Channels × List Write × Except String Model.Channel :=
  match getChannelById faults channels id userId true with
  | .error text => (channels, [], .error text)
  | .ok row =>
      match faults .deleteChannel with
      | some text => (channels, [], .error text)
      | Option.none => (channels.delete row.id, [.deleteChannel row.id], .ok row)

/-- `DeleteChannel`: the token store is called after the deletion. -/
def deleteChannel (userId : Int) (idParam : String) (server : Server) : Served Model.Channel :=
  match deleteChannelById faults server.channels (Text.parseInt idParam).1 userId with
  | (next, wrote, .error text) =>
      { server := { server with channels := next }, wrote, reply := some { message := text } }
  | (next, wrote, .ok channel) =>
      let calls := tokenStoreRemoveChannel (isShared faults next · 0) channel
      { server := { server with channels := next, store := runCalls fetch server.store calls }
        wrote
        reply := some { success := true } }

end Channels

/-! ### Without failures -/

section WithoutFailures

variable (fetch : TokenStoreItem → String)

/-- A query on a working database. -/
@[simp] theorem query_none {α : Type} (step : DbStep) (early : Prop) [Decidable early]
    (result : Except String α) : query Faults.none step early result = result := by
  unfold query
  split_ifs
  · rfl
  · rfl

/-- `GetUserById` on a working database. -/
theorem getUserById_none : getUserById Faults.none = Model.getUserById := by
  funext users id selectAll
  exact query_none _ _ _

/-- `ChannelNameExists` on a working database. -/
theorem channelNameExists_none : channelNameExists Faults.none = Model.channelNameExists := by
  funext channels name userId
  exact query_none _ _ _

/-- `GetChannelById` on a working database. -/
theorem getChannelById_none : getChannelById Faults.none = Model.getChannelById := by
  funext channels id userId selectAll
  exact query_none _ _ _

@[simp] theorem visible_none {ρ : Type} [Record ρ] (step : DbStep) (table : Table ρ) :
    visible Faults.none step table = table := rfl

@[simp] theorem isShared_none (channels : Channels) (item : TokenStoreItem) (position : Nat) :
    isShared Faults.none channels item position = item.isShared channels := rfl

/-- The positions only matter for counts that fail. -/
theorem removeUserCalls_none (channels : Channels) (userId : Int) :
    removeUserCalls Faults.none channels userId =
      Channel.tokenStoreRemoveUser (TokenStoreItem.isShared channels) channels userId := by
  have kept (items : List TokenStoreItem) (start : Nat) :
      ((items.zipIdx start).filter fun entry => !entry.1.isShared channels).map
          (fun entry => StoreCall.removeItem entry.1) =
        (items.filter fun item => !item.isShared channels).map .removeItem := by
    induction items generalizing start with
    | nil => rfl
    | cons item items ih =>
        rw [List.zipIdx_cons, List.filter_cons, List.filter_cons]
        split_ifs
        · rw [List.map_cons, List.map_cons, ih]
        · exact ih _
  exact kept _ 0

/-- `User.Update` without its writes. -/
theorem update_none (passwords : Passwords) (user : User) (updatePassword : Bool)
    (users : Users) :
    (update Faults.none passwords user updatePassword users).1 =
        (user.update passwords updatePassword users).1 ∧
      (update Faults.none passwords user updatePassword users).2.2 =
        (user.update passwords updatePassword users).2 := by
  unfold update
  cases user.update passwords updatePassword users with
  | mk next failure => cases failure with
    | none => exact ⟨rfl, rfl⟩
    | some text => exact ⟨rfl, rfl⟩

/-- `DeleteUserById` without its writes. -/
theorem deleteUserById_none (id : Int) (users : Users) :
    (deleteUserById Faults.none id users).1 = (Model.deleteUserById users id).1 ∧
      (deleteUserById Faults.none id users).2.2 = (Model.deleteUserById users id).2 := by
  unfold deleteUserById Model.deleteUserById
  split_ifs
  · exact ⟨rfl, rfl⟩
  · exact ⟨rfl, rfl⟩

/-- `Channel.Insert` without its writes. -/
theorem insertChannel_none (channel : Model.Channel) (channels : Channels) :
    (insertChannel Faults.none channel channels).1 = (channel.insert channels).1 ∧
      (insertChannel Faults.none channel channels).2.2 = (channel.insert channels).2 := by
  unfold insertChannel
  cases channel.insert channels with
  | mk next outcome => cases outcome with
    | error text => exact ⟨rfl, rfl⟩
    | ok stored => exact ⟨rfl, rfl⟩

/-- The server and the reply are those of the handler that knows the users alone. -/
structure AgreesUser (server : Server) (done : Served User) (handled : Handled) : Prop where
  users : done.server.users = handled.users
  store : done.server.store =
    runCalls fetch server.store (userCalls Faults.none server.channels handled.tokenStore)
  reply : done.reply = handled.reply

/-- The same for a handler that knows the channels alone. -/
structure AgreesChannel (server : Server) (done : Served Model.Channel)
    (handled : ChannelHandled) : Prop where
  channels : done.server.channels = handled.channels
  store : done.server.store = runCalls fetch server.store handled.calls
  reply : done.reply = some handled.reply

/-- `DeleteUser` on a working database. -/
theorem deleteUser_none (myRole : Int) (idParam : String) (server : Server) :
    AgreesUser fetch server (deleteUser fetch Faults.none myRole idParam server)
      (Controller.deleteUser myRole idParam server.users) := by
  have admits : admitDelete Faults.none myRole idParam server.users =
      Controller.admitDelete myRole idParam server.users := by
    unfold admitDelete
    rw [getUserById_none]
    rfl
  unfold deleteUser Controller.deleteUser
  rw [admits]
  cases Controller.admitDelete myRole idParam server.users with
  | error text => exact ⟨rfl, rfl, rfl⟩
  | ok user =>
      simp only [deleteUserById, Model.deleteUserById]
      split_ifs
      · exact ⟨rfl, rfl, rfl⟩
      · exact ⟨rfl, rfl, rfl⟩

/-- `DeleteSelf` on a working database. -/
theorem deleteSelf_none (id : Int) (server : Server) :
    AgreesUser fetch server (deleteSelf fetch Faults.none id server)
      (Controller.deleteSelf id server.users) := by
  unfold deleteSelf Controller.deleteSelf
  rw [visible_none]
  cases fillUserById server.users { id } with
  | error text => exact ⟨rfl, rfl, rfl⟩
  | ok user =>
      simp only [deleteUserById, Model.deleteUserById]
      split_ifs
      · exact ⟨rfl, rfl, rfl⟩
      · exact ⟨rfl, rfl, rfl⟩

/-- The end of `ManageUser`, from whatever the token store was called for. -/
theorem updateManaged_none (env : UserEnvironment) (managed : Managed) {server called : Server}
    (wrote : List Write) (store : called.store =
      runCalls fetch server.store (userCalls Faults.none server.channels managed.tokenStore)) :
    AgreesUser fetch server (updateManaged Faults.none env managed.user called wrote)
      (match managed.user.update env.passwords false called.users with
      | (next, some text) =>
          { Controller.refuse next text with tokenStore := managed.tokenStore }
      | (next, Option.none) =>
          { users := next
            tokenStore := managed.tokenStore
            reply := some { success := true, data := some (managedView managed.user) } }) := by
  unfold updateManaged update
  cases managed.user.update env.passwords false called.users with
  | mk next failure => cases failure with
    | none => exact ⟨rfl, store, rfl⟩
    | some text => exact ⟨rfl, store, rfl⟩

/-- `ManageUser` on a working database. -/
theorem manageUser_none (env : UserEnvironment) (myRole : Int) (body : Option Json)
    (server : Server) :
    AgreesUser fetch server (manageUser fetch Faults.none env myRole body server)
      (Controller.manageUser env myRole body server.users) := by
  unfold manageUser Controller.manageUser admitManage
  rw [visible_none]
  cases admitted : Controller.admitManage myRole body server.users with
  | error text => exact ⟨rfl, rfl, rfl⟩
  | ok result =>
      obtain ⟨action, row, managed⟩ := result
      obtain ⟨-, identified, -, -, effect⟩ := admitManage_ok admitted
      have key : managed.user.id ≠ 0 := by rwa [effect.written.1]
      dsimp only
      by_cases deletes : managed.deletes = true
      · rw [if_pos deletes, if_pos deletes, deleteUserById, if_neg key]
        exact updateManaged_none fetch env managed _ rfl
      · rw [if_neg deletes, if_neg deletes]
        exact updateManaged_none fetch env managed _ rfl

/-- `UpdateUser` on a working database. -/
theorem updateUser_none (env : UserEnvironment) (myRole : Int) (body : Option Json)
    (server : Server) :
    AgreesUser fetch server (updateUser Faults.none env myRole body server)
      (Controller.updateUser env myRole body server.users) := by
  have admits : admitUpdate Faults.none myRole body server.users =
      Controller.admitUpdate myRole body server.users := by
    unfold admitUpdate
    rw [getUserById_none]
    rfl
  unfold updateUser Controller.updateUser
  rw [admits]
  cases Controller.admitUpdate myRole body server.users with
  | error text => exact ⟨rfl, rfl, rfl⟩
  | ok user =>
      simp only [update, Faults.none]
      cases user.update env.passwords (user.password ≠ "") server.users with
      | mk next failure => cases failure with
        | none => exact ⟨rfl, rfl, rfl⟩
        | some text => exact ⟨rfl, rfl, rfl⟩

/-- `EmailBind` on a working database changes users and channels only. -/
theorem emailBind_none (env : UserEnvironment) (id : Int) (email code : String) (timestamp : Int)
    (server : Server) :
    let done := emailBind Faults.none env id email code timestamp server
    let bound := Controller.emailBind env id email code timestamp server.users server.channels
    done.server = { server with users := bound.users, channels := bound.channels } ∧
      done.reply = some bound.reply := by
  unfold emailBind Controller.emailBind
  rw [visible_none]
  cases env.verifyCode email code with
  | false => exact ⟨rfl, rfl⟩
  | true =>
      simp only [Bool.not_true, Bool.false_eq_true, if_false]
      cases fillUserById server.users { id } with
      | error text => exact ⟨rfl, rfl⟩
      | ok user =>
          simp only [update, Faults.none]
          cases ({ user with email } : User).update env.passwords false server.users with
          | mk next failure => cases failure with
            | some text => exact ⟨rfl, rfl⟩
            | none =>
                simp only [insertChannel, and_true]
                cases (emailChannel user timestamp).insert server.channels with
                | mk channels outcome => cases outcome with
                  | error text => rfl
                  | ok stored => rfl

/-- `UpdateOption` on a working database writes the table and the options. -/
theorem updateOption_none (body : Option Json) (server : Server) :
    let done := updateOption Faults.none body server
    let updated := Controller.updateOption server.options body
    done.server = { server with options := updated.1 } ∧ done.reply = some updated.2 := by
  unfold updateOption Controller.updateOption
  cases Json.decodeInto optionFields body ("", "") with
  | none => exact ⟨rfl, rfl⟩
  | some option =>
      obtain ⟨key, value⟩ := option
      dsimp only
      cases refuseOption server.options.options.settings key value with
      | some text => exact ⟨rfl, rfl⟩
      | none =>
          have table : (saveOption Faults.none (firstOrCreate Faults.none server.options.table key).1
              (firstOrCreate Faults.none server.options.table key).2.1 value).1 =
                server.options.table.written key value := by
            have saves (table : OptionTable) (key value : String) :
                (saveOption Faults.none table key value).1 = (table.save key value).getD table := by
              simp only [saveOption, Faults.none]
              cases table.save key value with
              | none => rfl
              | some next => rfl
            rw [saves, OptionTable.written, OptionTable.firstOrCreate]
            simp only [firstOrCreate, Faults.none]
            cases server.options.table.first key with
            | some row => rfl
            | none =>
                cases server.options.table.create key "" with
                | none => rfl
                | some made => rfl
          refine ⟨?_, rfl⟩
          simp only [OptionServer.update, ← table]

/-- `AddChannel` on a working database. -/
theorem addChannel_none (env : ChannelEnvironment) (userId : Int) (body : Option Json)
    (server : Server) :
    AgreesChannel fetch server (addChannel fetch Faults.none env userId body server)
      (Controller.addChannel env userId body server.channels) := by
  have admits : admitAddChannel Faults.none env userId body server.channels =
      Controller.admitAddChannel env userId body server.channels := by
    unfold admitAddChannel
    rw [channelNameExists_none]
    rfl
  unfold addChannel Controller.addChannel
  rw [admits]
  cases Controller.admitAddChannel env userId body server.channels with
  | error text => exact ⟨rfl, rfl, rfl⟩
  | ok channel =>
      simp only [insertChannel, Faults.none]
      cases channel.insert server.channels with
      | mk next outcome => cases outcome with
        | error text => exact ⟨rfl, rfl, rfl⟩
        | ok stored => exact ⟨rfl, rfl, rfl⟩

/-- `UpdateChannel` on a working database. -/
theorem updateChannel_none (env : ChannelEnvironment) (userId : Int) (statusOnly : String)
    (body : Option Json) (server : Server) :
    AgreesChannel fetch server (updateChannel fetch Faults.none env userId statusOnly body server)
      (Controller.updateChannel env userId statusOnly body server.channels) := by
  have admits : admitUpdateChannel Faults.none env userId statusOnly body server.channels =
      Controller.admitUpdateChannel env userId statusOnly body server.channels := by
    unfold admitUpdateChannel
    rw [channelNameExists_none, getChannelById_none]
    rfl
  unfold updateChannel Controller.updateChannel
  rw [admits]
  cases Controller.admitUpdateChannel env userId statusOnly body server.channels with
  | error text => exact ⟨rfl, rfl, rfl⟩
  | ok pair =>
      simp only [updateChannelRow, Faults.none]
      cases pair.1.update server.channels with
      | mk next failure => cases failure with
        | some text => exact ⟨rfl, rfl, rfl⟩
        | none => exact ⟨rfl, rfl, rfl⟩

/-- `DeleteChannel` on a working database. -/
theorem deleteChannel_none (userId : Int) (idParam : String) (server : Server) :
    AgreesChannel fetch server (deleteChannel fetch Faults.none userId idParam server)
      (Controller.deleteChannel userId idParam server.channels) := by
  unfold deleteChannel Controller.deleteChannel deleteChannelById Model.deleteChannelById
    getChannelById Model.getChannelById
  rw [query_none]
  by_cases blank : (Text.parseInt idParam).1 = 0 ∨ userId = 0
  · rw [if_pos blank, if_pos blank]
    exact ⟨rfl, rfl, rfl⟩
  · rw [if_neg blank, if_neg blank]
    generalize server.channels.first _ = found
    cases found with
    | none => exact ⟨rfl, rfl, rfl⟩
    | some row => exact ⟨rfl, rfl, rfl⟩

end WithoutFailures

end MessagePusher.Controller.Failing
