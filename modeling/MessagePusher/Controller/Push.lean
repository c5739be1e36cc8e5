import MessagePusher.Channel.Dispatch

/-!
# The push handlers

`controller/message.go` from the request to `saveAndSendMessage`. What a handler
gets from outside is in `Environment`: settings, the clock, the next UUID, the
answer of `SendMessage` and the failure, if any, of each database step. What it
does is in `Outcome`.
-/

namespace MessagePusher.Controller

open Common Model Store
open Channel (SendCall)

/-- The failures of the database steps of a push. -/
structure Faults where
  readUser : Bool := false
  readChannel : Bool := false
  insert : Option String := none
  updateStatus : Option String := none

/-- Everything a push reads that is not in the request or the database. -/
structure Environment where
  settings : Settings := {}
  toLower : String → String := id
  uuid : String
  now : Int := 0
  send : SendCall → Option String := fun _ => none
  faults : Faults := {}

/-- The answer of a push or of a webhook trigger. -/
structure Response where
  httpStatus : Nat := 200
  success : Bool := false
  message : String := ""
  uuid : String := ""
  skipped : Bool := false
deriving DecidableEq

/-- What `saveAndSendMessage` does: the table afterwards, the ids put on
`AsyncMessageQueue`, the call of `SendMessage`, the message shown to open pages,
the final link and the error. -/
structure Outcome where
  messages : Messages
  queued : List Int := []
  handed : Option SendCall := none
  synced : Option Message := none
  link : String := ""
  error : Option String := none

/-- The alias fields of ServerChan. -/
def keepCompatible (message : Message) : Message :=
  { message with
    description := if message.description = "" then message.short else message.description
    content := if message.content = "" then message.desp else message.content
    to_ := if message.to_ = "" then message.openId else message.to_ }

/-- A push request: path parameter, headers, query and body. The body is read as a form
or, by its content type, as JSON. -/
structure PushRequest where
  isPost : Bool := true
  username : String
  authorization : String := ""
  contentType : String := "application/json"
  query : String → String := fun _ => ""
  form : String → String := fun _ => ""
  body : Option Json := none

/-- The message of named string parameters, shared by the query and the form. -/
def messageOfParameters (parameter : String → String) : Message where
  title := parameter "title"
  description := parameter "description"
  content := parameter "content"
  url := parameter "url"
  channel := parameter "channel"
  token := parameter "token"
  to_ := parameter "to"
  desp := parameter "desp"
  short := parameter "short"
  openId := parameter "openid"
  async := parameter "async" = "true"
  renderMode := parameter "render_mode"
  msgType := parameter "msg_type"

/-- The message that `GetPushMessage` hands to `pushMessageHelper`. -/
def getPushMessage (request : PushRequest) : Message :=
  keepCompatible (messageOfParameters request.query)

/-- The message that `PostPushMessage` hands to `pushMessageHelper`, or its refusal. -/
def postPushMessage (env : Environment) (request : PushRequest) : Except Response Message := do
  let message ←
    if Text.contains (env.toLower request.contentType) "application/json" then
      match Json.decodeInto Message.jsonFields request.body {} with
      | none => .error { message := "无法解析请求体，请检查其是否为合法 JSON" }
      | some message => .ok message
    else .ok (messageOfParameters request.form)
  if message = {} then
    .error
      { message := "请求体为空，如果使用 JSON 请设置 Content-Type 为 application/json，否则请使用表单提交" }
  let message :=
    if message.token = "" then { message with token := request.query "token" } else message
  return keepCompatible message

/-- `authMessage`: a user token opens every channel, a channel token its own; without
either no token is asked for. -/
def authMessage (messageToken userToken : String) (channelToken : Option String) : Bool :=
  let hasUserToken := userToken ≠ ""
  let hasChannelToken := channelToken.any (· ≠ "")
  if !hasUserToken && !hasChannelToken then true
  else if hasUserToken && messageToken = userToken then true
  else if hasChannelToken && channelToken = some messageToken then true
  else false

/-- The text of a code fence around `content`. -/
def codeFence (content : String) : String := "```\n" ++ content ++ "\n```"

/-- The name of the channel that a message goes to. -/
def routeOf (message : Message) (user : User) : String :=
  if message.channel = "" then (if user.channel = "" then typeEmail else user.channel)
  else message.channel

/-- The message with its title and the name of its channel. -/
def addressed (env : Environment) (message : Message) (user : User) : Message :=
  { message with
    title := if message.title = "" then env.settings.systemName else message.title
    channel := routeOf message user }

/-- The content in render mode `code`, where structured types are left as they are. -/
def renderedContent (env : Environment) (message : Message) : String :=
  let msgType := env.toLower (Text.trimSpace message.msgType)
  if message.renderMode = "code" ∧ (msgType = "" ∨ msgType = "text") ∧ message.content ≠ "" then
    codeFence message.content
  else message.content

/-- `processMessage` up to the call of `saveAndSendMessage`. -/
def prepareMessage (env : Environment) (channels : Channels) (message : Message) (user : User)
    (needAuth : Bool) : Except Response (Message × Channel) := do
  let message := addressed env message user
  let refused : Response := { message := "无效的渠道名称：" ++ message.channel }
  let channel ←
    if env.faults.readChannel then .error refused
    else (getChannelByName channels message.channel user.id).mapError fun _ => refused
  if needAuth && !authMessage message.token user.token channel.token then
    if message.token = "" then
      .error { httpStatus := 401, message := "通道维度或用户维度设置了鉴权令牌，需要提供鉴权令牌" }
    else .error { httpStatus := 401, message := "无效的 token" }
  return ({ message with content := renderedContent env message }, channel)

/-- What `processMessage` passes on, and when. -/
theorem prepareMessage_ok_iff {env : Environment} {channels : Channels} {message : Message}
    {user : User} {needAuth : Bool} {prepared : Message} {channel : Channel} :
    prepareMessage env channels message user needAuth = .ok (prepared, channel) ↔
      env.faults.readChannel = false ∧
        getChannelByName channels (routeOf message user) user.id = .ok channel ∧
        (needAuth = true → authMessage message.token user.token channel.token = true) ∧
        prepared = { addressed env message user with content := renderedContent env message } := by
  have route : (addressed env message user).channel = routeOf message user := rfl
  have token : (addressed env message user).token = message.token := rfl
  have content : renderedContent env (addressed env message user) = renderedContent env message :=
    rfl
  unfold prepareMessage
  simp only [bind, Except.bind, pure, Except.pure, route, token, content]
  cases env.faults.readChannel with
  | true => simp
  | false =>
      cases getChannelByName channels (routeOf message user) user.id with
      | error text => simp [Except.mapError]
      | ok row =>
          simp only [Bool.false_eq_true, if_false, Except.mapError, Except.ok.injEq, true_and]
          by_cases authorised : authMessage message.token user.token row.token = true
          · simp only [authorised, Bool.not_true, Bool.and_false, Bool.false_eq_true, if_false,
              Except.ok.injEq, Prod.mk.injEq]
            constructor
            · rintro ⟨rfl, rfl⟩
              exact ⟨rfl, fun _ => authorised, rfl⟩
            · rintro ⟨rfl, -, rfl⟩
              exact ⟨rfl, rfl⟩
          · cases needAuth with
            | false =>
                simp only [Bool.false_and, Bool.false_eq_true, if_false, Except.ok.injEq,
                  Prod.mk.injEq, false_implies, true_and]
                constructor
                · rintro ⟨rfl, rfl⟩
                  exact ⟨rfl, rfl⟩
                · rintro ⟨rfl, rfl⟩
                  exact ⟨rfl, rfl⟩
            | true =>
                simp only [authorised, Bool.not_false, Bool.and_self, if_true, true_implies]
                constructor
                · intro passed
                  split_ifs at passed
                · rintro ⟨rfl, granted, -⟩
                  exact absurd granted authorised

/-- The condition under which a push is stored. -/
def persists (env : Environment) (user : User) : Prop :=
  env.settings.messagePersistenceEnabled = true ∨
    user.saveMessageToDatabase = saveMessageToDatabaseAllowed

instance (env : Environment) (user : User) : Decidable (persists env user) :=
  inferInstanceAs (Decidable (_ ∨ _))

/-- The message once it has its link and, when the caller gave none, its URL. -/
def linkMessage (env : Environment) (message : Message) : Message :=
  { message with
    link := env.uuid
    url := if message.url = "" then env.settings.serverAddress ++ "/message/" ++ env.uuid
      else message.url }

/-- The status that the deferred function writes. -/
def deferredStatus (message : Message) (success : Bool) : Int :=
  if message.async then messageSendStatusAsyncPending
  else if success then messageSendStatusSent
  else messageSendStatusFailed

/-- The deferred function: it runs on every exit path after it was registered, also when
the insertion failed. -/
def deferred (env : Environment) (message : Message) (success : Bool) (messages : Messages) :
    Messages × List Int :=
  ((message.updateStatus (deferredStatus message success) env.faults.updateStatus messages).1,
    if message.async then [message.id] else [])

/-- The call of `SendMessage` that a message which is not asynchronous gets. -/
def sendNow (message : Message) (user : User) (channel : Channel) : Option SendCall :=
  if message.async then none else some ⟨message, user, channel⟩

/-- `saveAndSendMessage`. No sender assigns `Id`, `Async` or `Link`, so the deferred
function reads them from the message as it was handed over. -/
def saveAndSendMessage (env : Environment) (user : User) (message : Message)
    (channel : Channel) (messages : Messages) : Outcome :=
  if channel.status ≠ channelStatusEnabled then
    { messages, link := message.link, error := some "该渠道已被禁用" }
  else
    let message := linkMessage env message
    if persists env user then
      let (message, messages, insertError) :=
        message.updateAndInsert user.id env.now env.faults.insert messages
      match insertError with
      | some text =>
          let (messages, queued) := deferred env message false messages
          { messages, queued, link := message.link, error := some text }
      | none =>
          let handed := sendNow message user channel
          let sendError := handed.bind env.send
          let (messages, queued) := deferred env message sendError.isNone messages
          { messages, queued, handed, synced := some message, link := message.link,
            error := sendError }
    else if message.async then
      { messages, link := message.link, error := some "异步发送消息需要用户具备消息持久化的权限" }
    else
      let message := { message with link := "unsaved" }
      let handed := sendNow message user channel
      { messages, handed, synced := some message, link := message.link,
        error := handed.bind env.send }

/-- What is handed to `SendMessage` differs from what came in by link, URL and what the
insertion assigns. -/
theorem saveAndSendMessage_handed {env : Environment} {user : User} {message : Message}
    {channel : Channel} {messages : Messages} {call : SendCall}
    (handed : (saveAndSendMessage env user message channel messages).handed = some call) :
    call.user = user ∧ call.channel = channel ∧ call.message.content = message.content ∧
      call.message.to_ = message.to_ ∧ call.message.channel = message.channel := by
  have sent : ∀ next : Message, sendNow next user channel = some call →
      call = ⟨next, user, channel⟩ := by
    intro next now
    unfold sendNow at now
    split_ifs at now
    exact (Option.some.inj now).symm
  unfold saveAndSendMessage at handed
  split_ifs at handed
  · dsimp only at handed
    split at handed
    · cases handed
    · obtain rfl := sent _ handed
      rcases Message.updateAndInsert_cases (linkMessage env message) user.id env.now
        env.faults.insert messages with ⟨text, stored⟩ | ⟨next, row, -, stored⟩
      · rw [stored]
        exact ⟨rfl, rfl, rfl, rfl, rfl⟩
      · rw [stored]
        exact ⟨rfl, rfl, rfl, rfl, rfl⟩
  · dsimp only at handed
    split_ifs at handed
    obtain rfl := sent _ handed
    exact ⟨rfl, rfl, rfl, rfl, rfl⟩

/-- The answer of `processMessage` to what `saveAndSendMessage` did. -/
def respond (outcome : Outcome) : Response :=
  match outcome.error with
  | some text => { message := text }
  | none => { success := true, uuid := outcome.link }

/-- `processMessage`. -/
def processMessage (env : Environment) (channels : Channels) (messages : Messages)
    (message : Message) (user : User) (needAuth : Bool) : Outcome × Response :=
  match prepareMessage env channels message user needAuth with
  | .error refusal => ({ messages }, refusal)
  | .ok (message, channel) =>
      let outcome := saveAndSendMessage env user message channel messages
      (outcome, respond outcome)

/-- The user that `FillUserByUsername` leaves behind. A failing query is not reported: the
struct then keeps the status of a user that does not exist. -/
def findUser (env : Environment) (users : Users) (username : String) : Except Response User :=
  match fillUserByUsername users { username } with
  | .error text => .error { message := text }
  | .ok user => .ok (if env.faults.readUser then { username } else user)

/-- The token of a push: that of the message, else the bearer token. -/
def heldToken (request : PushRequest) (message : Message) : String :=
  if message.token = "" then Text.trimPrefix request.authorization "Bearer " else message.token

/-- `pushMessageHelper` up to the call of `processMessage`: the user and the message
with its token. -/
def pushUser (env : Environment) (users : Users) (request : PushRequest) (message : Message) :
    Except Response (User × Message) := do
  let user ← findUser env users request.username
  if user.status = userStatusNonExisted then .error { message := "用户不存在" }
  if user.status = userStatusDisabled then .error { message := "用户已被封禁" }
  return (user, { message with token := heldToken request message })

theorem pushUser_ok_iff {env : Environment} {users : Users} {request : PushRequest}
    {message next : Message} {user : User} :
    pushUser env users request message = .ok (user, next) ↔
      findUser env users request.username = .ok user ∧ user.status ≠ userStatusNonExisted ∧
        user.status ≠ userStatusDisabled ∧
        next = { message with token := heldToken request message } := by
  unfold pushUser
  cases findUser env users request.username with
  | error refusal => simp [bind, Except.bind]
  | ok found =>
      simp only [bind, Except.bind, pure, Except.pure, Except.ok.injEq]
      constructor
      · intro passed
        split_ifs at passed with absent disabled
        obtain ⟨rfl, rfl⟩ := Prod.mk.inj (Except.ok.inj passed)
        exact ⟨rfl, absent, disabled, rfl⟩
      · rintro ⟨rfl, exists_, enabled, rfl⟩
        rw [if_neg exists_]
        simp only [if_neg enabled]

/-- The user that the lookup leaves behind: the struct as it was, or the first row of that name. -/
theorem findUser_ok {env : Environment} {users : Users} {username : String} {user : User}
    (found : findUser env users username = .ok user) :
    user = { username } ∨ (env.faults.readUser = false ∧
      (users.first fun row => row.username = username) = some user) := by
  unfold findUser fillUserByUsername at found
  by_cases blank : username = ""
  · simp [blank] at found
  simp only [blank, if_false, Except.ok.injEq] at found
  cases failing : env.faults.readUser with
  | true =>
      simp only [failing, if_true] at found
      exact .inl found.symm
  | false =>
      simp only [failing, Bool.false_eq_true, if_false] at found
      cases first : users.first fun row => row.username = username with
      | none =>
          rw [first] at found
          exact .inl found.symm
      | some row =>
          rw [first] at found
          exact .inr ⟨rfl, congrArg some found⟩

theorem findUser_username {env : Environment} {users : Users} {username : String} {user : User}
    (found : findUser env users username = .ok user) : user.username = username := by
  rcases findUser_ok found with rfl | ⟨-, first⟩
  · rfl
  · simpa using Table.first_accepts first

/-- A user that a push is admitted for is a row of the table. -/
theorem findUser_mem {env : Environment} {users : Users} {username : String} {user : User}
    (found : findUser env users username = .ok user)
    (exists_ : user.status ≠ userStatusNonExisted) :
    env.faults.readUser = false ∧ user ∈ users.rows := by
  rcases findUser_ok found with rfl | ⟨noFault, first⟩
  · exact absurd rfl exists_
  · exact ⟨noFault, Table.first_mem first⟩

/-- The message that the handler of the request's method hands to `pushMessageHelper`. -/
def decodePush (env : Environment) (request : PushRequest) : Except Response Message :=
  if request.isPost then postPushMessage env request else .ok (getPushMessage request)

/-- `pushMessageHelper`. -/
def pushMessageHelper (env : Environment) (users : Users) (channels : Channels)
    (messages : Messages) (request : PushRequest) (message : Message) : Outcome × Response :=
  match pushUser env users request message with
  | .error refusal => ({ messages }, refusal)
  | .ok (user, message) => processMessage env channels messages message user true

/-- `GetPushMessage` and `PostPushMessage`. -/
def pushMessage (env : Environment) (users : Users) (channels : Channels) (messages : Messages)
    (request : PushRequest) : Outcome × Response :=
  match decodePush env request with
  | .error refusal => ({ messages }, refusal)
  | .ok message => pushMessageHelper env users channels messages request message

/-- The same handlers up to the call of `saveAndSendMessage`: the arguments of that call,
or the refusal. -/
def admitPush (env : Environment) (users : Users) (channels : Channels)
    (request : PushRequest) : Except Response (User × Message × Channel) := do
  let message ← decodePush env request
  let (user, message) ← pushUser env users request message
  let (message, channel) ← prepareMessage env channels message user true
  return (user, message, channel)

/-- What is admitted passed all three stages. -/
theorem admitPush_ok {env : Environment} {users : Users} {channels : Channels}
    {request : PushRequest} {user : User} {message : Message} {channel : Channel}
    (admitted : admitPush env users channels request = .ok (user, message, channel)) :
    ∃ read next, decodePush env request = .ok read ∧
      pushUser env users request read = .ok (user, next) ∧
      prepareMessage env channels next user true = .ok (message, channel) := by
  unfold admitPush at admitted
  cases decoded : decodePush env request with
  | error refusal => simp [decoded, bind, Except.bind] at admitted
  | ok read =>
      cases pushed : pushUser env users request read with
      | error refusal => simp [decoded, pushed, bind, Except.bind] at admitted
      | ok pair =>
          obtain ⟨found, next⟩ := pair
          cases prepared : prepareMessage env channels next found true with
          | error refusal => simp [decoded, pushed, prepared, bind, Except.bind] at admitted
          | ok pair =>
              obtain ⟨sent, route⟩ := pair
              simp only [decoded, pushed, prepared, bind, Except.bind, pure, Except.pure,
                Except.ok.injEq, Prod.mk.injEq] at admitted
              obtain ⟨rfl, rfl, rfl⟩ := admitted
              exact ⟨read, next, rfl, pushed, prepared⟩

/-- A push is `saveAndSendMessage` on what was admitted, and nothing when it was refused. -/
theorem pushMessage_eq (env : Environment) (users : Users) (channels : Channels)
    (messages : Messages) (request : PushRequest) :
    pushMessage env users channels messages request =
      match admitPush env users channels request with
      | .error refusal => ({ messages }, refusal)
      | .ok (user, message, channel) =>
          (saveAndSendMessage env user message channel messages,
            respond (saveAndSendMessage env user message channel messages)) := by
  unfold pushMessage pushMessageHelper admitPush processMessage
  cases decodePush env request with
  | error refusal => rfl
  | ok message =>
      cases pushed : pushUser env users request message with
      | error refusal => simp [pushed, bind, Except.bind]
      | ok pair =>
          obtain ⟨user, message⟩ := pair
          cases prepared : prepareMessage env channels message user true with
          | error refusal => simp [pushed, prepared, bind, Except.bind]
          | ok pair => simp [pushed, prepared, bind, Except.bind, pure, Except.pure]

end MessagePusher.Controller
