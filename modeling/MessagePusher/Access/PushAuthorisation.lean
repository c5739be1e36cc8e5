import MessagePusher.Controller.PushIsolation

/-!
# Who may push

A push has an effect only when it names a user who is not disabled and an enabled channel
of that user, and when its token opens one of them. The token is the first non-empty one
of the sources in `tokenSources`, which the handlers ask one after the other.
-/

namespace MessagePusher.Access

open Common Model Store Controller
open Channel (SendCall)

/-- The token in the body of a `POST`, JSON or form. -/
def bodyToken (env : Environment) (request : PushRequest) : String :=
  if Text.contains (env.toLower request.contentType) "application/json" then
    ((Json.decodeInto Message.jsonFields request.body {}).map Message.token).getD ""
  else request.form "token"

def headerToken (request : PushRequest) : String :=
  Text.trimPrefix request.authorization "Bearer "

/-- The sources of the token in the order in which a push asks them. -/
def tokenSources (env : Environment) (request : PushRequest) : List String :=
  if request.isPost then [bodyToken env request, request.query "token", headerToken request]
  else [request.query "token", headerToken request]

def firstNonEmpty (sources : List String) : Option String :=
  sources.find? fun token => token ≠ ""

/-- Neither the user nor the channel has a token. -/
def Unlocked (user : User) (channel : Model.Channel) : Prop :=
  user.token = "" ∧ (channel.token = none ∨ channel.token = some "")

/-- The token opens the channel, as the user's or as its own. -/
def Opens (token : String) (user : User) (channel : Model.Channel) : Prop :=
  token = user.token ∨ channel.token = some token

/-- What a request must show for a push through a channel. -/
structure PushAuthorised (env : Environment) (users : Users) (channels : Channels)
    (request : PushRequest) (user : User) (channel : Model.Channel) : Prop where
  known : user ∈ users.rows
  named : user.username = request.username
  exists_ : user.status ≠ userStatusNonExisted
  notDisabled : user.status ≠ userStatusDisabled
  listed : channel ∈ channels.rows
  owned : channel.userId = user.id
  addressed : ∃ message, decodePush env request = .ok message ∧
    channel.name = routeOf message user
  enabled : channel.status = channelStatusEnabled
  token : Unlocked user channel ∨
    ∃ token, firstNonEmpty (tokenSources env request) = some token ∧ Opens token user channel

/-- An outcome that is more than an answer. -/
def Effective (messages : Messages) (outcome : Outcome) : Prop :=
  outcome.messages ≠ messages ∨ outcome.queued ≠ [] ∨ outcome.handed ≠ none ∨
    outcome.synced ≠ none

/-- `authMessage` lets a request pass without a token when none is set, and otherwise asks for
one of those that are set. -/
theorem authMessage_iff (token : String) (user : User) (channel : Model.Channel) :
    authMessage token user.token channel.token = true ↔
      Unlocked user channel ∨ (token ≠ "" ∧ Opens token user channel) := by
  unfold authMessage Unlocked Opens
  by_cases ownToken : user.token = ""
  · cases set : channel.token with
    | none => simp [ownToken]
    | some channelToken =>
        by_cases blank : channelToken = ""
        · simp [ownToken, blank]
        · by_cases same : channelToken = token
          · subst same
            simp [ownToken, blank]
          · simp [ownToken, blank, same]
  · by_cases same : token = user.token
    · simp [ownToken, same]
    · cases set : channel.token with
      | none => simp [ownToken, same]
      | some channelToken =>
          by_cases other : channelToken = token
          · subst other
            simp [ownToken, same]
          · simp [ownToken, same, other]

/-- A `POST` keeps the token of its body and falls back on the query. -/
theorem postPushMessage_token {env : Environment} {request : PushRequest} {message : Message}
    (decoded : postPushMessage env request = .ok message) :
    message.token =
      if bodyToken env request = "" then request.query "token" else bodyToken env request := by
  have finished : ∀ read : Message, read.token = bodyToken env request →
      keepCompatible (if read.token = "" then { read with token := request.query "token" }
        else read) = message →
      message.token =
        if bodyToken env request = "" then request.query "token" else bodyToken env request := by
    rintro read same rfl
    rw [← same]
    split_ifs with blank
    · rfl
    · rfl
  unfold postPushMessage at decoded
  by_cases json : Text.contains (env.toLower request.contentType) "application/json" = true
  · cases read : Json.decodeInto Message.jsonFields request.body {} with
    | none => simp [json, read, bind, Except.bind] at decoded
    | some body =>
        simp only [json, read, if_true, bind, Except.bind, pure, Except.pure] at decoded
        by_cases empty : body = {}
        · simp [empty] at decoded
        · simp only [empty, if_false, Except.ok.injEq] at decoded
          exact finished body (by simp [bodyToken, json, read]) decoded
  · simp only [json, Bool.false_eq_true, if_false, bind, Except.bind, pure, Except.pure] at decoded
    by_cases empty : messageOfParameters request.form = {}
    · simp [empty] at decoded
    · simp only [empty, if_false, Except.ok.injEq] at decoded
      exact finished (messageOfParameters request.form)
        (by simp [bodyToken, json, messageOfParameters]) decoded

/-- The token that a push is judged by is the first of its sources that is not empty. -/
theorem heldToken_firstNonEmpty {env : Environment} {request : PushRequest} {message : Message}
    (decoded : decodePush env request = .ok message) (held : heldToken request message ≠ "") :
    firstNonEmpty (tokenSources env request) = some (heldToken request message) := by
  unfold decodePush at decoded
  unfold firstNonEmpty tokenSources
  unfold heldToken at held ⊢
  cases post : request.isPost with
  | false =>
      simp only [post, Bool.false_eq_true, if_false, Except.ok.injEq] at decoded
      have query : message.token = request.query "token" := by
        subst decoded
        rfl
      rw [query] at held ⊢
      by_cases blank : request.query "token" = ""
      · simp only [blank, if_true] at held
        simp [List.find?, blank, held, headerToken]
      · simp [blank]
  | true =>
      simp only [post, if_true] at decoded
      have kept := postPushMessage_token decoded
      rw [kept] at held ⊢
      by_cases noBody : bodyToken env request = ""
      · simp only [noBody, if_true] at held ⊢
        by_cases blank : request.query "token" = ""
        · simp only [blank, if_true] at held
          simp [List.find?, blank, held, headerToken]
        · simp [List.find?, blank]
      · simp [noBody]

/-- A call of `saveAndSendMessage` for a channel that is not enabled has no effect. -/
theorem enabled_of_effective {env : Environment} {user : User} {message : Message}
    {channel : Model.Channel} {messages : Messages}
    (effective : Effective messages (saveAndSendMessage env user message channel messages)) :
    channel.status = channelStatusEnabled := by
  by_contra off
  unfold saveAndSendMessage at effective
  rw [if_pos off] at effective
  simp [Effective] at effective

/-- What was admitted, for an enabled channel, is authorised. -/
theorem authorised_of_admitted {env : Environment} {users : Users} {channels : Channels}
    {request : PushRequest} {user : User} {message : Message} {channel : Model.Channel}
    (admitted : admitPush env users channels request = .ok (user, message, channel))
    (enabled : channel.status = channelStatusEnabled) :
    PushAuthorised env users channels request user channel := by
  obtain ⟨read, next, decoded, pushed, prepared⟩ := admitPush_ok admitted
  obtain ⟨lookup, exists_, notDisabled, rfl⟩ := pushUser_ok_iff.mp pushed
  obtain ⟨-, byName, passes, -⟩ := prepareMessage_ok_iff.mp prepared
  obtain ⟨listed, name, owned⟩ := getChannelByName_ok byName
  refine
    { known := (findUser_mem lookup exists_).2
      named := findUser_username lookup
      exists_, notDisabled, listed, owned, enabled
      addressed := ⟨read, decoded, name⟩
      token := ?_ }
  rcases (authMessage_iff _ _ _).mp (passes rfl) with unlocked | ⟨held, opens⟩
  · exact .inl unlocked
  · exact .inr ⟨_, heldToken_firstNonEmpty decoded held, opens⟩

/-- Whatever a push does, beyond its answer, it does for a user and a channel that it is
authorised for. -/
theorem pushMessage_authorised (env : Environment) (users : Users) (channels : Channels)
    (messages : Messages) (request : PushRequest)
    (effective : Effective messages (pushMessage env users channels messages request).1) :
    ∃ user channel, PushAuthorised env users channels request user channel ∧
      ∀ call, (pushMessage env users channels messages request).1.handed = some call →
        call.user = user ∧ call.channel = channel := by
  rw [pushMessage_eq] at effective ⊢
  cases admitted : admitPush env users channels request with
  | error refusal =>
      rw [admitted] at effective
      simp [Effective] at effective
  | ok call =>
      obtain ⟨user, message, channel⟩ := call
      rw [admitted] at effective
      exact ⟨user, channel, authorised_of_admitted admitted (enabled_of_effective effective),
        fun _ handed => ⟨(saveAndSendMessage_handed handed).1,
          (saveAndSendMessage_handed handed).2.1⟩⟩

/-- A user with a token, and a channel without one. -/
def keyedUsers : Users where
  rows := [{ id := 1, username := "ann", status := userStatusEnabled, token := "k" }]
  counter := 1
  sorted := by decide
  unique := by decide
  counterNonneg := Int.one_nonneg
  bounded := by decide

def keyedChannels : Channels where
  rows := [{ id := 1, type := typeNone, userId := 1, name := "c", status := channelStatusEnabled }]
  counter := 1
  sorted := by decide
  unique := by decide
  counterNonneg := Int.one_nonneg
  bounded := by decide

/-- `POST /push/ann?token=k` with the body `{"channel": "c"}`. -/
def keyedRequest : PushRequest where
  username := "ann"
  query := fun name => if name = "token" then "k" else ""
  body := some (.object [("channel", .string "c")])

theorem pushMessage_authorised_keyed :
    ∃ user channel,
      PushAuthorised { uuid := "l" } keyedUsers keyedChannels keyedRequest user channel ∧
        ∀ call, (pushMessage { uuid := "l" } keyedUsers keyedChannels .empty
          keyedRequest).1.handed = some call → call.user = user ∧ call.channel = channel :=
  pushMessage_authorised { uuid := "l" } keyedUsers keyedChannels .empty keyedRequest
    (.inr (.inr (.inl (by decide))))

end MessagePusher.Access
