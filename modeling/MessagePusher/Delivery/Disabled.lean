import MessagePusher.Controller.Channel
import MessagePusher.Controller.Resend
import MessagePusher.Controller.User
import MessagePusher.Delivery.GroupProduct
import MessagePusher.Delivery.PathAgreement
import MessagePusher.Semantics.Transition

/-!
# Disabled users and channels

The five ways to a sender, with the checks of status that each of them makes, in any order
with changes of users and channels. A group does not look at the status of its
sub-channels, a worker at no status at all, and a resend not at that of the user;
`UncheckedEnabled` says when that makes a difference.
-/

namespace MessagePusher.Delivery

open Common Model Store Channel Controller Middleware Semantics

/-- `SendMessage` has a function for the type. -/
def hasSender (type : String) : Prop :=
  type ≠ typeNone ∧ (type = typeGroup ∨ (senderOf type).isSome = true)

instance (type : String) : Decidable (hasSender type) :=
  inferInstanceAs (Decidable (_ ∧ _))

def NotDisabled (users : Users) (id : Int) : Prop :=
  ∀ row, users.rowAt id = some row → row.status ≠ userStatusDisabled

section Calls

variable (lib : Library) (transport : Outgoing → Option String)

/-- The channels that a call of `SendMessage` invokes a sender with. -/
def invoked (channels : Channels) (readings : Nat → Readings) (call : SendCall) :
    List Model.Channel :=
  ((if call.channel.type = typeGroup then [call.channel] else []) ++
    (call.deliver lib transport channels readings).attempts.map Attempt.channel).filter
      fun channel => hasSender channel.type

/-- No sender is invoked with a channel that is not enabled in the table, or for a user who is
disabled there. -/
def SilentCall (users : Users) (channels : Channels) (readings : Nat → Readings)
    (call : SendCall) : Prop :=
  ∀ channel ∈ invoked lib transport channels readings call,
    (∃ row, channels.rowAt channel.id = some row ∧ row.status = channelStatusEnabled) ∧
      NotDisabled users call.user.id

/-- The sub-channels that a group gets to are enabled, as far as they have a sender. -/
def MembersEnabled (channels : Channels) (call : SendCall) : Prop :=
  call.channel.type = typeGroup → ∀ member ∈ recipients lib channels call,
    hasSender member.channel.type → member.channel.status = channelStatusEnabled

theorem groupLoop_channels (channels : Channels) (readings : Nat → Readings) (userId : Int)
    (pairs : List (String × String)) (index : Nat) (errMessage : String) (message : Message)
    (user : User) (same : user.id = userId) :
    (groupLoop lib transport channels readings index errMessage message user
        pairs).attempts.map Attempt.channel =
      (reached lib channels userId pairs).map Member.channel := by
  induction pairs generalizing index errMessage message user with
  | nil => rfl
  | cons pair rest ih =>
      obtain ⟨name, target⟩ := pair
      simp only [groupLoop, reached, same]
      cases getChannelByName channels name userId with
      | error text => rfl
      | ok channel =>
          by_cases nested : channel.type = typeGroup
          · simp [nested]
          · simp only [nested, if_false, panics_sendDirect]
            by_cases broken : panicsFor lib target channel = true
            · simp [broken]
            simp only [broken, Bool.false_eq_true, if_false, List.map_cons, List.cons.injEq, true_and]
            apply ih
            obtain ⟨-, email, after⟩ := sendDirect_keeps lib (readings index)
              { message with to_ := target, channel := name } user channel
            rw [after]
            exact same

/-- The senders run with the channels of the recipients. -/
theorem deliver_channels (channels : Channels) (readings : Nat → Readings) (call : SendCall) :
    (call.deliver lib transport channels readings).attempts.map Attempt.channel =
      (recipients lib channels call).map Member.channel := by
  unfold SendCall.deliver sendMessage recipients
  split_ifs with grouped mismatch
  · rw [sendGroupMessage, if_pos mismatch]
    rfl
  · rw [sendGroupMessage, if_neg mismatch]
    exact groupLoop_channels lib transport channels readings call.user.id _ 0 "" call.message
      call.user rfl
  · rfl

theorem reached_mem {lib : Library} {channels : Channels} {userId : Int} {pairs : List (String × String)}
    {member : Member} (listed : member ∈ reached lib channels userId pairs) :
    member.channel ∈ channels.rows := by
  induction pairs with
  | nil => cases listed
  | cons pair rest ih =>
      obtain ⟨name, target⟩ := pair
      simp only [reached] at listed
      cases found : getChannelByName channels name userId with
      | error text =>
          rw [found] at listed
          cases listed
      | ok channel =>
          simp only [found] at listed
          split_ifs at listed with nested broken
          · cases listed
          · obtain rfl := List.mem_singleton.mp listed
            exact (getChannelByName_ok found).1
          · rcases List.mem_cons.mp listed with rfl | later
            · exact (getChannelByName_ok found).1
            · exact ih later

/-- A call on a row of the table is silent exactly when it has no sender, or channel, user and
sub-channels are as they should be. -/
theorem silentCall_iff (users : Users) {channels : Channels} (readings : Nat → Readings)
    {call : SendCall} (listed : call.channel ∈ channels.rows) :
    SilentCall lib transport users channels readings call ↔
      (hasSender call.channel.type → call.channel.status = channelStatusEnabled ∧
        NotDisabled users call.user.id ∧ MembersEnabled lib channels call) := by
  have enabledRow : ∀ channel ∈ channels.rows,
      (∃ row, channels.rowAt channel.id = some row ∧ row.status = channelStatusEnabled) ↔
        channel.status = channelStatusEnabled := by
    intro channel member
    rw [show channels.rowAt channel.id = some channel from Table.rowAt_of_mem member]
    simp
  unfold SilentCall invoked MembersEnabled
  rw [deliver_channels]
  by_cases grouped : call.channel.type = typeGroup
  · have sends : hasSender call.channel.type := by
      rw [grouped]
      decide
    have members : ∀ member ∈ recipients lib channels call, member.channel ∈ channels.rows := by
      intro member there
      unfold recipients at there
      rw [if_pos grouped] at there
      split_ifs at there
      · cases there
      · exact reached_mem there
    simp only [grouped, if_true, List.mem_filter, List.mem_append, List.mem_singleton,
      List.mem_map, decide_eq_true_eq, true_implies]
    constructor
    · intro silent _
      obtain ⟨own, allowed⟩ := silent call.channel ⟨.inl rfl, sends⟩
      refine ⟨(enabledRow _ listed).mp own, allowed, fun member there senders => ?_⟩
      exact (enabledRow _ (members member there)).mp
        (silent member.channel ⟨.inr ⟨member, there, rfl⟩, senders⟩).1
    · rintro holds channel ⟨own | ⟨member, there, rfl⟩, senders⟩
      · obtain ⟨enabled, allowed, -⟩ := holds (grouped ▸ sends)
        subst own
        exact ⟨(enabledRow _ listed).mpr enabled, allowed⟩
      · obtain ⟨-, allowed, below⟩ := holds (grouped ▸ sends)
        exact ⟨(enabledRow _ (members member there)).mpr (below member there senders), allowed⟩
  · have alone : (recipients lib channels call).map Member.channel = [call.channel] := by
      rw [recipients, if_neg grouped]
      rfl
    rw [alone]
    simp only [grouped, if_false, List.nil_append, List.mem_filter, List.mem_singleton,
      decide_eq_true_eq, false_implies, and_true]
    constructor
    · intro silent sends
      obtain ⟨own, allowed⟩ := silent call.channel ⟨rfl, sends⟩
      exact ⟨(enabledRow _ listed).mp own, allowed⟩
    · rintro holds channel ⟨rfl, sends⟩
      obtain ⟨enabled, allowed⟩ := holds sends
      exact ⟨(enabledRow _ listed).mpr enabled, allowed⟩

end Calls

/-! ### What reaches `SendMessage` -/

/-- A call of `saveAndSendMessage` gets as far as its call of `SendMessage`. -/
def HandsOver (env : Environment) (user : User) (message : Message) (channel : Model.Channel)
    (messages : Messages) : Prop :=
  channel.status = channelStatusEnabled ∧ message.async = false ∧
    (persists env user → insertAccepted env user message messages)

theorem handed_isSome_iff (env : Environment) (user : User) (message : Message)
    (channel : Model.Channel) (messages : Messages) :
    (∃ call, (saveAndSendMessage env user message channel messages).handed = some call) ↔
      HandsOver env user message channel messages := by
  have way : (linkMessage env message).async = message.async := rfl
  unfold HandsOver
  by_cases enabled : channel.status = channelStatusEnabled
  swap
  · simp [saveAndSendMessage, enabled]
  by_cases stored : persists env user
  · by_cases accepted : insertAccepted env user message messages
    · obtain ⟨next, row, -, -, -, -, handed⟩ :=
        saveAndSendMessage_accepted enabled stored accepted
      rw [handed, sendNow]
      show (∃ call, (if message.async then none else some _) = some call) ↔ _
      cases message.async with
      | true => simp
      | false => simp [enabled, accepted]
    · obtain ⟨-, -, handed⟩ := saveAndSendMessage_refused enabled stored accepted
      simp [handed, stored, accepted]
  · cases async : message.async with
    | true => simp [saveAndSendMessage, enabled, stored, way, async]
    | false => simp [saveAndSendMessage, enabled, stored, way, async, sendNow]

/-- The sub-channels of a group depend on the target of the message alone. -/
theorem membersEnabled_congr {channels : Channels} {call : SendCall} {message : Message}
    (target : call.message.to_ = message.to_) :
    MembersEnabled lib channels call ↔
      MembersEnabled lib channels ⟨message, call.user, call.channel⟩ := by
  have targets : groupTargets call.message call.channel = groupTargets message call.channel := by
    rw [groupTargets, groupTargets, target]
  unfold MembersEnabled recipients
  by_cases grouped : call.channel.type = typeGroup
  · simp only [grouped, if_true, targets]
  · simp only [grouped, false_implies]

variable (lib : Library) (transport : Outgoing → Option String)

/-- What a call of `saveAndSendMessage` may send, for a channel of the table. -/
theorem silent_handed_iff {env : Environment} {users : Users} {channels : Channels}
    {messages : Messages} (readings : Nat → Readings) {user : User} {message : Message}
    {channel : Model.Channel} (listed : channel ∈ channels.rows) :
    (∀ call, (saveAndSendMessage env user message channel messages).handed = some call →
        SilentCall lib transport users channels readings call) ↔
      (HandsOver env user message channel messages → hasSender channel.type →
        NotDisabled users user.id ∧ MembersEnabled lib channels ⟨message, user, channel⟩) := by
  constructor
  · intro silent goes sends
    obtain ⟨call, handed⟩ := (handed_isSome_iff env user message channel messages).mpr goes
    obtain ⟨sameUser, sameChannel, -, target, -⟩ := saveAndSendMessage_handed handed
    have checked := (silentCall_iff lib transport users readings
      (by rw [sameChannel]; exact listed)).mp (silent call handed) (by rw [sameChannel]; exact sends)
    obtain ⟨-, allowed, members⟩ := checked
    rw [membersEnabled_congr target, sameUser, sameChannel] at members
    rw [sameUser] at allowed
    exact ⟨allowed, members⟩
  · intro holds call handed
    obtain ⟨sameUser, sameChannel, -, target, -⟩ := saveAndSendMessage_handed handed
    have goes := (handed_isSome_iff env user message channel messages).mp ⟨call, handed⟩
    refine (silentCall_iff lib transport users readings (by rw [sameChannel]; exact listed)).mpr ?_
    intro sends
    rw [sameChannel] at sends
    obtain ⟨allowed, members⟩ := holds goes sends
    rw [membersEnabled_congr target, sameUser, sameChannel]
    exact ⟨goes.1, allowed, members⟩

/-! ### Runs -/

/-- A delivery. Its reads of status and its sending are one step. -/
inductive Route where
  | push (env : Environment) (request : PushRequest)
  | webhook (env : Environment)
      (render : Webhook → String → Except Response (Option RenderedRule)) (link body : String)
  | resend (env : Environment) (failure : Option String) (session : Option Session)
      (idParam : String)
  | worker (messageId : Int) (failure : Option String)

/-- The tables, the ids that `LoadAsyncMessages` has still to queue, and the queue. -/
structure DeliveryState where
  users : Users
  channels : Channels
  webhooks : Webhooks
  messages : Messages
  loading : List Int := []
  queue : List Int := []

namespace DeliveryState

variable (readings : Nat → Readings) (state : DeliveryState)

/-- The round of a worker: the status goes to the message once it is loaded. -/
def work (messageId : Int) (failure : Option String) : Outcome :=
  match getMessageById state.messages messageId with
  | .error _ => { messages := state.messages }
  | .ok message =>
      match asyncMessageSenderHelper state.users state.channels message with
      | .error text =>
          { messages := (message.updateStatus (asyncStatus (some text)) failure state.messages).1 }
      | .ok call =>
          let delivery := call.deliver lib transport state.channels readings
          -- a panic ends the process, and with it this run, before the status is written
          { messages :=
              if delivery.panicked then state.messages
              else (message.updateStatus (asyncStatus delivery.error) failure state.messages).1
            handed := some call }

/-- What a delivery does. -/
def outcome : Route → Outcome
  | .push env request =>
      (pushMessage env state.users state.channels state.messages request).1
  | .webhook env render link body =>
      (triggerWebhook env state.users state.channels state.webhooks state.messages render link
        body).1
  | .resend env failure session idParam =>
      (serveResend env failure state.users state.channels state.messages session idParam).1
  | .worker messageId failure => state.work lib transport readings messageId failure

/-- The queue without the id that a worker took. -/
def remaining : Route → List Int
  | .worker _ _ => state.queue.tail
  | _ => state.queue

/-- A worker takes the first id of the queue. -/
def takes : Route → Prop
  | .worker messageId _ => state.queue.head? = some messageId
  | _ => True

end DeliveryState

inductive DeliveryLabel where
  | deliver (route : Route)
  | manageUser (env : UserEnvironment) (myRole : Int) (body : Option Json)
  | updateChannel (env : ChannelEnvironment) (userId : Int) (statusOnly : String)
      (body : Option Json)
  | query
  | load

/-- Deliveries, changes of status, and `LoadAsyncMessages`. -/
inductive DeliveryStep (readings : Nat → Readings) (state : DeliveryState) :
    DeliveryLabel → DeliveryState → Prop where
  | deliver {route} (takes : state.takes route) :
      DeliveryStep readings state (.deliver route)
        { state with
          messages := (state.outcome lib transport readings route).messages
          queue := state.remaining route ++ (state.outcome lib transport readings route).queued }
  | manageUser {env myRole body} :
      DeliveryStep readings state (.manageUser env myRole body)
        { state with users := (manageUser env myRole body state.users).users }
  | updateChannel {env userId statusOnly body} :
      DeliveryStep readings state (.updateChannel env userId statusOnly body)
        { state with channels := (updateChannel env userId statusOnly body state.channels).channels }
  | query :
      DeliveryStep readings state .query
        { state with loading := state.loading ++ getAsyncPendingMessageIds state.messages }
  | load {messageId rest} (next : state.loading = messageId :: rest) :
      DeliveryStep readings state .load
        { state with loading := rest, queue := state.queue ++ [messageId] }

def deliveries (readings : Nat → Readings) : System DeliveryState DeliveryLabel where
  Initial _ := True
  Step := DeliveryStep lib transport readings

/-- Nothing disabled is used in a step. -/
def Silent (readings : Nat → Readings) (state : DeliveryState) : DeliveryLabel → Prop
  | .deliver route => ∀ call, (state.outcome lib transport readings route).handed = some call →
      SilentCall lib transport state.users state.channels readings call
  | _ => True

/-- What the checks on a route leave open is as it should be. A push and a trigger leave the
sub-channels open, a resend the user besides, and a worker the channel besides. -/
def UncheckedEnabled (state : DeliveryState) : DeliveryLabel → Prop
  | .deliver (.push env request) => ∀ user message channel,
      admitPush env state.users state.channels request = .ok (user, message, channel) →
        HandsOver env user message channel state.messages →
          MembersEnabled lib state.channels ⟨message, user, channel⟩
  | .deliver (.webhook env render link body) => ∀ user message channel,
      admitTrigger env state.users state.channels state.webhooks render link body =
          .ok (user, message, channel) →
        HandsOver env user message channel state.messages →
          MembersEnabled lib state.channels ⟨message, user, channel⟩
  | .deliver (.resend env failure session idParam) => ∀ actor user message channel,
      @userAuth Unit session = .ok actor →
        admitResend failure state.users state.channels state.messages actor.id idParam =
            .ok (user, message, channel) →
          HandsOver env user message channel state.messages → hasSender channel.type →
            NotDisabled state.users user.id ∧
              MembersEnabled lib state.channels ⟨message, user, channel⟩
  | .deliver (.worker messageId _) => ∀ call,
      asyncMessageCall state.users state.channels state.messages messageId = .ok call →
        hasSender call.channel.type → call.channel.status = channelStatusEnabled ∧
          NotDisabled state.users call.user.id ∧ MembersEnabled lib state.channels call
  | _ => True

/-- A group has a sender, and other channels have no sub-channels. -/
theorem membersEnabled_of_sender {lib : Library} {channels : Channels} {call : SendCall}
    (members : hasSender call.channel.type → MembersEnabled lib channels call) :
    MembersEnabled lib channels call := by
  intro grouped
  have sends : hasSender call.channel.type := by
    rw [grouped]
    decide
  exact members sends grouped

/-- For a user who was checked only the sub-channels are open. -/
theorem silent_checked_iff {env : Environment} {users : Users} {channels : Channels}
    {messages : Messages} (readings : Nat → Readings) {user : User} {message : Message}
    {channel : Model.Channel} (listed : channel ∈ channels.rows)
    (allowed : NotDisabled users user.id) :
    (∀ call, (saveAndSendMessage env user message channel messages).handed = some call →
        SilentCall lib transport users channels readings call) ↔
      (HandsOver env user message channel messages →
        MembersEnabled lib channels ⟨message, user, channel⟩) := by
  rw [silent_handed_iff lib transport readings listed]
  constructor
  · intro holds goes
    exact membersEnabled_of_sender fun sends => (holds goes sends).2
  · intro members goes _
    exact ⟨allowed, members goes⟩

theorem notDisabled_of_mem {users : Users} {user : User} (known : user ∈ users.rows)
    (enabled : user.status ≠ userStatusDisabled) : NotDisabled users user.id := by
  intro row found
  rw [show users.rowAt user.id = some user from Table.rowAt_of_mem known] at found
  cases found
  exact enabled

/-- A worker's channel is a row of the table. -/
theorem asyncMessageCall_listed {users : Users} {channels : Channels} {messages : Messages}
    {messageId : Int} {call : SendCall}
    (called : asyncMessageCall users channels messages messageId = .ok call) :
    call.channel ∈ channels.rows := by
  unfold asyncMessageCall asyncMessageSenderHelper at called
  simp only [bind, Except.bind, pure, Except.pure] at called
  cases stored : getMessageById messages messageId with
  | error text => simp [stored] at called
  | ok message =>
      cases loaded : getUserById users message.userId false with
      | error text => simp [stored, loaded] at called
      | ok user =>
          cases route : getChannelByName channels message.channel user.id with
          | error text => simp [stored, loaded, route] at called
          | ok channel =>
              simp only [stored, loaded, route, Except.ok.injEq] at called
              subst called
              exact (getChannelByName_ok route).1

variable {lib} {transport} {readings : Nat → Readings} {state next : DeliveryState}

theorem silent_push_iff (env : Environment) (request : PushRequest) :
    Silent lib transport readings state (.deliver (.push env request)) ↔
      UncheckedEnabled lib state (.deliver (.push env request)) := by
  unfold Silent UncheckedEnabled DeliveryState.outcome
  simp only [pushMessage_eq]
  cases admitted : admitPush env state.users state.channels request with
  | error refusal => simp
  | ok call =>
      obtain ⟨user, message, channel⟩ := call
      obtain ⟨read, _, -, pushed, prepared⟩ := admitPush_ok admitted
      obtain ⟨lookup, exists_, enabled, -⟩ := pushUser_ok_iff.mp pushed
      obtain ⟨-, byName, -, -⟩ := prepareMessage_ok_iff.mp prepared
      rw [silent_checked_iff lib transport readings (getChannelByName_ok byName).1
        (notDisabled_of_mem (findUser_mem lookup exists_).2 enabled)]
      constructor
      · rintro holds _ _ _ ⟨⟩
        exact holds
      · intro holds
        exact holds user message channel rfl

theorem silent_webhook_iff (env : Environment)
    (render : Webhook → String → Except Response (Option RenderedRule)) (link body : String) :
    Silent lib transport readings state (.deliver (.webhook env render link body)) ↔
      UncheckedEnabled lib state (.deliver (.webhook env render link body)) := by
  unfold Silent UncheckedEnabled DeliveryState.outcome
  simp only [triggerWebhook_eq]
  cases admitted : admitTrigger env state.users state.channels state.webhooks render link body with
  | error answer => simp
  | ok call =>
      obtain ⟨user, message, channel⟩ := call
      obtain ⟨webhook, rule, owned, prepared⟩ := admitTrigger_ok admitted
      obtain ⟨-, byName, -, -⟩ := prepareMessage_ok_iff.mp prepared
      have allowed : NotDisabled state.users user.id := by
        obtain ⟨loaded, enabled⟩ := webhookUser_ok owned
        obtain ⟨-, row, found, rfl⟩ := getUserById_ok loaded
        have enabled : row.status = userStatusEnabled := enabled
        apply notDisabled_of_mem (Table.rowAt_mem found)
        rw [enabled]
        decide
      rw [silent_checked_iff lib transport readings (getChannelByName_ok byName).1 allowed]
      constructor
      · rintro holds _ _ _ ⟨⟩
        exact holds
      · intro holds
        exact holds user message channel rfl

theorem silent_resend_iff (env : Environment) (failure : Option String)
    (session : Option Session) (idParam : String) :
    Silent lib transport readings state (.deliver (.resend env failure session idParam)) ↔
      UncheckedEnabled lib state (.deliver (.resend env failure session idParam)) := by
  unfold Silent UncheckedEnabled DeliveryState.outcome serveResend
  cases passed : @userAuth Unit session with
  | error refusal => simp [passed]
  | ok actor =>
      simp only [passed, resendMessage_eq, Except.ok.injEq]
      cases admitted : admitResend failure state.users state.channels state.messages actor.id
          idParam with
      | error refusal =>
          apply iff_of_true
          · simp
          · rintro _ _ _ _ rfl same
            rw [admitted] at same
            cases same
      | ok call =>
          obtain ⟨user, message, channel⟩ := call
          obtain ⟨-, -, byName⟩ := admitResend_ok admitted
          rw [silent_handed_iff lib transport readings (getChannelByName_ok byName).1]
          constructor
          · rintro holds _ _ _ _ rfl same
            rw [admitted] at same
            cases same
            exact holds
          · intro holds
            exact holds actor user message channel rfl admitted

theorem silent_worker_iff (messageId : Int) (failure : Option String) :
    Silent lib transport readings state (.deliver (.worker messageId failure)) ↔
      UncheckedEnabled lib state (.deliver (.worker messageId failure)) := by
  have handed : (state.work lib transport readings messageId failure).handed =
      (asyncMessageCall state.users state.channels state.messages messageId).toOption := by
    unfold DeliveryState.work asyncMessageCall
    cases getMessageById state.messages messageId with
    | error text => rfl
    | ok message =>
        simp only [bind, Except.bind]
        cases asyncMessageSenderHelper state.users state.channels message with
        | error text => rfl
        | ok call => rfl
  unfold Silent UncheckedEnabled DeliveryState.outcome
  simp only [handed]
  cases called : asyncMessageCall state.users state.channels state.messages messageId with
  | error text => simp [Except.toOption]
  | ok call =>
      have listed : call.channel ∈ state.channels.rows := asyncMessageCall_listed called
      have silent := silentCall_iff lib transport state.users readings listed
      constructor
      · rintro holds _ ⟨⟩
        exact silent.mp (holds call rfl)
      · rintro holds _ ⟨⟩
        exact silent.mpr (holds call rfl)

/-- A delivery uses nothing disabled exactly when what its checks leave open is enabled. -/
theorem silent_iff (label : DeliveryLabel) :
    Silent lib transport readings state label ↔ UncheckedEnabled lib state label := by
  cases label with
  | deliver route =>
      cases route with
      | push env request => exact silent_push_iff env request
      | webhook env render link body => exact silent_webhook_iff env render link body
      | resend env failure session idParam => exact silent_resend_iff env failure session idParam
      | worker messageId failure => exact silent_worker_iff messageId failure
  | manageUser => exact Iff.rfl
  | updateChannel => exact Iff.rfl
  | query => exact Iff.rfl
  | load => exact Iff.rfl

variable (lib) (transport) (readings)

/-- As long as what the checks leave open is enabled, nothing disabled is used, and a delivery
that finds it disabled uses it. -/
theorem disabled_silent :
    (∀ start, ((deliveries lib transport readings).guard (UncheckedEnabled lib)).Always
        (fun state label _ => Silent lib transport readings state label) start) ∧
      ∀ state label, Silent lib transport readings state label ↔ UncheckedEnabled lib state label := by
  constructor
  · intro start labels state label next _ step
    exact silent_iff label |>.mpr step.1
  · intro state label
    exact silent_iff label

/-! ### A sub-channel that is disabled -/

/-- The owner of the channel `d` and of the group `g` over it. -/
def groupOwner : User := { id := 1, username := "ann", status := userStatusEnabled }

def openGroup : DeliveryState where
  users :=
    { rows := [groupOwner]
      counter := 1
      sorted := by decide
      unique := by decide
      counterNonneg := Int.one_nonneg
      bounded := by decide }
  channels :=
    { rows :=
        [{ discordRow with status := channelStatusEnabled },
          { id := 2, type := typeGroup, userId := 1, name := "g", appId := "d", accountId := "",
            status := channelStatusEnabled }]
      counter := 2
      sorted := by decide
      unique := by decide
      counterNonneg := Store.Table.two_nonneg
      bounded := by decide }
  webhooks := .empty
  messages := .empty

/-- `PUT /api/channel?status_only=true` with the body `{"id": 1, "status": 2}`. -/
def disableDiscord : DeliveryLabel :=
  .updateChannel {} 1 "true" (some (.object [("id", .number "1"), ("status", .number "2")]))

/-- `POST /push/ann` with the body `{"channel": "g"}`. -/
def pushToGroup : DeliveryLabel :=
  .deliver (.push { uuid := "l" }
    { username := "ann", body := some (.object [("channel", .string "g")]) })

def closedMember : DeliveryState :=
  { openGroup with
    channels := (updateChannel {} 1 "true"
      (some (.object [("id", .number "1"), ("status", .number "2")])) openGroup.channels).channels }

def disabledRow : Model.Channel := { discordRow with status := channelStatusDisabled }

/-- A push to a group goes out through a sub-channel that was disabled before. -/
theorem disabled_member_sends : ¬ ∀ start,
    (deliveries plainLibrary (fun _ => none) (fun _ => plainReadings)).Always
      (fun state label _ =>
        Silent plainLibrary (fun _ => none) (fun _ => plainReadings) state label) start := by
  intro claimed
  have disables : DeliveryStep plainLibrary (fun _ => none) (fun _ => plainReadings) openGroup
      disableDiscord closedMember := .updateChannel
  have sends : DeliveryStep plainLibrary (fun _ => none) (fun _ => plainReadings) closedMember
      pushToGroup _ := .deliver trivial
  have silent := claimed openGroup (.single disables) sends _ rfl
  obtain ⟨⟨row, found, enabled⟩, -⟩ := silent disabledRow (by decide)
  have same : disabledRow = row := Option.some.inj found
  rw [← same] at enabled
  revert enabled
  decide

end MessagePusher.Delivery
