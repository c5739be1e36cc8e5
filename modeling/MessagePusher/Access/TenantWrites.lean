import MessagePusher.Access.TenantReads
import MessagePusher.Channel.MessageQueue
import MessagePusher.Controller.Misc
import MessagePusher.Controller.Resend
import MessagePusher.Controller.Webhook
import MessagePusher.Controller.WebhookRows
import MessagePusher.Semantics.Transition

/-!
# What a user can do to others

The requests that write channels, webhooks and messages, with the queue and its workers. Every
handler writes under the id of the session, or of the user that a push or a trigger is admitted
for, except the deferred function of a push whose insertion failed: it takes the id from the body.
-/

namespace MessagePusher.Access

open Common Model Store Middleware Controller Semantics
open Channel (SendCall asyncMessageSenderHelper asyncStatus)

/-- The database, the queue, the messages that workers are delivering, and the calls of
`SendMessage`. -/
structure Service where
  database : Database
  queue : List Int := []
  sending : List Message := []
  handed : List SendCall := []

/-- The requests that write what users own. -/
inductive WriteRequest where
  | addChannel (env : ChannelEnvironment) (userId : Int) (body : Option Json)
  | updateChannel (env : ChannelEnvironment) (userId : Int) (statusOnly : String)
      (body : Option Json)
  | deleteChannel (userId : Int) (idParam : String)
  | addWebhook (env : WebhookEnvironment) (userId : Int) (body : Option Json)
  | updateWebhook (env : WebhookEnvironment) (userId : Int) (statusOnly : String)
      (body : Option Json)
  | deleteWebhook (userId : Int) (idParam : String)
  | emailBind (env : UserEnvironment) (id : Int) (email code : String) (timestamp : Int)
  | deleteMessage (userId : Int) (idParam : String)
  | resendMessage (env : Environment) (failure : Option String) (userId : Int) (idParam : String)
  | pushMessage (env : Environment) (request : PushRequest)
  | triggerWebhook (env : Environment)
      (render : Webhook → String → Except Response (Option RenderedRule)) (link body : String)

/-- What `saveAndSendMessage` leaves behind. -/
def Service.deliver (state : Service) (outcome : Outcome) : Service where
  database := { state.database with messages := outcome.messages }
  queue := state.queue ++ outcome.queued
  sending := state.sending
  handed := state.handed ++ outcome.handed.toList

/-- The state after a request. -/
def Service.serve (state : Service) : WriteRequest → Service
  | .addChannel env userId body =>
      { state with
        database.channels := (addChannel env userId body state.database.channels).channels }
  | .updateChannel env userId statusOnly body =>
      { state with
        database.channels :=
          (updateChannel env userId statusOnly body state.database.channels).channels }
  | .deleteChannel userId idParam =>
      { state with
        database.channels := (deleteChannel userId idParam state.database.channels).channels }
  | .addWebhook env userId body =>
      { state with
        database.webhooks := (addWebhook env userId body state.database.webhooks).webhooks }
  | .updateWebhook env userId statusOnly body =>
      { state with
        database.webhooks :=
          (updateWebhook env userId statusOnly body state.database.webhooks).webhooks }
  | .deleteWebhook userId idParam =>
      { state with
        database.webhooks := (deleteWebhook userId idParam state.database.webhooks).webhooks }
  | .emailBind env id email code timestamp =>
      let done := emailBind env id email code timestamp state.database.users state.database.channels
      { state with database.users := done.users, database.channels := done.channels }
  | .deleteMessage userId idParam =>
      { state with
        database.messages :=
          (deleteMessageById state.database.messages (Text.parseInt idParam).1 userId).1 }
  | .resendMessage env failure userId idParam =>
      state.deliver (resendMessage env failure state.database.users state.database.channels
        state.database.messages userId idParam).1
  | .pushMessage env request =>
      state.deliver (pushMessage env state.database.users state.database.channels
        state.database.messages request).1
  | .triggerWebhook env render link body =>
      state.deliver (triggerWebhook env state.database.users state.database.channels
        state.database.webhooks state.database.messages render link body).1

inductive ServiceLabel where
  | request (request : WriteRequest)
  | skip
  | start
  | finish

/-- A request is served, or a worker takes an id from the queue, or it is done with a message. The
tables in which a worker finds user and channel are left open, since it reads them later. -/
inductive ServiceStep : Service → ServiceLabel → Service → Prop where
  | request {state request} : ServiceStep state (.request request) (state.serve request)
  | skip {state id rest} (first : state.queue = id :: rest) :
      ServiceStep state .skip { state with queue := rest }
  | start {state id rest message users channels} (first : state.queue = id :: rest)
      (found : getMessageById state.database.messages id = .ok message) :
      ServiceStep state .start
        { state with
          queue := rest
          sending := state.sending ++ [message]
          handed :=
            state.handed ++ (asyncMessageSenderHelper users channels message).toOption.toList }
  | finish {state before after message error failure}
      (at_ : state.sending = before ++ message :: after) :
      ServiceStep state .finish
        { state with
          database.messages :=
            (message.updateStatus (asyncStatus error) failure state.database.messages).1
          sending := before ++ after }

def service : System Service ServiceLabel where
  Initial _ := True
  Step := ServiceStep

/-- The request acts for the user: it comes in a session of the user, or it is a push or a trigger
that is admitted for the user. -/
def ActsFor (state : Service) (user : Int) : WriteRequest → Prop
  | .addChannel _ userId _ | .updateChannel _ userId _ _ | .deleteChannel userId _
  | .addWebhook _ userId _ | .updateWebhook _ userId _ _ | .deleteWebhook userId _
  | .emailBind _ userId _ _ _ | .deleteMessage userId _ | .resendMessage _ _ userId _ =>
      userId = user
  | .pushMessage env request =>
      ∃ actor, AuthorisedFor env state.database.users state.database.channels request actor ∧
        actor.id = user
  | .triggerWebhook env render link body =>
      ∃ actor message channel, admitTrigger env state.database.users state.database.channels
        state.database.webhooks render link body = .ok (actor, message, channel) ∧ actor.id = user

/-- The deferred function of a failed insertion finds no message of `other` under the id of the
body, or only for a synchronous message and with the status that it writes. -/
def Spares (other : Int) (env : Environment) (user : User) (message : Message) (channel : Channel)
    (messages : Messages) : Prop :=
  channel.status ≠ channelStatusEnabled ∨ ¬ persists env user ∨
    insertAccepted env user message messages ∨ message.id = 0 ∨
    ∀ row, messages.rowAt message.id = some row → row.userId = other →
      message.async = false ∧ (env.faults.updateStatus ≠ none ∨ row.status = messageSendStatusFailed)

/-- The only requests that can reach the rows of another user are pushes. -/
def WriteRequest.Spares (other : Int) (state : Service) : WriteRequest → Prop
  | .pushMessage env request =>
      ∀ actor message channel,
        admitPush env state.database.users state.database.channels request =
          .ok (actor, message, channel) →
        Access.Spares other env actor message channel state.database.messages
  | _ => True

/-- The queue and the workers hold nothing of the user. -/
structure Idle (user : Int) (state : Service) : Prop where
  queue : ∀ id ∈ state.queue, ∀ message,
    getMessageById state.database.messages id = .ok message → message.userId ≠ user
  sending : ∀ message ∈ state.sending, message.userId ≠ user ∧
    ∀ row, state.database.messages.rowAt message.id = some row → row.userId ≠ user

/-! ### Status updates -/

/-- A status update leaves the rows of a user alone exactly when it is refused, fails, or finds no
row of the user that has another status. -/
theorem updateStatus_agreesOn_iff (message : Message) (status : Int) (failure : Option String)
    (messages : Messages) (user : Int) :
    messages.AgreesOn (fun row => row.userId = user)
        (message.updateStatus status failure messages).1 ↔
      message.id = 0 ∨ failure ≠ none ∨
        ∀ row, messages.rowAt message.id = some row → row.userId = user → row.status = status := by
  unfold Message.updateStatus
  split_ifs with unset
  · exact iff_of_true (.refl _ _) (.inl unset)
  cases failure with
  | some text => exact iff_of_true (.refl _ _) (.inr (.inl (by simp)))
  | none =>
      simp only [unset, ne_eq, not_true_eq_false, false_or]
      have writes : messages.Rewrites (setStatus messages message.id status) message.id
          ((messages.rowAt message.id).map (MessageRow.setStatus status)) :=
        fun key => rowAt_setStatus messages message.id status key
      rw [writes.agreesOn_iff]
      cases messages.rowAt message.id with
      | none => simp
      | some row =>
          have owner : (row.setStatus status).userId = row.userId := rfl
          by_cases own : row.userId = user
          · simp only [Option.map_some, Option.filter_some, owner, own, decide_true, if_true,
              Option.some.injEq, forall_eq', true_implies]
            constructor
            · intro same
              exact congrArg MessageRow.status same
            · rintro rfl
              rfl
          · simp [Option.filter_some, owner, own]

/-- A status update reads no row of a user that was not there. -/
theorem rowAt_updateStatus_owner {message : Message} {status : Int} {failure : Option String}
    {messages : Messages} {key : Int} {row : MessageRow}
    (found : (message.updateStatus status failure messages).1.rowAt key = some row) :
    ∃ before, messages.rowAt key = some before ∧ before.userId = row.userId := by
  rcases rowAt_updateStatus message status failure messages key with same | ⟨-, -, written⟩
  · exact ⟨row, same.symm.trans found, rfl⟩
  · rw [written] at found
    obtain ⟨before, there, rfl⟩ := Option.map_eq_some_iff.mp found
    exact ⟨before, there, rfl⟩

/-! ### `saveAndSendMessage` -/

/-- What is stored, queued and sent leaves a user alone. -/
structure LeavesAlone (user : Int) (messages : Messages) (outcome : Outcome) : Prop where
  table : messages.AgreesOn (fun row => row.userId = user) outcome.messages
  queued : ∀ id ∈ outcome.queued, ∀ message,
    getMessageById outcome.messages id = .ok message → message.userId ≠ user
  handed : ∀ call ∈ outcome.handed, call.user.id ≠ user

theorem LeavesAlone.refl (user : Int) (messages : Messages) :
    LeavesAlone user messages { messages } where
  table := .refl _ _
  queued id queued := absurd queued List.not_mem_nil
  handed call handed := by cases handed

theorem getMessageById_ok {messages : Messages} {id : Int} {message : Message}
    (loaded : getMessageById messages id = .ok message) :
    ∃ row, messages.rowAt id = some row ∧ message = Message.ofRow row := by
  unfold getMessageById at loaded
  split_ifs at loaded
  split at loaded
  · next row found =>
    cases loaded
    exact ⟨row, found, rfl⟩
  · cases loaded

section Save

variable {env : Environment} {user : User} {message : Message} {channel : Channel}
  {messages : Messages} {other : Int}

/-- An accepted insertion is of a row of the user, and so is what follows it. -/
theorem leavesAlone_of_accepted (apart : user.id ≠ other)
    (enabled : channel.status = channelStatusEnabled) (stored : persists env user)
    (accepted : insertAccepted env user message messages) :
    LeavesAlone other messages (saveAndSendMessage env user message channel messages) := by
  obtain ⟨next, row, success, inserted, table, queue, -⟩ :=
    saveAndSendMessage_accepted enabled stored accepted
  have owner : row.userId = user.id := by
    obtain ⟨-, rfl, -, -⟩ := Table.insert_spec inserted
    rfl
  have there : next.rowAt row.id = some row := by simp [Table.rowAt_insert inserted]
  refine ⟨?_, ?_, fun call handed => ?_⟩
  · rw [table]
    refine (Table.agreesOn_insert inserted ?_).trans ((updateStatus_agreesOn_iff ..).mpr ?_)
    · simpa [owner] using apart
    · refine .inr (.inr fun found here own => ?_)
      obtain rfl := Option.some.inj (there.symm.trans here)
      exact absurd (owner.symm.trans own) apart
  · intro id queued loaded found
    rw [queue] at queued
    have same : id = row.id := by
      split_ifs at queued
      · simpa using queued
      · cases queued
    subst same
    rw [table] at found
    obtain ⟨after, here, rfl⟩ := getMessageById_ok found
    obtain ⟨before, first, same⟩ := rowAt_updateStatus_owner here
    obtain rfl := Option.some.inj (there.symm.trans first)
    exact fun own => apart (owner.symm.trans (same.trans own))
  · rw [(saveAndSendMessage_handed handed).1]
    exact apart

/-- A refused insertion leaves the deferred function with the id of the body. -/
theorem leavesAlone_of_refused_iff (enabled : channel.status = channelStatusEnabled)
    (stored : persists env user) (refused : ¬ insertAccepted env user message messages) :
    LeavesAlone other messages (saveAndSendMessage env user message channel messages) ↔
      message.id = 0 ∨ ∀ row, messages.rowAt message.id = some row → row.userId = other →
        message.async = false ∧
          (env.faults.updateStatus ≠ none ∨ row.status = messageSendStatusFailed) := by
  obtain ⟨table, queue, handed⟩ := saveAndSendMessage_refused enabled stored refused
  constructor
  · intro alone
    by_cases unset : message.id = 0
    · exact .inl unset
    refine .inr fun row found own => ?_
    obtain ⟨kept, queued, -⟩ := alone
    rw [table, updateStatus_agreesOn_iff, unstored_id] at kept
    have sync : message.async = false := by
      by_contra async
      rw [Bool.not_eq_false] at async
      obtain ⟨after, here, owner⟩ := rowAt_updateStatus_userId (unstored env user message)
        (deferredStatus message false) env.faults.updateStatus messages found
      rw [queue, async, table] at queued
      refine queued message.id (by simp) (Message.ofRow after) ?_ (owner.trans own)
      rw [getMessageById, if_neg unset, here]
    refine ⟨sync, ?_⟩
    rcases kept with blank | failing | same
    · exact absurd blank unset
    · exact .inl failing
    · exact .inr ((same row found own).trans (by simp [deferredStatus, sync]))
  · intro spares
    refine ⟨?_, ?_, by simp [handed]⟩
    · rw [table, updateStatus_agreesOn_iff, unstored_id]
      rcases spares with unset | spares
      · exact .inl unset
      · by_cases failing : env.faults.updateStatus = none
        · refine .inr (.inr fun row found own => ?_)
          obtain ⟨sync, kept⟩ := spares row found own
          rw [kept.resolve_left (not_not.mpr failing)]
          simp [deferredStatus, sync]
        · exact .inr (.inl failing)
    · intro id queued loaded found own
      rw [queue] at queued
      split_ifs at queued with async
      · obtain rfl : id = message.id := by simpa using queued
        obtain ⟨unset, -⟩ := getMessageById_id found
        rw [table] at found
        obtain ⟨after, here, rfl⟩ := getMessageById_ok found
        obtain ⟨before, first, same⟩ := rowAt_updateStatus_owner here
        have owner : before.userId = other := same.trans own
        obtain ⟨sync, -⟩ := spares.resolve_left unset before first owner
        rw [async] at sync
        cases sync
      · cases queued

/-- `saveAndSendMessage` leaves another user alone exactly when it spares that one. -/
theorem saveAndSendMessage_leavesAlone_iff (apart : other ≠ user.id) :
    LeavesAlone other messages (saveAndSendMessage env user message channel messages) ↔
      Spares other env user message channel messages := by
  by_cases off : channel.status ≠ channelStatusEnabled ∨ ¬ persists env user
  · obtain ⟨table, queue⟩ := saveAndSendMessage_unstored message messages off
    refine iff_of_true ⟨?_, ?_, fun call handed => ?_⟩ ?_
    · rw [table]
      exact .refl _ _
    · simp [queue]
    · rw [(saveAndSendMessage_handed handed).1]
      exact apart.symm
    · exact off.elim .inl fun unsaved => .inr (.inl unsaved)
  obtain ⟨enabled, stored⟩ : channel.status = channelStatusEnabled ∧ persists env user := by
    simpa using off
  by_cases accepted : insertAccepted env user message messages
  · exact iff_of_true (leavesAlone_of_accepted apart.symm enabled stored accepted)
      (.inr (.inr (.inl accepted)))
  rw [leavesAlone_of_refused_iff enabled stored accepted]
  simp [Spares, enabled, stored, accepted]

end Save

/-! ### Channels, webhooks and deletions -/

section Handlers

variable {userId other : Int}

theorem insertChannel_agreesOn {channel : Channel} (channels : Channels)
    (apart : channel.userId ≠ other) :
    channels.AgreesOn (fun row => row.userId = other) (channel.insert channels).1 := by
  unfold Channel.insert
  cases inserted : Table.insert channels channel.withDefaults with
  | none => exact .refl _ _
  | some pair =>
      obtain ⟨next, stored⟩ := pair
      obtain ⟨-, rfl, -, -⟩ := Table.insert_spec inserted
      exact Table.agreesOn_insert inserted (decide_eq_false apart)

theorem admitAddChannel_owner {env : ChannelEnvironment} {body : Option Json}
    {channels : Channels} {row : Channel}
    (admitted : admitAddChannel env userId body channels = .ok row) : row.userId = userId := by
  unfold admitAddChannel at admitted
  cases decoded : Json.decodeInto Channel.jsonFields body {} with
  | none => simp [decoded, bind, Except.bind] at admitted
  | some channel =>
      simp only [decoded, bind, Except.bind, pure, Except.pure] at admitted
      split_ifs at admitted
      cases exists_ : channelNameExists channels channel.name userId with
      | error text => simp [exists_, Except.mapError] at admitted
      | ok taken =>
          cases taken with
          | true => simp [exists_, Except.mapError] at admitted
          | false =>
              have same : addedChannel env userId channel = row := by
                simpa [exists_, Except.mapError] using admitted
              rw [← same]
              rfl

theorem addChannel_agreesOn (apart : userId ≠ other) (env : ChannelEnvironment)
    (body : Option Json) (channels : Channels) :
    channels.AgreesOn (fun row => row.userId = other)
      (addChannel env userId body channels).channels := by
  unfold addChannel
  cases admitted : admitAddChannel env userId body channels with
  | error text => exact .refl _ _
  | ok row =>
      have kept := insertChannel_agreesOn channels ((admitAddChannel_owner admitted).trans_ne apart)
      dsimp only
      cases result : row.insert channels with
      | mk next answer =>
          rw [result] at kept
          cases answer <;> exact kept

theorem updateChannel_agreesOn (apart : userId ≠ other) (env : ChannelEnvironment)
    (statusOnly : String) (body : Option Json) (channels : Channels) :
    channels.AgreesOn (fun row => row.userId = other)
      (updateChannel env userId statusOnly body channels).channels := by
  cases admitted : admitUpdateChannel env userId statusOnly body channels with
  | error text =>
      rw [updateChannel, admitted]
      exact .refl _ _
  | ok pair =>
      obtain ⟨row, oldRow⟩ := pair
      obtain ⟨sameId, found, -⟩ := admitUpdateChannel_ok admitted
      obtain ⟨channel, -, loaded, change⟩ := admitUpdateChannel_cases admitted
      have owned := (getChannelById_ok loaded).2.2
      have same : row.userId = oldRow.userId := by
        rcases change with ⟨-, rfl⟩ | ⟨-, rfl, -⟩ <;> rfl
      refine (updateChannel_writes admitted).agreesOn ?_ ?_
      · intro before there
        rw [sameId, found] at there
        cases there
        exact decide_eq_false (owned.trans_ne apart)
      · rintro _ ⟨⟩
        exact decide_eq_false ((same.trans owned).trans_ne apart)

theorem deleteChannel_agreesOn (apart : userId ≠ other) (idParam : String) (channels : Channels) :
    channels.AgreesOn (fun row => row.userId = other)
      (deleteChannel userId idParam channels).channels := by
  unfold deleteChannel deleteChannelById
  split_ifs
  · exact .refl _ _
  · cases found : channels.first
      (fun row => row.id = (Text.parseInt idParam).1 ∧ row.userId = userId) with
    | none => exact .refl _ _
    | some row =>
        have accepted : row.id = (Text.parseInt idParam).1 ∧ row.userId = userId := by
          simpa using Table.first_accepts found
        refine (Table.rewrites_delete channels row.id).agreesOn ?_ fun _ none => by cases none
        intro before there
        obtain rfl := Option.some.inj ((Table.rowAt_of_mem (Table.first_mem found)).symm.trans there)
        exact decide_eq_false (accepted.2.trans_ne apart)

theorem addWebhook_agreesOn (apart : userId ≠ other) (env : WebhookEnvironment)
    (body : Option Json) (webhooks : Webhooks) :
    webhooks.AgreesOn (fun row => row.userId = other)
      (addWebhook env userId body webhooks).webhooks := by
  unfold addWebhook
  split
  · exact .refl _ _
  · next webhook decoded =>
    split_ifs
    · exact .refl _ _
    · unfold Webhook.insert
      cases inserted : Table.insert webhooks (addedWebhook env userId webhook).withDefaults with
      | none => exact .refl _ _
      | some pair =>
          obtain ⟨next, stored⟩ := pair
          obtain ⟨-, rfl, -, -⟩ := Table.insert_spec inserted
          exact Table.agreesOn_insert inserted (decide_eq_false apart)

theorem updateWebhook_agreesOn (apart : userId ≠ other) (env : WebhookEnvironment)
    (statusOnly : String) (body : Option Json) (webhooks : Webhooks) :
    webhooks.AgreesOn (fun row => row.userId = other)
      (updateWebhook env userId statusOnly body webhooks).webhooks := by
  cases decoded : Json.decodeInto Webhook.jsonFields body {} with
  | none =>
      rw [updateWebhook, decoded]
      exact .refl _ _
  | some webhook =>
      cases loaded : getWebhookById webhooks webhook.id userId with
      | error text =>
          rw [updateWebhook, decoded]
          dsimp only
          rw [loaded]
          exact .refl _ _
      | ok oldWebhook =>
          obtain ⟨-, found, owned⟩ := getWebhookById_ok loaded
          have same : (cleanWebhook statusOnly webhook oldWebhook).userId = oldWebhook.userId := by
            unfold cleanWebhook
            split_ifs <;> rfl
          refine (updateWebhook_writes decoded loaded).agreesOn ?_ ?_
          · intro before there
            rw [found] at there
            cases there
            exact decide_eq_false (owned.trans_ne apart)
          · rintro _ ⟨⟩
            exact decide_eq_false ((same.trans owned).trans_ne apart)

theorem deleteWebhook_agreesOn (apart : userId ≠ other) (idParam : String) (webhooks : Webhooks) :
    webhooks.AgreesOn (fun row => row.userId = other)
      (deleteWebhook userId idParam webhooks).webhooks := by
  unfold deleteWebhook deleteWebhookById
  split_ifs
  · exact .refl _ _
  · cases found : webhooks.first
      (fun row => row.id = (Text.parseInt idParam).1 ∧ row.userId = userId) with
    | none => exact .refl _ _
    | some row =>
        have accepted : row.id = (Text.parseInt idParam).1 ∧ row.userId = userId := by
          simpa using Table.first_accepts found
        refine (Table.rewrites_delete webhooks row.id).agreesOn ?_ fun _ none => by cases none
        intro before there
        obtain rfl := Option.some.inj ((Table.rowAt_of_mem (Table.first_mem found)).symm.trans there)
        exact decide_eq_false (accepted.2.trans_ne apart)

theorem deleteMessageById_agreesOn (apart : userId ≠ other) (id : Int) (messages : Messages) :
    messages.AgreesOn (fun row => row.userId = other) (deleteMessageById messages id userId).1 := by
  unfold deleteMessageById
  cases loaded : getMessageByIds messages id userId with
  | error text => exact .refl _ _
  | ok message =>
      obtain ⟨row, member, -, owned, rfl⟩ := getMessageByIds_ok loaded
      refine (Table.rewrites_delete messages row.id).agreesOn ?_ fun _ none => by cases none
      intro before there
      obtain rfl := Option.some.inj ((Table.rowAt_of_mem member).symm.trans there)
      exact decide_eq_false (owned.trans_ne apart)

theorem emailBind_agrees (apart : userId ≠ other) (env : UserEnvironment) (email code : String)
    (timestamp : Int) (users : Users) (channels : Channels) :
    let done := emailBind env userId email code timestamp users channels
    users.rowAt other = done.users.rowAt other ∧
      channels.AgreesOn (fun row => row.userId = other) done.channels := by
  refine ⟨?_, ?_⟩
  · unfold emailBind
    split_ifs
    · rfl
    · cases filled : fillUserById users { id := userId } with
      | error text => rfl
      | ok user =>
          have number : user.id = userId := fillUserById_id filled
          have kept : users.rowAt other =
              (({ user with email } : User).update env.passwords false users).1.rowAt other := by
            rcases User.update_cases env.passwords { user with email } false users with
              same | ⟨row, hash, -, writes⟩
            · rw [same]
            · exact (writes.elsewhere (fun same => apart (number.symm.trans same.symm))).symm
          dsimp only
          cases result : ({ user with email } : User).update env.passwords false users with
          | mk next failure =>
              rw [result] at kept
              cases failure <;> exact kept
  · rcases emailBind_channels env userId email code timestamp users channels with
      ⟨-, same⟩ | ⟨-, same⟩
    · rw [same]
      exact .refl _ _
    · rw [same]
      exact insertChannel_agreesOn channels apart

end Handlers

/-! ### Whole runs -/

/-- Nothing of the user has changed, nothing of the user waits for a worker, and nothing was sent
for the user. -/
structure Untouched (user : Int) (before after : Service) : Prop where
  own : OwnAgree user before.database after.database
  idle : Idle user after
  handed : ∃ calls, after.handed = before.handed ++ calls ∧ ∀ call ∈ calls, call.user.id ≠ user

section Runs

variable {user : Int} {before middle after state : Service}

theorem OwnAgree.trans {left middle right : Database} (first : OwnAgree user left middle)
    (second : OwnAgree user middle right) : OwnAgree user left right where
  self := first.self.trans second.self
  messages := first.messages.trans second.messages
  channels := first.channels.trans second.channels
  webhooks := first.webhooks.trans second.webhooks

theorem Untouched.refl (idle : Idle user state) : Untouched user state state where
  own := ⟨rfl, .refl _ _, .refl _ _, .refl _ _⟩
  idle := idle
  handed := ⟨[], by simp, by simp⟩

theorem Untouched.trans (first : Untouched user before middle)
    (second : Untouched user middle after) : Untouched user before after := by
  obtain ⟨early, sent, apart⟩ := first.handed
  obtain ⟨late, sentThen, apartThen⟩ := second.handed
  refine ⟨first.own.trans second.own, second.idle, early ++ late, ?_, ?_⟩
  · rw [sentThen, sent, List.append_assoc]
  · intro call member
    exact (List.mem_append.mp member).elim (apart call) (apartThen call)

/-- A message of a user that can be loaded after a change elsewhere could be loaded before. -/
theorem getMessageById_of_agreesOn {left right : Messages} {id : Int} {message : Message}
    (agree : left.AgreesOn (fun row => row.userId = user) right)
    (loaded : getMessageById right id = .ok message) (own : message.userId = user) :
    getMessageById left id = .ok message := by
  obtain ⟨row, found, rfl⟩ := getMessageById_ok loaded
  rw [getMessageById, if_neg (getMessageById_id loaded).1,
    agree.rowAt found (decide_eq_true own)]

/-- Who has nothing in the queue or with a worker keeps it so while the user's rows stay. -/
theorem Idle.kept (idle : Idle user before)
    (agree : before.database.messages.AgreesOn (fun row => row.userId = user)
      after.database.messages)
    (queue : ∀ id ∈ after.queue, id ∈ before.queue ∨ ∀ message,
      getMessageById after.database.messages id = .ok message → message.userId ≠ user)
    (sending : ∀ message ∈ after.sending, message ∈ before.sending ∨
      getMessageById before.database.messages message.id = .ok message ∧ message.userId ≠ user) :
    Idle user after where
  queue id queued message loaded own := by
    rcases queue id queued with old | new
    · exact idle.queue id old message (getMessageById_of_agreesOn agree loaded own) own
    · exact new message loaded own
  sending message taken := by
    have there : message.userId ≠ user ∧
        ∀ row, before.database.messages.rowAt message.id = some row → row.userId ≠ user := by
      rcases sending message taken with old | ⟨loaded, foreign⟩
      · exact idle.sending message old
      · obtain ⟨row, found, same⟩ := getMessageById_ok loaded
        refine ⟨foreign, fun other here => ?_⟩
        obtain rfl := Option.some.inj (found.symm.trans here)
        rw [same] at foreign
        exact foreign
    exact ⟨there.1, fun row found own =>
      there.2 row (agree.rowAt found (decide_eq_true own)) own⟩

/-- A worker sends as the user of the message. -/
theorem asyncMessageSenderHelper_user {users : Users} {channels : Channels} {message : Message}
    {call : SendCall}
    (sent : call ∈ (asyncMessageSenderHelper users channels message).toOption.toList) :
    call.user.id = message.userId := by
  unfold asyncMessageSenderHelper at sent
  cases loaded : getUserById users message.userId false with
  | error text => simp [loaded, bind, Except.bind, Except.toOption] at sent
  | ok owner =>
      cases route : getChannelByName channels message.channel owner.id with
      | error text => simp [loaded, route, bind, Except.bind, Except.toOption] at sent
      | ok channel =>
          have same : call = ⟨message, owner, channel⟩ := by
            simpa [loaded, route, bind, Except.bind, pure, Except.pure, Except.toOption] using sent
          rw [same]
          exact getUserById_id loaded

/-- A handler that changes the database alone. -/
theorem Untouched.of_database {database : Database} (idle : Idle user state)
    (own : OwnAgree user state.database database) :
    Untouched user state { state with database } where
  own := own
  idle := idle.kept own.messages (fun _ queued => .inl queued) fun _ taken => .inl taken
  handed := ⟨[], by simp, by simp⟩

theorem Untouched.deliver {outcome : Outcome} (idle : Idle user state)
    (alone : LeavesAlone user state.database.messages outcome) :
    Untouched user state (state.deliver outcome) where
  own := ⟨rfl, alone.table, .refl _ _, .refl _ _⟩
  idle := by
    refine idle.kept alone.table (fun id queued => ?_) fun _ taken => .inl taken
    exact (List.mem_append.mp queued).imp_right (alone.queued id)
  handed := ⟨outcome.handed.toList, rfl, fun call member =>
    alone.handed call (Option.mem_toList.mp member)⟩

/-- What a request for somebody else does. -/
theorem Untouched.serve (idle : Idle user state) {request : WriteRequest}
    (apart : ¬ ActsFor state user request) (spares : request.Spares user state) :
    Untouched user state (state.serve request) := by
  cases request with
  | addChannel env userId body =>
      exact .of_database idle
        ⟨rfl, .refl _ _, addChannel_agreesOn apart env body _, .refl _ _⟩
  | updateChannel env userId statusOnly body =>
      exact .of_database idle
        ⟨rfl, .refl _ _, updateChannel_agreesOn apart env statusOnly body _, .refl _ _⟩
  | deleteChannel userId idParam =>
      exact .of_database idle ⟨rfl, .refl _ _, deleteChannel_agreesOn apart idParam _, .refl _ _⟩
  | addWebhook env userId body =>
      exact .of_database idle
        ⟨rfl, .refl _ _, .refl _ _, addWebhook_agreesOn apart env body _⟩
  | updateWebhook env userId statusOnly body =>
      exact .of_database idle
        ⟨rfl, .refl _ _, .refl _ _, updateWebhook_agreesOn apart env statusOnly body _⟩
  | deleteWebhook userId idParam =>
      exact .of_database idle ⟨rfl, .refl _ _, .refl _ _, deleteWebhook_agreesOn apart idParam _⟩
  | emailBind env id email code timestamp =>
      obtain ⟨self, channels⟩ := emailBind_agrees apart env email code timestamp
        state.database.users state.database.channels
      exact .of_database idle ⟨self, .refl _ _, channels, .refl _ _⟩
  | deleteMessage userId idParam =>
      exact .of_database idle
        ⟨rfl, deleteMessageById_agreesOn apart (Text.parseInt idParam).1 _, .refl _ _, .refl _ _⟩
  | resendMessage env failure userId idParam =>
      refine .deliver idle ?_
      rw [resendMessage_eq]
      split
      · exact .refl _ _
      · next actor message channel admitted =>
        obtain ⟨⟨row, -, -, -, rfl⟩, loaded, -⟩ := admitResend_ok admitted
        have number : actor.id = userId := getUserById_id loaded
        exact (saveAndSendMessage_leavesAlone_iff fun same =>
          apart (number.symm.trans same.symm)).mpr (.inr (.inr (.inr (.inl rfl))))
  | pushMessage env request =>
      refine .deliver idle ?_
      rw [pushMessage_eq]
      split
      · exact .refl _ _
      · next actor message channel admitted =>
        exact (saveAndSendMessage_leavesAlone_iff fun same =>
          apart ⟨actor, ⟨message, channel, admitted⟩, same.symm⟩).mpr
            (spares actor message channel admitted)
  | triggerWebhook env render link body =>
      refine .deliver idle ?_
      rw [triggerWebhook_eq]
      split
      · exact .refl _ _
      · next actor message channel admitted =>
        obtain ⟨webhook, rule, -, prepared⟩ := admitTrigger_ok admitted
        obtain ⟨-, -, -, rfl⟩ := prepareMessage_ok_iff.mp prepared
        exact (saveAndSendMessage_leavesAlone_iff fun same =>
          apart ⟨actor, _, channel, admitted, same.symm⟩).mpr (.inr (.inr (.inr (.inl rfl))))

/-- The condition on a step: a request is for somebody else, and spares the user. -/
def Elsewhere (user : Int) (state : Service) : ServiceLabel → Prop
  | .request request => ¬ ActsFor state user request ∧ request.Spares user state
  | _ => True

theorem Untouched.step {label : ServiceLabel} (idle : Idle user before)
    (elsewhere : Elsewhere user before label) (step : ServiceStep before label after) :
    Untouched user before after := by
  cases step with
  | request => exact .serve idle elsewhere.1 elsewhere.2
  | @skip id rest first =>
      refine ⟨⟨rfl, .refl _ _, .refl _ _, .refl _ _⟩, ?_, [], by simp, by simp⟩
      refine idle.kept (.refl _ _) (fun other queued => .inl ?_) fun _ taken => .inl taken
      rw [first]
      exact List.mem_cons_of_mem id queued
  | @start id rest message users channels first found =>
      have foreign : message.userId ≠ user :=
        idle.queue id (by rw [first]; exact List.mem_cons_self) message found
      obtain ⟨-, rfl⟩ := getMessageById_id found
      refine ⟨⟨rfl, .refl _ _, .refl _ _, .refl _ _⟩, ?_, _, rfl, fun call member => ?_⟩
      · refine idle.kept (.refl _ _) (fun other queued => .inl ?_) fun other taken => ?_
        · rw [first]
          exact List.mem_cons_of_mem _ queued
        · refine (List.mem_append.mp taken).imp_right fun last => ?_
          obtain rfl := List.mem_singleton.mp last
          exact ⟨found, foreign⟩
      · rw [asyncMessageSenderHelper_user member]
        exact foreign
  | @finish earlier later message error failure at_ =>
      have there := (idle.sending message (by rw [at_]; simp)).2
      have agree := (updateStatus_agreesOn_iff message (asyncStatus error) failure
        before.database.messages user).mpr
          (.inr (.inr fun row found own => absurd own (there row found)))
      refine ⟨⟨rfl, agree, .refl _ _, .refl _ _⟩, ?_, [], by simp, by simp⟩
      refine idle.kept agree (fun _ queued => .inl queued) fun other taken => .inl ?_
      rw [at_]
      simp only [List.mem_append, List.mem_cons] at taken ⊢
      exact taken.imp_right .inr

theorem Untouched.runs {labels : List ServiceLabel} (idle : Idle user before)
    (runs : (service.guard (Elsewhere user)).Runs before labels after) :
    Untouched user before after := by
  induction runs with
  | refl => exact .refl idle
  | step _ transition ih =>
      obtain ⟨elsewhere, step⟩ := transition
      exact ih.trans (.step ih.idle elsewhere step)

end Runs

/-- Whatever others do, in whatever order, and whatever the workers do of it: all that a user owns
stays as it is, nothing is sent for the user, and the user reads the same. -/
theorem others_change_nothing {user : Int} {before after : Service} {labels : List ServiceLabel}
    (idle : Idle user before) (runs : (service.guard (Elsewhere user)).Runs before labels after) :
    Untouched user before after ∧
      ∀ (dialect : Dialect) (settings : Settings) (session : Session) (request : ReadRequest),
        session.id = user → (∀ keyword, request ≠ .searchMessages keyword) →
        serveRead dialect settings (some session) request before.database =
          serveRead dialect settings (some session) request after.database := by
  have untouched := Untouched.runs idle runs
  refine ⟨untouched, ?_⟩
  rintro dialect settings session request rfl notSearch
  unfold serveRead
  cases passed : @userAuth ReadData (some session) with
  | error refusal => rfl
  | ok actor =>
      obtain ⟨held, -⟩ := authHelper_ok_iff.mp passed
      obtain rfl := Option.some.inj held
      exact handleRead_eq dialect settings untouched.own notSearch

/-- A stored message of user 1, and user 2 with a channel. -/
def sharedService : Service where
  database := { users := forgerUsers, messages := victimMessages, channels := forgerChannels
                webhooks := .empty }

/-- An asynchronous push of user 2. -/
def foreignRequest : PushRequest where
  username := "bob"
  body := some (.object [("channel", .string "c"), ("async", .bool true)])

/-- The id of the user that it is admitted for, and the id in its body. -/
def admittedNumbers : Option (Int × Int) :=
  (admitPush { uuid := "fresh" } forgerUsers forgerChannels foreignRequest).toOption.map
    fun call => (call.1.id, call.2.1.id)

def foreignPush : WriteRequest := .pushMessage { uuid := "fresh" } foreignRequest

theorem others_change_nothing_sharedService :
    (sharedService.serve foreignPush).queue = [2] ∧
      Untouched 1 sharedService (sharedService.serve foreignPush) := by
  have admitted : admittedNumbers = some (2, 0) := by decide
  have numbers : ∀ actor message channel,
      admitPush { uuid := "fresh" } forgerUsers forgerChannels foreignRequest =
        .ok (actor, message, channel) → actor.id = 2 ∧ message.id = 0 := by
    intro actor message channel passed
    rw [admittedNumbers, passed] at admitted
    exact Prod.mk.inj (Option.some.inj admitted)
  have idle : Idle 1 sharedService :=
    ⟨fun _ queued => absurd queued List.not_mem_nil, fun _ taken => absurd taken List.not_mem_nil⟩
  have apart : ¬ ActsFor sharedService 1 foreignPush := by
    rintro ⟨actor, ⟨message, channel, passed⟩, same⟩
    rw [(numbers actor message channel passed).1] at same
    exact absurd same (by decide)
  have spares : foreignPush.Spares 1 sharedService := fun actor message channel passed =>
    .inr (.inr (.inr (.inl (numbers actor message channel passed).2)))
  have elsewhere : Elsewhere 1 sharedService (.request foreignPush) := ⟨apart, spares⟩
  exact ⟨by decide, (others_change_nothing idle (.single ⟨elsewhere, .request⟩)).1⟩

end MessagePusher.Access
