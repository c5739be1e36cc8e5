import MessagePusher.Channel.MessageQueue
import MessagePusher.Channel.Views
import MessagePusher.Controller.PushIsolation
import MessagePusher.Controller.Webhook
import MessagePusher.Delivery.GroupProduct

/-!
# The three ways to `SendMessage`

A push delivers at once or through the queue, a webhook trigger at once. The
queue and the trigger load the user without the column `send_email_to_others`,
so they refuse the mails that need it; otherwise the three ways agree.
-/

namespace MessagePusher.Delivery

open Common Model Store Channel Controller

variable (lib : Library) (transport : Outgoing → Option String)

/-- The sub-channels that a group delivery gets to: it ends at the first that is missing or
is itself a group, and with the first whose sender panics. -/
def reached (channels : Channels) (userId : Int) : List (String × String) → List Member
  | [] => []
  | (name, target) :: rest =>
      match getChannelByName channels name userId with
      | .error _ => []
      | .ok channel =>
          if channel.type = typeGroup then []
          else if panicsFor lib target channel then [⟨name, target, channel⟩]
          else ⟨name, target, channel⟩ :: reached channels userId rest

/-- The channels whose senders a call of `SendMessage` runs, with their targets. -/
def recipients (channels : Channels) (call : SendCall) : List Member :=
  if call.channel.type = typeGroup then
    if (groupSubChannels call.channel).length ≠ (groupTargets call.message call.channel).length then
      []
    else
      reached lib channels call.user.id
        ((groupSubChannels call.channel).zip (groupTargets call.message call.channel))
  else [⟨call.message.channel, call.message.to_, call.channel⟩]

/-- A sender rewrites neither the fields of transit nor anything of the user but the mail
address. -/
theorem sendDirect_keeps (readings : Readings) (message : Message) (user : User)
    (channel : Model.Channel) :
    transitOf (sendDirect lib readings message user channel).message = transitOf message ∧
      ∃ email, (sendDirect lib readings message user channel).user = { user with email } := by
  unfold sendDirect
  cases senderOf channel.type with
  | none => exact ⟨rfl, user.email, rfl⟩
  | some sender =>
      cases sender with
      | email =>
          simp only [runSender]
          unfold sendEmailMessage
          split_ifs
          · exact ⟨rfl, user.email, rfl⟩
          · exact ⟨rfl, _, rfl⟩
          · exact ⟨rfl, _, rfl⟩
      | _ => exact ⟨rfl, user.email, rfl⟩

/-- A statement about the entries of a list and their positions, head first. -/
theorem forall_getElem?_cons {α : Type} {first : α} {rest : List α} {holds : Nat → α → Prop} :
    (∀ index entry, (first :: rest)[index]? = some entry → holds index entry) ↔
      holds 0 first ∧ ∀ index entry, rest[index]? = some entry → holds (index + 1) entry := by
  constructor
  · intro all
    exact ⟨all 0 first rfl, fun index entry found => all (index + 1) entry found⟩
  · rintro ⟨here, later⟩ index entry found
    cases index with
    | zero =>
        cases found
        exact here
    | succ index => exact later index entry found

/-- What a member may do with the reloaded message and user for its decision to be the same. -/
def MemberAgrees (readings : Readings) (user : User) (framesAgree : Prop) (member : Member) :
    Prop :=
  ¬ needsPermission user member.channel member.target ∧
    (sendsFrame readings user member.channel → framesAgree)

section Group

variable (view : Message → Message) (framesAgree : Prop) (original transit : Transit)
  (frames : ∀ message, transitOf message = original →
    (view (transit.put message) = view message ↔ framesAgree))

include frames

/-- The loop of a group on the reloaded message and user. -/
theorem groupLoop_brief_shown_iff (channels : Channels) (readings : Nat → Readings)
    (pairs : List (String × String)) (index : Nat) (errMessage : String) (message : Message)
    (user : User) (way : transitOf message = original) :
    (groupLoop lib transport channels readings index errMessage (transit.put message) user.brief
        pairs).shown view =
        (groupLoop lib transport channels readings index errMessage message user pairs).shown view ↔
      ∀ i member, (reached lib channels user.id pairs)[i]? = some member →
        MemberAgrees (readings (index + i)) user framesAgree member := by
  induction pairs generalizing index errMessage message user with
  | nil => simp [reached, groupLoop]
  | cons pair rest ih =>
      obtain ⟨name, target⟩ := pair
      have sameId : user.brief.id = user.id := rfl
      simp only [groupLoop, reached, sameId]
      cases found : getChannelByName channels name user.id with
      | error text => simp
      | ok channel =>
          by_cases nested : channel.type = typeGroup
          · simp [nested]
          simp only [nested, if_false]
          -- The member gets the same fields on both sides, up to transit and permission.
          have moved : ({ transit.put message with to_ := target, channel := name } : Message) =
              transit.put { message with to_ := target, channel := name } := rfl
          rw [moved]
          generalize to_member :
            ({ message with to_ := target, channel := name } : Message) = addressed
          have sameTarget : addressed.to_ = target := by rw [← to_member]
          have wayHere : transitOf addressed = original := by rw [← to_member]; exact way
          obtain ⟨wayAfter, email, userAfter⟩ :=
            sendDirect_keeps lib (readings index) addressed user channel
          have decided := sendDirect_brief_shown_iff lib (readings index) view transit addressed user
            channel
          rw [frames addressed wayHere, sameTarget] at decided
          have brokenThere : panics (sendDirect lib (readings index) (transit.put addressed) user.brief
              channel).decision = panicsFor lib target channel := by
            rw [panics_sendDirect, ← sameTarget]
            rfl
          have brokenHere : panics (sendDirect lib (readings index) addressed user channel).decision =
              panicsFor lib target channel := by
            rw [panics_sendDirect, sameTarget]
          rw [brokenThere, brokenHere]
          by_cases broken : panicsFor lib target channel = true
          · rw [if_pos broken, if_pos broken, if_pos broken, forall_getElem?_cons]
            by_cases here : MemberAgrees (readings index) user framesAgree ⟨name, target, channel⟩
            · have same := decided.mpr here
              simp [Delivery.shown, Attempt.shown, same, here, errorOf_shown transport same]
            · have different := mt decided.mp here
              simp [Delivery.shown, Attempt.shown, different, here]
          rw [if_neg broken, if_neg broken, if_neg broken, forall_getElem?_cons]
          by_cases here : MemberAgrees (readings index) user framesAgree ⟨name, target, channel⟩
          · have same := decided.mpr here
            obtain ⟨messageNext, userNext⟩ :=
              sendDirect_brief lib (readings index) transit addressed user channel
                (by rw [sameTarget]; exact here.1)
            rw [messageNext, userNext, errorOf_shown transport same]
            have later := ih (index + 1)
              (appendError errMessage name (errorOf transport
                (sendDirect lib (readings index) addressed user channel).decision))
              (sendDirect lib (readings index) addressed user channel).message
              (sendDirect lib (readings index) addressed user channel).user
              (wayAfter.trans wayHere)
            simp only [Delivery.shown, List.map_cons, Attempt.shown, Delivery.mk.injEq,
              List.cons.injEq, Attempt.mk.injEq, true_and] at later ⊢
            simp only [same, true_and, Nat.add_zero, here]
            rw [later, userAfter]
            simp only [Nat.add_assoc, Nat.add_comm 1]
            rfl
          · have different := mt decided.mp here
            simp only [Delivery.shown, List.map_cons, Attempt.shown, Delivery.mk.injEq,
              List.cons.injEq, Attempt.mk.injEq, true_and, different, false_and, Nat.add_zero, here]

/-- `SendMessage` on the reloaded message and user. -/
theorem deliver_brief_shown_iff (channels : Channels) (readings : Nat → Readings)
    (call : SendCall) (way : transitOf call.message = original) :
    (SendCall.deliver lib transport channels readings
        ⟨transit.put call.message, call.user.brief, call.channel⟩).shown view =
        (call.deliver lib transport channels readings).shown view ↔
      ∀ i member, (recipients lib channels call)[i]? = some member →
        MemberAgrees (readings i) call.user framesAgree member := by
  unfold SendCall.deliver sendMessage recipients
  by_cases grouped : call.channel.type = typeGroup
  · have sameTargets : groupTargets (transit.put call.message) call.channel =
        groupTargets call.message call.channel := rfl
    simp only [grouped, if_true, sendGroupMessage, sameTargets]
    by_cases mismatch : (groupSubChannels call.channel).length ≠
        (groupTargets call.message call.channel).length
    · simp [mismatch]
    · simp only [mismatch, if_false]
      simpa using groupLoop_brief_shown_iff lib transport view framesAgree original transit frames
        channels readings _ 0 "" call.message call.user way
  · have decided := sendDirect_brief_shown_iff lib (readings 0) view transit call.message call.user
      call.channel
    rw [frames call.message way] at decided
    simp only [grouped, if_false]
    rw [forall_getElem?_cons]
    simp only [List.getElem?_nil, reduceCtorEq, false_implies, implies_true, and_true]
    by_cases here : MemberAgrees (readings 0) call.user framesAgree
        ⟨call.message.channel, call.message.to_, call.channel⟩
    · have same := decided.mpr here
      have broken : panics (sendDirect lib (readings 0) (transit.put call.message) call.user.brief
          call.channel).decision =
            panics (sendDirect lib (readings 0) call.message call.user call.channel).decision := by
        rw [panics_sendDirect, panics_sendDirect]
        rfl
      simp [Delivery.shown, Attempt.shown, same, here, broken, errorOf_shown transport same]
    · have different := mt decided.mp here
      simp [Delivery.shown, Attempt.shown, different, here]

end Group

/-! ### The three ways -/

/-- The fields of a message that a request chooses, whichever way it takes. -/
structure Draft where
  title : String := ""
  description : String := ""
  content : String := ""
  url : String := ""
  channel : String := ""
  to_ : String := ""
  renderMode : String := ""
  msgType : String := ""

def Draft.message (draft : Draft) (token : String) (async : Bool) : Message where
  title := draft.title
  description := draft.description
  content := draft.content
  url := draft.url
  channel := draft.channel
  to_ := draft.to_
  renderMode := draft.renderMode
  msgType := draft.msgType
  token := token
  async := async

/-- A message on its way: the database and the surroundings, the push request with its
token, and the fields of the message. -/
structure Case where
  env : Environment
  users : Users
  channels : Channels
  messages : Messages
  request : PushRequest
  token : String
  draft : Draft

/-- The call of `SendMessage` by a synchronous push. -/
def Case.syncCall (given : Case) : Option SendCall :=
  (pushMessageHelper given.env given.users given.channels given.messages given.request
    (given.draft.message given.token false)).1.handed

/-- The call by a worker, once it takes the id that the asynchronous push put on the queue. -/
def Case.asyncCall (given : Case) : Option SendCall :=
  let pushed := (pushMessageHelper given.env given.users given.channels given.messages
    given.request (given.draft.message given.token true)).1
  pushed.queued.head?.bind fun id =>
    (asyncMessageCall given.users given.channels pushed.messages id).toOption

/-- A webhook request: the webhooks, the evaluation of their rules, and the link and body. -/
structure Trigger where
  webhooks : Webhooks
  render : Webhook → String → Except Response (Option RenderedRule)
  link : String
  body : String

/-- The call by a webhook trigger. -/
def Case.webhookCall (given : Case) (trigger : Trigger) : Option SendCall :=
  (triggerWebhook given.env given.users given.channels trigger.webhooks given.messages
    trigger.render trigger.link trigger.body).1.handed

/-- The trigger is admitted for the user, and its rule renders the same fields. -/
def Case.Renders (given : Case) (trigger : Trigger) (userId : Int) : Prop :=
  ∃ webhook user rule,
    webhookUser given.env given.users trigger.webhooks trigger.link = .ok (webhook, user) ∧
      user.id = userId ∧ trigger.render webhook trigger.body = .ok (some rule) ∧
      rule.message webhook = given.draft.message "" false

/-- What `processMessage` passes on for a draft. -/
def prepared (env : Environment) (draft : Draft) (user : User) (token : String) (async : Bool) :
    Message :=
  { addressed env (draft.message token async) user with
    content := renderedContent env (draft.message token async) }

/-- The token that a push of the case is checked with. -/
def Case.heldToken (given : Case) : String :=
  Controller.heldToken given.request (given.draft.message given.token false)

/-- What a synchronous push that reaches `SendMessage` has gone through. -/
structure Case.Admitted (given : Case) (call : SendCall) : Prop where
  noReadFault : given.env.faults.readUser = false
  noChannelFault : given.env.faults.readChannel = false
  member : call.user ∈ given.users.rows
  found : findUser given.env given.users given.request.username = .ok call.user
  exists_ : call.user.status ≠ userStatusNonExisted
  notDisabled : call.user.status ≠ userStatusDisabled
  route : getChannelByName given.channels
    (routeOf (given.draft.message given.heldToken false) call.user) call.user.id =
      .ok call.channel
  authorised : authMessage given.heldToken call.user.token call.channel.token = true
  enabled : call.channel.status = channelStatusEnabled
  /-- The message is stored, or marked as unsaved. -/
  saved : persists given.env call.user →
    insertAccepted given.env call.user
        (prepared given.env given.draft call.user given.heldToken false) given.messages ∧
      ∃ next row, given.messages.insert (unstored given.env call.user
          (prepared given.env given.draft call.user given.heldToken false)).toRow =
            some (next, row) ∧
        call.message = { unstored given.env call.user
          (prepared given.env given.draft call.user given.heldToken false) with id := row.id }
  unsaved : ¬ persists given.env call.user →
    call.message = { linkMessage given.env
      (prepared given.env given.draft call.user given.heldToken false) with link := "unsaved" }

/-- A message that is not stored is handed over at once. -/
theorem saveAndSendMessage_transient {env : Environment} {user : User} {message : Message}
    {channel : Model.Channel} {messages : Messages}
    (enabled : channel.status = channelStatusEnabled) (unstored : ¬ persists env user)
    (sync : message.async = false) :
    (saveAndSendMessage env user message channel messages).handed =
      some ⟨{ linkMessage env message with link := "unsaved" }, user, channel⟩ := by
  have syncLinked : (linkMessage env message).async = false := sync
  simp [saveAndSendMessage, enabled, unstored, syncLinked, sendNow]

theorem Case.admitted {given : Case} {call : SendCall} (sync : given.syncCall = some call) :
    given.Admitted call := by
  unfold Case.syncCall pushMessageHelper at sync
  split at sync
  · cases sync
  next user message pushed =>
  obtain ⟨found, exists_, notDisabled, rfl⟩ := pushUser_ok_iff.mp pushed
  unfold processMessage at sync
  split at sync
  · cases sync
  next message channel passed =>
  obtain ⟨noChannelFault, route, authorised, rfl⟩ := prepareMessage_ok_iff.mp passed
  obtain ⟨noReadFault, member⟩ := findUser_mem found exists_
  have isPrepared : ({ addressed given.env { given.draft.message given.token false with
        token := Controller.heldToken given.request (given.draft.message given.token false) } user with
      content := renderedContent given.env { given.draft.message given.token false with
        token := Controller.heldToken given.request (given.draft.message given.token false) } } :
      Message) = prepared given.env given.draft user given.heldToken false := rfl
  simp only [isPrepared] at sync
  have enabled : channel.status = channelStatusEnabled := by
    by_contra disabled
    simp [saveAndSendMessage, disabled] at sync
  by_cases stored : persists given.env user
  · by_cases accepted : insertAccepted given.env user
        (prepared given.env given.draft user given.heldToken false) given.messages
    · obtain ⟨next, row, success, inserted, -, -, handed⟩ :=
        saveAndSendMessage_accepted enabled stored accepted
      rw [handed] at sync
      obtain rfl : _ = call := Option.some.inj sync
      exact
        { noReadFault, noChannelFault, member, found, exists_, notDisabled, route, enabled
          authorised := authorised rfl
          saved := fun _ => ⟨accepted, next, row, inserted, rfl⟩
          unsaved := fun unstored => absurd stored unstored }
    · obtain ⟨-, -, handed⟩ := saveAndSendMessage_refused enabled stored accepted
      rw [handed] at sync
      cases sync
  · rw [saveAndSendMessage_transient enabled stored rfl] at sync
    obtain rfl : _ = call := Option.some.inj sync
    exact
      { noReadFault, noChannelFault, member, found, exists_, notDisabled, route, enabled
        authorised := authorised rfl
        saved := fun isStored => absurd isStored stored
        unsaved := fun _ => rfl }

/-- The status a queued row has: the deferred update may fail. -/
def queuedStatus (env : Environment) : Int :=
  if env.faults.updateStatus = none then messageSendStatusAsyncPending
  else messageSendStatusPending

/-- The queued row after the deferred function. -/
theorem rowAt_queued (env : Environment) (message : Message) {messages : Messages}
    {row : MessageRow} (there : messages.rowAt message.id = some row) (hasId : message.id ≠ 0)
    (pending : row.status = messageSendStatusPending) :
    (message.updateStatus messageSendStatusAsyncPending env.faults.updateStatus
      messages).1.rowAt message.id = some (row.setStatus (queuedStatus env)) := by
  unfold Message.updateStatus queuedStatus
  cases env.faults.updateStatus with
  | none => simp [hasId, there]
  | some text =>
      simp only [hasId, if_false, there, Option.some.injEq, reduceCtorEq, ← pending]
      rfl

/-- A name is looked up for a user with an id only. -/
theorem getChannelByName_userId {channels : Channels} {name : String} {userId : Int}
    {channel : Model.Channel} (found : getChannelByName channels name userId = .ok channel) :
    userId ≠ 0 := by
  rintro rfl
  simp [getChannelByName] at found

/-- A user that is in the table is loaded by its id without the columns left out. -/
theorem getUserById_brief {users : Users} {user : User} (member : user ∈ users.rows)
    (hasId : user.id ≠ 0) : getUserById users user.id false = .ok user.brief := by
  have there : users.rowAt user.id = some user := Table.rowAt_of_mem member
  simp [getUserById, hasId, there]

/-- Both kinds of push of the draft get to `saveAndSendMessage`. -/
theorem Case.pushed_eq {given : Case} {call : SendCall} (admitted : given.Admitted call)
    (async : Bool) :
    (pushMessageHelper given.env given.users given.channels given.messages given.request
      (given.draft.message given.token async)).1 =
      saveAndSendMessage given.env call.user
        (prepared given.env given.draft call.user given.heldToken async) call.channel
        given.messages := by
  have user : pushUser given.env given.users given.request (given.draft.message given.token async) =
      .ok (call.user, given.draft.message given.heldToken async) :=
    pushUser_ok_iff.mpr ⟨admitted.found, admitted.exists_, admitted.notDisabled, rfl⟩
  have passed : prepareMessage given.env given.channels (given.draft.message given.heldToken async)
      call.user true =
        .ok (prepared given.env given.draft call.user given.heldToken async, call.channel) :=
    prepareMessage_ok_iff.mpr
      ⟨admitted.noChannelFault, admitted.route, fun _ => admitted.authorised, rfl⟩
  simp only [pushMessageHelper, user, processMessage, passed]

/-- The worker is handed the stored message with the user loaded by its id. -/
theorem Case.asyncCall_eq {given : Case} {call : SendCall} (admitted : given.Admitted call)
    (stored : persists given.env call.user) :
    given.asyncCall = some
      ⟨({ status := queuedStatus given.env } : Transit).put call.message, call.user.brief,
        call.channel⟩ := by
  obtain ⟨accepted, next, row, inserted, sameMessage⟩ := admitted.saved stored
  -- The asynchronous push inserts the very same row.
  have acceptedAsync : insertAccepted given.env call.user
      (prepared given.env given.draft call.user given.heldToken true) given.messages := accepted
  obtain ⟨nextAsync, rowAsync, success, insertedAsync, table, queued, -⟩ :=
    saveAndSendMessage_accepted admitted.enabled stored acceptedAsync
  obtain ⟨rfl, rfl⟩ : nextAsync = next ∧ rowAsync = row := by
    have same := insertedAsync.symm.trans inserted
    simpa using same
  have userId := getChannelByName_userId admitted.route
  have fresh : rowAsync.id ≠ 0 := by
    have above : rowAsync.id = given.messages.counter + 1 := (Table.insert_id_of_unset inserted rfl).1
    have nonneg := given.messages.counterNonneg
    omega
  obtain ⟨-, isRow, -, -⟩ := Table.insert_spec inserted
  have there : nextAsync.rowAt rowAsync.id = some rowAsync := by
    simp [Table.rowAt_insert inserted]
  have loaded := rowAt_queued given.env
    { unstored given.env call.user
      (prepared given.env given.draft call.user given.heldToken true) with id := rowAsync.id }
    there fresh (by rw [isRow]; rfl)
  have isMessage : Message.ofRow (rowAsync.setStatus (queuedStatus given.env)) =
      ({ status := queuedStatus given.env } : Transit).put call.message := by
    rw [sameMessage, isRow]
    rfl
  have sameUserId : (({ status := queuedStatus given.env } : Transit).put call.message).userId =
      call.user.id := by
    rw [sameMessage]
    rfl
  have sameRoute : (({ status := queuedStatus given.env } : Transit).put call.message).channel =
      routeOf (given.draft.message given.heldToken false) call.user := by
    rw [sameMessage]
    rfl
  have sameId : call.user.brief.id = call.user.id := rfl
  unfold Case.asyncCall
  rw [Case.pushed_eq admitted true]
  have isAsync : (prepared given.env given.draft call.user given.heldToken true).async = true := rfl
  simp only [queued, table, isAsync, if_true, List.head?_cons, Option.bind_some, deferredStatus,
    asyncMessageCall, getMessageById, fresh, if_false, loaded, isMessage, asyncMessageSenderHelper,
    sameUserId, getUserById_brief admitted.member userId, sameRoute, sameId, admitted.route, bind,
    Except.bind, pure, Except.pure, Except.toOption]

/-- The trigger hands over the same message with the user loaded by its id. -/
theorem Case.webhookCall_eq {given : Case} {call : SendCall} (admitted : given.Admitted call)
    {trigger : Trigger} (renders : given.Renders trigger call.user.id) :
    given.webhookCall trigger = some
      ⟨({ status := call.message.status } : Transit).put call.message, call.user.brief,
        call.channel⟩ := by
  obtain ⟨webhook, user, rule, acts, sameId, rendered, sameDraft⟩ := renders
  obtain rfl : user = call.user.brief := by
    obtain ⟨-, row, there, rfl⟩ := getUserById_ok (webhookUser_ok acts).1
    have sameRow : row = call.user :=
      given.users.eq_of_id_eq (Table.rowAt_mem there) admitted.member sameId
    rw [sameRow]
  have passed : prepareMessage given.env given.channels (given.draft.message "" false)
      call.user.brief false =
        .ok (prepared given.env given.draft call.user.brief "" false, call.channel) :=
    prepareMessage_ok_iff.mpr
      ⟨admitted.noChannelFault, admitted.route, fun needed => by simp at needed, rfl⟩
  have handed : given.webhookCall trigger =
      (saveAndSendMessage given.env call.user.brief
        (prepared given.env given.draft call.user.brief "" false) call.channel
        given.messages).handed := by
    simp only [Case.webhookCall, triggerWebhook, acts, rendered, sameDraft, processMessage, passed]
  rw [handed]
  by_cases stored : persists given.env call.user
  · obtain ⟨accepted, next, row, inserted, sameMessage⟩ := admitted.saved stored
    have storedBrief : persists given.env call.user.brief := stored
    have acceptedBrief : insertAccepted given.env call.user.brief
        (prepared given.env given.draft call.user.brief "" false) given.messages := accepted
    obtain ⟨nextBrief, rowBrief, success, insertedBrief, -, -, handedBrief⟩ :=
      saveAndSendMessage_accepted admitted.enabled storedBrief acceptedBrief
    obtain ⟨rfl, rfl⟩ : nextBrief = next ∧ rowBrief = row := by
      have same := insertedBrief.symm.trans inserted
      simpa using same
    rw [handedBrief, sameMessage]
    rfl
  · have unstoredBrief : ¬ persists given.env call.user.brief := stored
    rw [saveAndSendMessage_transient admitted.enabled unstoredBrief rfl, admitted.unsaved stored]
    rfl

/-! ### When they agree -/

/-- `SendMessage` decides the same on two calls, as far as `view` shows frames. -/
def SameDecision (channels : Channels) (readings : Nat → Readings) (view : Message → Message)
    (left right : SendCall) : Prop :=
  (left.deliver lib transport channels readings).shown view =
    (right.deliver lib transport channels readings).shown view

/-- No mail of the delivery needs the permission column. -/
def NoPermissionNeeded (channels : Channels) (call : SendCall) : Prop :=
  ∀ member ∈ recipients lib channels call,
    ¬ needsPermission call.user member.channel member.target

/-- No frame of the delivery goes to a connected client. -/
def NoFrameSent (channels : Channels) (readings : Nat → Readings) (call : SendCall) : Prop :=
  ∀ i member, (recipients lib channels call)[i]? = some member →
    ¬ sendsFrame (readings i) call.user member.channel

/-- The asynchronous push makes a call with the same decision. -/
def Case.AsyncAgrees (given : Case) (readings : Nat → Readings) (view : Message → Message)
    (call : SendCall) : Prop :=
  ∃ other, given.asyncCall = some other ∧
    SameDecision lib transport given.channels readings view other call

/-- The webhook trigger makes a call with the same decision. -/
def Case.WebhookAgrees (given : Case) (readings : Nat → Readings) (view : Message → Message)
    (trigger : Trigger) (call : SendCall) : Prop :=
  ∃ other, given.webhookCall trigger = some other ∧
    SameDecision lib transport given.channels readings view other call

/-- A reloaded call is decided the same, as far as frames are documented, exactly when no
mail needs the permission column. -/
theorem sameDecision_documented_iff (channels : Channels) (readings : Nat → Readings)
    (transit : Transit) (call : SendCall) :
    SameDecision lib transport channels readings documentedFrame
        ⟨transit.put call.message, call.user.brief, call.channel⟩ call ↔
      NoPermissionNeeded lib channels call := by
  unfold SameDecision
  rw [deliver_brief_shown_iff lib transport documentedFrame True (transitOf call.message) transit
    (fun _ _ => by simp) channels readings call rfl]
  simp only [MemberAgrees, implies_true, and_true, NoPermissionNeeded, List.mem_iff_getElem?]
  constructor
  · rintro all member ⟨i, found⟩
    exact all i member found
  · intro all i member found
    exact all member ⟨i, found⟩

/-- The whole frames agree as well exactly when none is sent or its fields of transit are the
same. -/
theorem sameDecision_whole_iff (channels : Channels) (readings : Nat → Readings)
    (transit : Transit) (call : SendCall) :
    SameDecision lib transport channels readings id
        ⟨transit.put call.message, call.user.brief, call.channel⟩ call ↔
      NoPermissionNeeded lib channels call ∧
        (transit = transitOf call.message ∨ NoFrameSent lib channels readings call) := by
  unfold SameDecision
  rw [deliver_brief_shown_iff lib transport id (transit = transitOf call.message)
    (transitOf call.message) transit (fun message way => by simp [way]) channels readings call rfl]
  simp only [MemberAgrees, NoPermissionNeeded, NoFrameSent, List.mem_iff_getElem?]
  constructor
  · intro all
    refine ⟨fun member ⟨i, found⟩ => (all i member found).1, ?_⟩
    by_cases same : transit = transitOf call.message
    · exact .inl same
    · exact .inr fun i member found sends => same ((all i member found).2 sends)
  · rintro ⟨allowed, frames⟩ i member found
    refine ⟨allowed member ⟨i, found⟩, fun sends => ?_⟩
    rcases frames with same | silent
    · exact same
    · exact absurd sends (silent i member found)

/-- The fields of transit of a synchronous push. -/
theorem Case.Admitted.transitOf_message {given : Case} {call : SendCall}
    (admitted : given.Admitted call) :
    transitOf call.message =
      { token := given.heldToken
        status := if persists given.env call.user then messageSendStatusPending else 0 } := by
  by_cases stored : persists given.env call.user
  · obtain ⟨-, next, row, -, sameMessage⟩ := admitted.saved stored
    rw [sameMessage, if_pos stored]
    rfl
  · rw [admitted.unsaved stored, if_neg stored]
    rfl

/-- Wherever a synchronous push gets to `SendMessage`, so do the asynchronous push that is
stored and the trigger that renders the same fields; and they agree with it exactly when no
mail needs the permission column. Compared with all their fields, the frames of connected
clients tell a push with a token from a trigger, and a queued push from any other. -/
theorem paths_agree_iff (given : Case) (readings : Nat → Readings) (call : SendCall)
    (sync : given.syncCall = some call) :
    (persists given.env call.user →
      (given.AsyncAgrees lib transport readings documentedFrame call ↔
        NoPermissionNeeded lib given.channels call) ∧
      (given.AsyncAgrees lib transport readings id call ↔
        NoPermissionNeeded lib given.channels call ∧
          (given.heldToken = "" ∧ given.env.faults.updateStatus ≠ none ∨
            NoFrameSent lib given.channels readings call))) ∧
    ∀ trigger, given.Renders trigger call.user.id →
      (given.WebhookAgrees lib transport readings documentedFrame trigger call ↔
        NoPermissionNeeded lib given.channels call) ∧
      (given.WebhookAgrees lib transport readings id trigger call ↔
        NoPermissionNeeded lib given.channels call ∧
          (given.heldToken = "" ∨ NoFrameSent lib given.channels readings call)) := by
  have admitted := Case.admitted sync
  have way := admitted.transitOf_message
  constructor
  · intro stored
    have queued : ({ status := queuedStatus given.env } : Transit) = transitOf call.message ↔
        given.heldToken = "" ∧ given.env.faults.updateStatus ≠ none := by
      rw [way, if_pos stored]
      unfold queuedStatus
      cases given.env.faults.updateStatus with
      | none => simp [messageSendStatusAsyncPending, messageSendStatusPending]
      | some text =>
          constructor
          · intro same
            exact ⟨(congrArg Transit.token same).symm, by simp⟩
          · rintro ⟨blank, -⟩
            rw [blank]
            rfl
    simp only [Case.AsyncAgrees, Case.asyncCall_eq admitted stored, Option.some.injEq,
      exists_eq_left']
    rw [sameDecision_documented_iff, sameDecision_whole_iff, queued]
    exact ⟨Iff.rfl, Iff.rfl⟩
  · intro trigger renders
    have triggered : ({ status := call.message.status } : Transit) = transitOf call.message ↔
        given.heldToken = "" := by
      have sameStatus : call.message.status = (transitOf call.message).status := rfl
      rw [sameStatus, way]
      constructor
      · intro same
        exact (congrArg Transit.token same).symm
      · intro blank
        rw [blank]
    simp only [Case.WebhookAgrees, Case.webhookCall_eq admitted renders, Option.some.injEq,
      exists_eq_left']
    rw [sameDecision_documented_iff, sameDecision_whole_iff, triggered]
    exact ⟨Iff.rfl, Iff.rfl⟩

/-! A user who may mail others pushes a mail to someone else: at once it is sent, from the
queue it is refused. -/

def mailer : User :=
  { id := 2
    username := "bob"
    role := roleCommonUser
    status := userStatusEnabled
    email := "bob@example.com"
    sendEmailToOthers := sendEmailToOthersAllowed }

def mailChannel : Model.Channel :=
  { id := 1, type := typeEmail, userId := 2, name := "m", status := channelStatusEnabled }

def mailCase : Case where
  env := { uuid := "fresh" }
  users :=
    { rows := [mailer]
      counter := 2
      sorted := by decide
      unique := by decide
      counterNonneg := Store.Table.two_nonneg
      bounded := by decide }
  channels :=
    { rows := [mailChannel]
      counter := 1
      sorted := by decide
      unique := by decide
      counterNonneg := Int.one_nonneg
      bounded := by decide }
  messages := .empty
  request := { username := "bob" }
  token := ""
  draft := { title := "t", description := "d", channel := "m", to_ := "eve@example.com" }

/-- The call that the synchronous push makes. -/
def mailCall : SendCall where
  message :=
    { id := 1, userId := 2, title := "t", description := "d", channel := "m",
      to_ := "eve@example.com", url := "http://localhost:3000/message/fresh", link := "fresh",
      status := messageSendStatusPending }
  user := mailer
  channel := mailChannel

theorem asyncPush_refuses_permitted_mail :
    mailCase.syncCall = some mailCall ∧
      ¬ mailCase.AsyncAgrees plainLibrary (fun _ => none) (fun _ => plainReadings)
        documentedFrame mailCall := by
  refine ⟨by decide, ?_⟩
  rintro ⟨other, queued, same⟩
  have isOther : other = ⟨{ mailCall.message with status := messageSendStatusAsyncPending },
      mailer.brief, mailChannel⟩ := by
    have computed : mailCase.asyncCall =
        some ⟨{ mailCall.message with status := messageSendStatusAsyncPending }, mailer.brief,
          mailChannel⟩ := by decide
    rw [computed] at queued
    exact (Option.some.inj queued).symm
  subst isOther
  have decisions := congrArg (fun delivery => delivery.attempts.map Attempt.decision) same
  revert decisions
  decide

theorem paths_agree_iff_mail :
    mailCase.AsyncAgrees plainLibrary (fun _ => none) (fun _ => plainReadings)
        documentedFrame mailCall ↔
      NoPermissionNeeded plainLibrary mailCase.channels mailCall :=
  ((paths_agree_iff plainLibrary (fun _ => none) mailCase (fun _ => plainReadings) mailCall
    (by decide)).1 (by decide)).1

end MessagePusher.Delivery
