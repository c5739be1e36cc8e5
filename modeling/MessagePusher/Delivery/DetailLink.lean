import MessagePusher.Controller.Render
import MessagePusher.Controller.Resend
import MessagePusher.Controller.Webhook
import MessagePusher.Delivery.Disabled
import MessagePusher.Delivery.GroupProduct
import MessagePusher.Model.ExtraVariables
import MessagePusher.Semantics.Transition

/-!
# The generated URL of a message

`saveAndSendMessage` makes a URL from the new link of a message whose caller gave none. A
message that is not stored gets the link `unsaved` only afterwards, and a resend starts from a
row that has the URL of its first copy. Beside the table, a run keeps the UUIDs that `GetUUID`
answered and the links of the messages whose original caller gave no URL.
-/

namespace MessagePusher.Delivery

open Common Model Store Controller Semantics
open Channel (SendCall Library)

/-- The texts that `GetUUID` answers: a UUID without its hyphens. -/
def IsUuid (text : String) : Prop :=
  text.toList.length = 32 ∧ ∀ digit ∈ text.toList, digit ∈ "0123456789abcdef".toList

/-- The URL under which `RenderMessage` gets a link. -/
def detailURL (address link : String) : String := address ++ "/message/" ++ link

/-- The requests that end in `saveAndSendMessage`, with the tables that they read. -/
inductive Sending where
  | push (users : Users) (channels : Channels) (request : PushRequest)
  | trigger (users : Users) (channels : Channels) (webhooks : Webhooks)
      (render : Webhook → String → Except Response (Option RenderedRule)) (link body : String)
  | resend (failure : Option String) (users : Users) (channels : Channels) (userId : Int)
      (idParam : String)

namespace Sending

variable (env : Environment) (messages : Messages)

/-- What a handler does. -/
def outcome : Sending → Outcome
  | push users channels request => (pushMessage env users channels messages request).1
  | trigger users channels webhooks render link body =>
      (triggerWebhook env users channels webhooks messages render link body).1
  | resend failure users channels userId idParam =>
      (resendMessage env failure users channels messages userId idParam).1

/-- The arguments of the call of `saveAndSendMessage`, or the answer without one. -/
def admitted : Sending → Except Response (User × Message × Model.Channel)
  | push users channels request => admitPush env users channels request
  | trigger users channels webhooks render link body =>
      admitTrigger env users channels webhooks render link body
  | resend failure users channels userId idParam =>
      admitResend failure users channels messages userId idParam

/-- A message that was stored is sent again. -/
def isResend : Sending → Bool
  | resend .. => true
  | _ => false

/-- The request is admitted for a user whose messages are stored. -/
def Stored (sending : Sending) : Prop :=
  ∃ user message channel, sending.admitted env messages = .ok (user, message, channel) ∧
    persists env user

/-- All three handlers end in `saveAndSendMessage`, or without an effect. -/
theorem outcome_eq (sending : Sending) :
    sending.outcome env messages =
      match sending.admitted env messages with
      | .error _ => { messages }
      | .ok (user, message, channel) => saveAndSendMessage env user message channel messages := by
  cases sending with
  | push users channels request =>
      rw [outcome, admitted, pushMessage_eq]
      cases admitPush env users channels request with
      | error refusal => rfl
      | ok call => rfl
  | trigger users channels webhooks render link body =>
      rw [outcome, admitted, triggerWebhook_eq]
      cases admitTrigger env users channels webhooks render link body with
      | error refusal => rfl
      | ok call => rfl
  | resend failure users channels userId idParam => exact resendMessage_eq ..

end Sending

/-! ### Runs -/

/-- The table, the UUIDs answered so far and, of those, the ones given to messages whose
original caller supplied no URL. -/
structure LinkState where
  messages : Messages := .empty
  issued : List String := []
  generated : List String := []

/-- The original caller supplied no URL: the one of this request or, for a resend, the one of
the first copy. -/
def Sending.bare (env : Environment) (state : LinkState) (sending : Sending) : Bool :=
  match sending.admitted env state.messages with
  | .error _ => false
  | .ok (_, message, _) =>
      if sending.isResend then message.link ∈ state.generated else message.url = ""

/-- The state after a request. -/
def LinkState.after (state : LinkState) (env : Environment) (sending : Sending) : LinkState where
  messages := (sending.outcome env state.messages).messages
  issued := env.uuid :: state.issued
  generated := if sending.bare env state then env.uuid :: state.generated else state.generated

/-- A request that sends a message, or another write to the messages. -/
inductive LinkLabel where
  | send (env : Environment) (sending : Sending)
  | write (write : MessageWrite)

/-- A write other than the insertion in `saveAndSendMessage`. -/
def isOtherWrite : MessageWrite → Bool
  | .insert .. => false
  | _ => true

/-- Requests in any surroundings, each with a UUID that was never answered before, and
deletions and updates of the status in between. -/
inductive LinkStep (state : LinkState) : LinkLabel → LinkState → Prop where
  | send {env sending} (uuid : IsUuid env.uuid) (fresh : env.uuid ∉ state.issued) :
      LinkStep state (.send env sending) (state.after env sending)
  | write {write} (other : isOtherWrite write = true) :
      LinkStep state (.write write) { state with messages := write.run state.messages }

def linkSystem : System LinkState LinkLabel where
  Initial state := state = {}
  Step := LinkStep

/-! ### What is received and what it should say -/

/-- The messages of one request that reach `SendMessage`: at once, or from the queue for as
long as the row that the request inserted is not deleted. -/
inductive Received (before : Messages) (outcome : Outcome) : Message → Prop where
  | now {call} (handed : outcome.handed = some call) : Received before outcome call.message
  | later {id row message} (writes : List MessageWrite) (queued : id ∈ outcome.queued)
      (fresh : before.rowAt id = none) (stored : outcome.messages.rowAt id = some row)
      (kept : ∀ write ∈ writes, ¬ write.Deletes id)
      (loaded : getMessageById (writes.foldl MessageWrite.run outcome.messages) id =
        .ok message) : Received before outcome message

/-- The URL of a received message names the message itself. -/
structure NamesItself (lib : Library) (env : Environment) (before : Messages)
    (outcome : Outcome) (message : Message) : Prop where
  url : message.url = detailURL env.settings.serverAddress message.link
  /-- The link is that of the row the request inserted, or says that it inserted none. -/
  link : (∃ row, before.rowAt row.id = none ∧ outcome.messages.rowAt row.id = some row ∧
      row.link = message.link) ∨ (outcome.messages = before ∧ message.link = unsavedLink)
  /-- The page under the link shows the message until it is deleted, or the notice. -/
  page : ∀ (settings : Settings) (now : Int) (writes : List MessageWrite),
    settings.messageRenderEnabled = true → (∀ write ∈ writes, ¬ write.Deletes message.id) →
      renderMessage lib settings now (writes.foldl MessageWrite.run outcome.messages)
          message.link = .page (messagePage lib (Message.ofRow message.toRow)) ∨
        renderMessage lib settings now (writes.foldl MessageWrite.run outcome.messages)
          message.link = .page (unsavedNotice now)

/-! ### One call of `saveAndSendMessage` -/

section Call

variable {env : Environment} {user : User} {message received : Message} {channel : Model.Channel}
  {messages : Messages}

/-- The struct once the database gave it a key. -/
def insertedAs (env : Environment) (user : User) (message : Message) (key : Int) : Message :=
  { unstored env user message with id := key }

/-- The row that an accepted insertion leaves behind, up to its status, and the others. -/
theorem saveAndSendMessage_row (enabled : channel.status = channelStatusEnabled)
    (stored : persists env user) (accepted : insertAccepted env user message messages) :
    ∃ key status, messages.rowAt key = none ∧
      (saveAndSendMessage env user message channel messages).messages.rowAt key =
        some ((insertedAs env user message key).toRow.setStatus status) ∧
      (∀ other, other ≠ key →
        (saveAndSendMessage env user message channel messages).messages.rowAt other =
          messages.rowAt other) ∧
      (saveAndSendMessage env user message channel messages).queued =
        (if message.async then [key] else []) ∧
      (saveAndSendMessage env user message channel messages).handed =
        sendNow (insertedAs env user message key) user channel := by
  obtain ⟨next, row, success, inserted, table, queue, handed⟩ :=
    saveAndSendMessage_accepted enabled stored accepted
  have whole : row = (insertedAs env user message row.id).toRow := by
    obtain ⟨-, placed, -, -⟩ := Table.insert_spec inserted
    rw [placed]
    rfl
  have there : next.rowAt row.id = some row :=
    (Table.rowAt_insert inserted).trans (if_pos rfl)
  have fresh : messages.rowAt row.id = none := Table.insert_fresh inserted
  have others : ∀ other, other ≠ row.id →
      (saveAndSendMessage env user message channel messages).messages.rowAt other =
        messages.rowAt other := by
    intro other apart
    rw [table, rowAt_updateStatus_of_ne _ _ _ _ apart, Table.rowAt_insert inserted]
    exact if_neg apart
  rcases rowAt_updateStatus { unstored env user message with id := row.id }
      (deferredStatus message success) env.faults.updateStatus next row.id with
    same | ⟨-, -, written⟩
  · refine ⟨row.id, row.status, fresh, ?_, others, queue, handed⟩
    rw [table, same, there, ← whole]
    rfl
  · refine ⟨row.id, deferredStatus message success, fresh, ?_, others, queue, handed⟩
    rw [table, written, there, ← whole]
    rfl

/-- A row after the call is one of before or the message as it was inserted, up to the status. -/
theorem saveAndSendMessage_rowAt {key : Int} {row : MessageRow}
    (found : (saveAndSendMessage env user message channel messages).messages.rowAt key =
      some row) :
    (∃ old status, messages.rowAt key = some old ∧ row = old.setStatus status) ∨
      (messages.rowAt key = none ∧
        ∃ status, row = (insertedAs env user message key).toRow.setStatus status) := by
  by_cases off : channel.status ≠ channelStatusEnabled ∨ ¬ persists env user
  · rw [(saveAndSendMessage_unstored message messages off).1] at found
    exact .inl ⟨row, row.status, found, rfl⟩
  obtain ⟨enabled, stored⟩ : channel.status = channelStatusEnabled ∧ persists env user := by
    simpa using off
  by_cases accepted : insertAccepted env user message messages
  · obtain ⟨inserted, status, fresh, there, others, -, -⟩ :=
      saveAndSendMessage_row enabled stored accepted
    by_cases same : key = inserted
    · subst same
      rw [there] at found
      exact .inr ⟨fresh, status, (Option.some.inj found).symm⟩
    · rw [others key same] at found
      exact .inl ⟨row, row.status, found, rfl⟩
  · rw [(saveAndSendMessage_refused enabled stored accepted).1] at found
    rcases rowAt_updateStatus (unstored env user message) (deferredStatus message false)
        env.faults.updateStatus messages key with same | ⟨-, -, written⟩
    · exact .inl ⟨row, row.status, same ▸ found, rfl⟩
    · rw [written, Option.map_eq_some_iff] at found
      obtain ⟨old, there, rfl⟩ := found
      exact .inl ⟨old, _, there, rfl⟩

/-- A row that was not there before is the message as it was inserted, up to its status. -/
theorem saveAndSendMessage_fresh {key : Int} {row : MessageRow}
    (fresh : messages.rowAt key = none)
    (stored : (saveAndSendMessage env user message channel messages).messages.rowAt key =
      some row) :
    ∃ status, row = (insertedAs env user message key).toRow.setStatus status := by
  rcases saveAndSendMessage_rowAt stored with ⟨old, status, there, -⟩ | ⟨-, inserted⟩
  · rw [fresh] at there
    cases there
  · exact inserted

/-- What a request of a user whose messages are stored gives to a sender is the row that it
inserted, up to the status. -/
theorem received_stored (stored : persists env user)
    (got : Received messages (saveAndSendMessage env user message channel messages) received) :
    ∃ key first last, messages.rowAt key = none ∧
      (saveAndSendMessage env user message channel messages).messages.rowAt key =
        some ((insertedAs env user message key).toRow.setStatus first) ∧
      received.toRow = (insertedAs env user message key).toRow.setStatus last := by
  cases got with
  | @now call handed =>
      obtain ⟨enabled, -, accepts⟩ :=
        (handed_isSome_iff env user message channel messages).mp ⟨call, handed⟩
      obtain ⟨key, status, fresh, there, -, -, sent⟩ :=
        saveAndSendMessage_row enabled stored (accepts stored)
      rw [sent, sendNow] at handed
      split_ifs at handed
      cases handed
      exact ⟨key, status, _, fresh, there, rfl⟩
  | @later id row _ writes queued fresh present kept loaded =>
      obtain ⟨first, rfl⟩ := saveAndSendMessage_fresh fresh present
      obtain ⟨last, after⟩ := rowAt_writes writes present kept
      unfold getMessageById at loaded
      split_ifs at loaded
      rw [after] at loaded
      cases loaded
      exact ⟨id, first, last, fresh, present, rfl⟩

/-- What a request of a user whose messages are not stored gives to a sender. -/
theorem received_unstored (unstored : ¬ persists env user)
    (got : Received messages (saveAndSendMessage env user message channel messages) received) :
    received = { linkMessage env message with link := unsavedLink } := by
  have off : channel.status ≠ channelStatusEnabled ∨ ¬ persists env user := .inr unstored
  obtain ⟨-, queue⟩ := saveAndSendMessage_unstored message messages off
  cases got with
  | now now =>
      unfold saveAndSendMessage at now
      split_ifs at now
      · dsimp only at now
        split_ifs at now
        unfold sendNow at now
        split_ifs at now
        cases now
        rfl
  | later writes queued =>
      rw [queue] at queued
      cases queued

/-- A stored message without a URL of its own gets one that names it. -/
theorem namesItself_of_stored (lib : Library) (stored : persists env user)
    (uuid : IsUuid env.uuid) (bare : message.url = "")
    (got : Received messages (saveAndSendMessage env user message channel messages) received) :
    NamesItself lib env messages (saveAndSendMessage env user message channel messages)
      received := by
  obtain ⟨key, first, last, fresh, there, same⟩ := received_stored stored got
  have link : received.link = env.uuid := congrArg MessageRow.link same
  have number : received.id = key := congrArg MessageRow.id same
  have url : received.url = (linkMessage env message).url := congrArg MessageRow.url same
  have named : env.uuid ≠ "" := by
    intro blank
    have length := uuid.1
    rw [blank] at length
    exact absurd length (by decide)
  have saved : env.uuid ≠ unsavedLink := by
    intro unsaved
    have length := uuid.1
    rw [unsaved] at length
    exact absurd length (by decide)
  refine ⟨?_, .inl ⟨(insertedAs env user message key).toRow.setStatus first, fresh, there,
    link.symm⟩, ?_⟩
  · rw [url, link, linkMessage, if_pos bare]
    rfl
  · intro settings now writes enabled kept
    rw [number] at kept
    obtain ⟨status, after⟩ := rowAt_writes writes there kept
    have page := renderMessage_rowAt lib now enabled after named saved
    refine .inl ?_
    rw [link, same]
    exact page

end Call

/-! ### Generated URLs are told apart by their links -/

/-- The characters of a link to a message. -/
theorem toList_detailURL (address link : String) :
    (detailURL address link).toList = address.toList ++ "/message/".toList ++ link.toList := by
  rw [detailURL, String.toList_append, String.toList_append]

/-- A link to a message is not blank. -/
theorem detailURL_ne_empty (address link : String) : detailURL address link ≠ "" := by
  intro empty
  have length := congrArg String.length empty
  have slashes : ("/message/" : String).length = 9 := by decide
  have nothing : ("" : String).length = 0 := by decide
  rw [detailURL, String.length_append, String.length_append] at length
  omega

theorem detailURL_uuid_inj {left right first second : String} (uuid : IsUuid first)
    (other : IsUuid second) (same : detailURL left first = detailURL right second) :
    first = second := by
  have texts := congrArg String.toList same
  rw [toList_detailURL, toList_detailURL] at texts
  exact String.toList_inj.mp (List.append_inj' texts (uuid.1.trans other.1.symm)).2

/-- The link `unsaved` has letters that no UUID has. -/
theorem detailURL_ne_unsaved {left right link : String} (uuid : IsUuid link) :
    detailURL left link ≠ detailURL right unsavedLink := by
  intro same
  have texts := congrArg String.toList same
  rw [toList_detailURL, toList_detailURL] at texts
  have longer : unsavedLink.toList.length ≤ link.toList.length := by
    rw [uuid.1]
    decide
  have unsaved : unsavedLink.toList <:+ left.toList ++ "/message/".toList ++ link.toList := by
    rw [texts]
    exact List.suffix_append _ _
  have ends : unsavedLink.toList <:+ link.toList :=
    List.suffix_of_suffix_length_le unsaved (List.suffix_append _ _) longer
  have digit := uuid.2 'v' (ends.mem (by decide))
  exact absurd digit (by decide)

/-! ### Where the rows of a run come from -/

/-- A row is one of before, up to its status, or the one that the call inserted. -/
theorem saveAndSendMessage_rows {env : Environment} {user : User} {message : Message}
    {channel : Model.Channel} {messages : Messages} {row : MessageRow}
    (member : row ∈ (saveAndSendMessage env user message channel messages).messages.rows) :
    (∃ old ∈ messages.rows, row.link = old.link ∧ row.url = old.url) ∨
      (row.link = env.uuid ∧ row.url = (linkMessage env message).url) := by
  rcases saveAndSendMessage_rowAt (Table.rowAt_of_mem member) with
    ⟨old, status, there, same⟩ | ⟨-, status, same⟩
  · refine .inl ⟨old, Table.rowAt_mem there, ?_⟩
    rw [same]
    exact ⟨rfl, rfl⟩
  · rw [same]
    exact .inr ⟨rfl, rfl⟩

/-- Another write keeps the links and URLs of the rows that it keeps. -/
theorem otherWrite_rows {messages : Messages} {write : MessageWrite} {row : MessageRow}
    (other : isOtherWrite write = true) (member : row ∈ (write.run messages).rows) :
    ∃ old ∈ messages.rows, row.link = old.link ∧ row.url = old.url := by
  cases write with
  | insert message userId now failure => cases other
  | updateStatus message status failure =>
      have found := Table.rowAt_of_mem member
      generalize Record.id row = key at found
      rw [MessageWrite.run] at found
      rcases rowAt_updateStatus message status failure messages key with same | ⟨-, -, written⟩
      · exact ⟨row, Table.rowAt_mem (same ▸ found), rfl, rfl⟩
      · rw [written, Option.map_eq_some_iff] at found
        obtain ⟨old, there, rfl⟩ := found
        exact ⟨old, Table.rowAt_mem there, rfl, rfl⟩
  | delete id userId =>
      rw [MessageWrite.run, deleteMessageById] at member
      split at member
      · exact ⟨row, member, rfl, rfl⟩
      · exact ⟨row, (Table.mem_delete.mp member).1, rfl, rfl⟩
  | deleteAll => cases member

/-- Every link was answered by `GetUUID`, and the URL of a message whose original caller gave
none ends in such a link. -/
structure LinkInv (state : LinkState) : Prop where
  uuids : ∀ link ∈ state.issued, IsUuid link
  answered : ∀ link ∈ state.generated, link ∈ state.issued
  links : ∀ row ∈ state.messages.rows, row.link ∈ state.issued
  urls : ∀ row ∈ state.messages.rows, row.link ∈ state.generated →
    ∃ address, ∃ link ∈ state.issued, row.url = detailURL address link

/-- The URL that a message without one of its own is handed over with: the generated one, or
for a resend that of an earlier copy. -/
theorem Sending.bare_url {state : LinkState} (inv : LinkInv state) {env : Environment}
    {sending : Sending} (bare : sending.bare env state = true) {user : User} {message : Message}
    {channel : Model.Channel}
    (admitted : sending.admitted env state.messages = .ok (user, message, channel)) :
    (sending.isResend = false ∧ message.url = "") ∨
      (sending.isResend = true ∧ ∃ address, ∃ link ∈ state.issued,
        message.url = detailURL address link) := by
  rw [Sending.bare, admitted] at bare
  dsimp only at bare
  split_ifs at bare with again
  · refine .inr ⟨again, ?_⟩
    cases sending with
    | resend failure users channels userId idParam =>
        obtain ⟨⟨row, member, -, -, rfl⟩, -⟩ := admitResend_ok admitted
        exact inv.urls row member (of_decide_eq_true bare)
    | _ => cases again
  · exact .inl ⟨by simpa using again, by simpa using bare⟩

/-- A URL that was given stays. -/
theorem linkMessage_url_of_given {env : Environment} {message : Message}
    (given : message.url ≠ "") : (linkMessage env message).url = message.url :=
  if_neg given

/-- The rows after a request. -/
theorem Sending.outcome_rows {state : LinkState} (inv : LinkInv state) {env : Environment}
    {sending : Sending} {row : MessageRow}
    (member : row ∈ (sending.outcome env state.messages).messages.rows) :
    (∃ old ∈ state.messages.rows, row.link = old.link ∧ row.url = old.url) ∨
      (row.link = env.uuid ∧ (sending.bare env state = true →
        ∃ address, ∃ link ∈ env.uuid :: state.issued, row.url = detailURL address link)) := by
  rw [Sending.outcome_eq] at member
  split at member
  · exact .inl ⟨row, member, rfl, rfl⟩
  · next user message channel admitted =>
    rcases saveAndSendMessage_rows member with old | ⟨link, url⟩
    · exact .inl old
    · refine .inr ⟨link, fun bare => ?_⟩
      rcases Sending.bare_url inv bare admitted with ⟨-, blank⟩ | ⟨-, address, old, known, given⟩
      · refine ⟨env.settings.serverAddress, env.uuid, List.mem_cons_self, ?_⟩
        rw [url, linkMessage, if_pos blank]
        rfl
      · refine ⟨address, old, List.mem_cons_of_mem _ known, ?_⟩
        rw [url, linkMessage_url_of_given (given ▸ detailURL_ne_empty _ _), given]

theorem linkInv_initial : LinkInv {} where
  uuids := by simp
  answered := by simp
  links := by simp [Table.empty]
  urls := by simp [Table.empty]

/-- One step keeps the provenance of the rows. -/
theorem LinkInv.step {state next : LinkState} {label : LinkLabel} (inv : LinkInv state)
    (step : linkSystem.Step state label next) : LinkInv next := by
  cases step with
  | @send env sending uuid fresh =>
      have known : ∀ link ∈ state.issued, link ∈ env.uuid :: state.issued :=
        fun link => List.mem_cons_of_mem _
      refine ⟨List.forall_mem_cons.mpr ⟨uuid, inv.uuids⟩, ?_, ?_, ?_⟩
      · intro link generated
        simp only [LinkState.after] at generated ⊢
        split_ifs at generated
        · rcases List.mem_cons.mp generated with rfl | earlier
          · exact List.mem_cons_self
          · exact known link (inv.answered link earlier)
        · exact known link (inv.answered link generated)
      · intro row member
        rcases Sending.outcome_rows inv member with ⟨old, there, link, -⟩ | ⟨link, -⟩
        · exact known _ (link ▸ inv.links old there)
        · exact link ▸ List.mem_cons_self
      · intro row member generated
        simp only [LinkState.after] at generated ⊢
        rcases Sending.outcome_rows inv member with ⟨old, there, link, url⟩ | ⟨link, url⟩
        · -- The link of an old row is not the new UUID.
          have apart : row.link ≠ env.uuid := fun same =>
            fresh (same ▸ link ▸ inv.links old there)
          have earlier : old.link ∈ state.generated := by
            rw [← link]
            split_ifs at generated
            · exact (List.mem_cons.mp generated).resolve_left apart
            · exact generated
          obtain ⟨address, first, there, given⟩ := inv.urls old there earlier
          exact ⟨address, first, known first there, url.trans given⟩
        · by_cases bare : sending.bare env state = true
          · exact url bare
          · rw [if_neg bare, link] at generated
            exact absurd (inv.answered _ generated) fresh
  | @write write other =>
      refine ⟨inv.uuids, inv.answered, ?_, ?_⟩
      · intro row member
        obtain ⟨old, there, link, -⟩ := otherWrite_rows other member
        exact link ▸ inv.links old there
      · intro row member generated
        obtain ⟨old, there, link, url⟩ := otherWrite_rows other member
        obtain ⟨address, first, known, given⟩ := inv.urls old there (link ▸ generated)
        exact ⟨address, first, known, url.trans given⟩

theorem linkInv_reachable {state : LinkState} (reachable : linkSystem.Reachable state) :
    LinkInv state :=
  reachable.invariant (fun initial => initial ▸ linkInv_initial) fun inv step => inv.step step

/-- In any run, a message whose original caller supplied no URL reaches its sender with a URL
that names it exactly when it is no resend and is stored. -/
theorem received_namesItself_iff (lib : Library) {state : LinkState}
    (reachable : linkSystem.Reachable state) {env : Environment} {sending : Sending}
    (uuid : IsUuid env.uuid) (fresh : env.uuid ∉ state.issued)
    (bare : sending.bare env state = true) {message : Message}
    (received : Received state.messages (sending.outcome env state.messages) message) :
    NamesItself lib env state.messages (sending.outcome env state.messages) message ↔
      sending.isResend = false ∧ sending.Stored env state.messages := by
  have inv := linkInv_reachable reachable
  cases admitted : sending.admitted env state.messages with
  | error refusal =>
      rw [Sending.bare, admitted] at bare
      cases bare
  | ok call =>
      obtain ⟨user, given, channel⟩ := call
      have outcome : sending.outcome env state.messages =
          saveAndSendMessage env user given channel state.messages := by
        rw [Sending.outcome_eq, admitted]
      have decided : sending.Stored env state.messages ↔ persists env user := by
        simp [Sending.Stored, admitted]
      rw [outcome] at received ⊢
      rw [decided]
      rcases Sending.bare_url inv bare admitted with
        ⟨first, blank⟩ | ⟨again, address, old, known, url⟩
      · by_cases stored : persists env user
        · exact iff_of_true (namesItself_of_stored lib stored uuid blank received) ⟨first, stored⟩
        · refine iff_of_false (fun names => ?_) fun both => stored both.2
          -- The URL was made before the link became `unsaved`.
          obtain rfl := received_unstored stored received
          have same := names.url
          dsimp only at same
          rw [linkMessage, if_pos blank] at same
          exact detailURL_ne_unsaved uuid same
      · refine iff_of_false (fun names => ?_) fun both => by simp [again] at both
        have kept : (linkMessage env given).url = detailURL address old := by
          rw [linkMessage_url_of_given (url ▸ detailURL_ne_empty _ _), url]
        have same := names.url
        by_cases stored : persists env user
        · obtain ⟨key, first, last, -, -, row⟩ := received_stored stored received
          have link : message.link = env.uuid := congrArg MessageRow.link row
          have sent : message.url = (linkMessage env given).url := congrArg MessageRow.url row
          rw [link, sent, kept] at same
          exact fresh (detailURL_uuid_inj (inv.uuids old known) uuid same ▸ known)
        · obtain rfl := received_unstored stored received
          dsimp only at same
          rw [kept] at same
          exact detailURL_ne_unsaved (inv.uuids old known) same

/-! A push without a URL, stored and not stored. -/

/-- A text of the shape of a UUID without dashes. -/
def firstUuid : String := "0123456789abcdef0123456789abcdef"

theorem firstUuid_isUuid : IsUuid firstUuid := by
  have digits : (firstUuid.toList.all fun digit => "0123456789abcdef".toList.contains digit) =
      true := by decide
  exact ⟨by decide, fun digit member =>
    List.contains_iff_mem.mp (List.all_eq_true.mp digits digit member)⟩

/-- `POST /push/bob` with the body `{"channel": "c"}`. -/
def bareRequest : PushRequest where
  username := "bob"
  body := some (.object [("channel", .string "c")])

/-- A common user. -/
def bob : User :=
  { id := 2, username := "bob", role := roleCommonUser, status := userStatusEnabled }

/-- A channel of that user that sends nothing. -/
def bobChannel : Model.Channel :=
  { id := 1, type := typeNone, userId := 2, name := "c", status := channelStatusEnabled }

/-- A push without a URL. -/
def bareSending : Sending := .push forgerUsers forgerChannels bareRequest

/-- The message that the sender gets when nothing is stored. -/
def unsavedMessage : Message where
  title := "消息推送服务"
  channel := "c"
  url := "http://localhost:3000/message/0123456789abcdef0123456789abcdef"
  link := "unsaved"

/-- The environment of the push when the administrator disabled persistence. -/
def unsavingEnvironment : Environment where
  settings := { messagePersistenceEnabled := false }
  uuid := firstUuid

/-- The link of a message that is not stored leads to none. -/
theorem push_unsaved_url_names_no_message :
    linkSystem.Reachable {} ∧ bareSending.bare unsavingEnvironment {} = true ∧
      Received .empty (bareSending.outcome unsavingEnvironment .empty) unsavedMessage ∧
      ¬ NamesItself plainLibrary unsavingEnvironment .empty
        (bareSending.outcome unsavingEnvironment .empty) unsavedMessage := by
  have handed : (bareSending.outcome unsavingEnvironment .empty).handed =
      some ⟨unsavedMessage, bob, bobChannel⟩ := by decide
  refine ⟨.initial rfl, by decide, .now handed, fun names => ?_⟩
  have url := congrArg String.toList names.url
  exact absurd url (by decide)

/-- The message that the sender gets when it is stored. -/
def savedMessage : Message where
  id := 1
  userId := 2
  title := "消息推送服务"
  channel := "c"
  url := "http://localhost:3000/message/0123456789abcdef0123456789abcdef"
  link := firstUuid
  status := messageSendStatusPending

theorem received_namesItself_iff_saved :
    NamesItself plainLibrary { uuid := firstUuid } .empty
        (bareSending.outcome { uuid := firstUuid } .empty) savedMessage ↔
      bareSending.isResend = false ∧ bareSending.Stored { uuid := firstUuid } .empty := by
  have handed : (bareSending.outcome { uuid := firstUuid } .empty).handed =
      some ⟨savedMessage, bob, bobChannel⟩ := by decide
  exact @received_namesItself_iff plainLibrary {} (.initial rfl) { uuid := firstUuid } bareSending
    firstUuid_isUuid (by simp) (by decide) savedMessage (.now handed)

end MessagePusher.Delivery
