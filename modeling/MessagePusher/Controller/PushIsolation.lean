import MessagePusher.Controller.Push

/-!
# What a push may touch

A push is isolated when it keeps every stored message and queues only a row it
inserted itself. The deferred status update and the enqueueing run with the id
of the request body when the insertion fails, so isolation depends on whether
the insertion goes through; `harmless` is the exact condition.
-/

namespace MessagePusher.Controller

open Common Model Store

/-- Every row of `before` is in `after`, with all its columns. -/
def RowsKept (before after : Messages) : Prop :=
  ∀ key row, before.rowAt key = some row → after.rowAt key = some row

/-- Every queued id is that of a row of the user which was not there before. -/
def QueuesOwnInsert (before after : Messages) (queued : List Int) (userId : Int) : Prop :=
  ∀ id ∈ queued, before.rowAt id = none ∧
    ∃ row, after.rowAt id = some row ∧ row.userId = userId

/-- The struct that `saveAndSendMessage` asks the database to create a row from. -/
def unstored (env : Environment) (user : User) (message : Message) : Message :=
  (linkMessage env message).stamped user.id env.now

/-- The database executes the insertion, the id of the body is free and so is the link. -/
def insertAccepted (env : Environment) (user : User) (message : Message)
    (messages : Messages) : Prop :=
  env.faults.insert = none ∧ messages.Insertable (unstored env user message).toRow

/-- The deferred function of a failed insertion has nothing to change: the message is not
queued and its id names no row whose status the update would alter. -/
def harmlessFailure (env : Environment) (message : Message) (messages : Messages) : Prop :=
  message.async = false ∧
    (message.id = 0 ∨ env.faults.updateStatus ≠ none ∨
      ∀ row, messages.rowAt message.id = some row → row.status = messageSendStatusFailed)

/-- The condition under which a call of `saveAndSendMessage` is isolated. -/
def harmless (env : Environment) (user : User) (message : Message) (channel : Channel)
    (messages : Messages) : Prop :=
  channel.status ≠ channelStatusEnabled ∨ ¬ persists env user ∨
    insertAccepted env user message messages ∨ harmlessFailure env message messages

theorem RowsKept.refl (messages : Messages) : RowsKept messages messages :=
  fun _ _ found => found

@[simp]
theorem unstored_id (env : Environment) (user : User) (message : Message) :
    (unstored env user message).id = message.id := rfl

/-- An accepted insertion puts the row in the table and its key into the struct. -/
theorem updateAndInsert_accepted {env : Environment} {user : User} {message : Message}
    {messages : Messages} (accepted : insertAccepted env user message messages) :
    ∃ next row, messages.insert (unstored env user message).toRow = some (next, row) ∧
      (linkMessage env message).updateAndInsert user.id env.now env.faults.insert messages =
        ({ unstored env user message with id := row.id }, next, none) := by
  obtain ⟨noFault, insertable⟩ := accepted
  cases inserted : messages.insert (unstored env user message).toRow with
  | none => exact absurd insertable (Table.insert_eq_none_iff.mp inserted)
  | some pair =>
      obtain ⟨next, row⟩ := pair
      refine ⟨next, row, rfl, ?_⟩
      rw [unstored] at inserted
      simp [Message.updateAndInsert, noFault, inserted, unstored]

/-- A refused insertion leaves the table alone and keeps the id of the body. -/
theorem updateAndInsert_refused {env : Environment} {user : User} {message : Message}
    {messages : Messages} (refused : ¬ insertAccepted env user message messages) :
    ∃ text, (linkMessage env message).updateAndInsert user.id env.now env.faults.insert
      messages = (unstored env user message, messages, some text) := by
  cases fault : env.faults.insert with
  | some text => exact ⟨text, by simp [Message.updateAndInsert, unstored]⟩
  | none =>
      have notInsertable : ¬ messages.Insertable (unstored env user message).toRow :=
        fun insertable => refused ⟨fault, insertable⟩
      have inserted := Table.insert_eq_none_iff.mpr notInsertable
      rw [unstored] at inserted
      exact ⟨uniqueViolation, by simp [Message.updateAndInsert, inserted, unstored]⟩

/-- A channel that is not enabled, or a user whose messages are not stored, leaves the
table and the queue alone. -/
theorem saveAndSendMessage_unstored {env : Environment} {user : User} {channel : Channel}
    (message : Message) (messages : Messages)
    (off : channel.status ≠ channelStatusEnabled ∨ ¬ persists env user) :
    (saveAndSendMessage env user message channel messages).messages = messages ∧
      (saveAndSendMessage env user message channel messages).queued = [] := by
  unfold saveAndSendMessage
  split_ifs with disabled stored
  · exact ⟨rfl, rfl⟩
  · exact absurd off (by simp [disabled, stored])
  · dsimp only
    split_ifs <;> exact ⟨rfl, rfl⟩

/-- After a refused insertion the deferred function still runs. -/
theorem saveAndSendMessage_refused {env : Environment} {user : User} {message : Message}
    {channel : Channel} {messages : Messages} (enabled : channel.status = channelStatusEnabled)
    (stored : persists env user) (refused : ¬ insertAccepted env user message messages) :
    (saveAndSendMessage env user message channel messages).messages =
        ((unstored env user message).updateStatus (deferredStatus message false)
          env.faults.updateStatus messages).1 ∧
      (saveAndSendMessage env user message channel messages).queued =
        (if message.async then [message.id] else []) ∧
      (saveAndSendMessage env user message channel messages).handed = none := by
  obtain ⟨text, inserted⟩ := updateAndInsert_refused refused
  unfold saveAndSendMessage
  simp only [enabled, ne_eq, not_true_eq_false, if_false, stored, if_true, inserted, deferred]
  exact ⟨rfl, rfl, trivial⟩

/-- After an accepted insertion the deferred function works on the inserted row. -/
theorem saveAndSendMessage_accepted {env : Environment} {user : User} {message : Message}
    {channel : Channel} {messages : Messages} (enabled : channel.status = channelStatusEnabled)
    (stored : persists env user) (accepted : insertAccepted env user message messages) :
    ∃ next row success, messages.insert (unstored env user message).toRow = some (next, row) ∧
      (saveAndSendMessage env user message channel messages).messages =
        (({ unstored env user message with id := row.id } : Message).updateStatus
          (deferredStatus message success) env.faults.updateStatus next).1 ∧
      (saveAndSendMessage env user message channel messages).queued =
        (if message.async then [row.id] else []) ∧
      (saveAndSendMessage env user message channel messages).handed =
        sendNow { unstored env user message with id := row.id } user channel := by
  obtain ⟨next, row, inserted, updated⟩ := updateAndInsert_accepted accepted
  refine ⟨next, row, ((sendNow { unstored env user message with id := row.id } user
    channel).bind env.send).isNone, inserted, ?_⟩
  unfold saveAndSendMessage
  simp only [enabled, ne_eq, not_true_eq_false, if_false, stored, if_true, updated, deferred]
  exact ⟨rfl, rfl, trivial⟩

/-- A status update keeps every row exactly when it is refused, fails, or writes what the
row already has. -/
theorem updateStatus_keeps_iff (message : Message) (status : Int) (failure : Option String)
    (messages : Messages) :
    RowsKept messages (message.updateStatus status failure messages).1 ↔
      message.id = 0 ∨ failure ≠ none ∨
        ∀ row, messages.rowAt message.id = some row → row.status = status := by
  unfold Message.updateStatus
  split_ifs with unset
  · simp [unset, RowsKept.refl]
  · cases failure with
    | some text => simp [RowsKept.refl]
    | none =>
        simp only [unset, ne_eq, not_true_eq_false, false_or]
        constructor
        · intro kept row found
          have after := kept message.id row found
          simp only [rowAt_setStatus, if_true, found, Option.map_some, Option.some.injEq] at after
          exact (congrArg MessageRow.status after).symm
        · intro same key row found
          rw [rowAt_setStatus]
          split_ifs with here
          · subst here
            have already := same row found
            rw [found, Option.map_some, MessageRow.setStatus, ← already]
          · exact found

/-- An accepted insertion keeps every row. -/
theorem insert_keeps {messages next : Messages} {row stored : MessageRow}
    (inserted : messages.insert row = some (next, stored)) : RowsKept messages next := by
  intro key other found
  rw [Table.rowAt_insert inserted]
  split_ifs with same
  · have fresh := Table.insert_fresh inserted
    rw [← same, found] at fresh
    cases fresh
  · exact found

/-- `saveAndSendMessage` keeps the table and queues its own row exactly when it is harmless. -/
theorem saveAndSendMessage_isolated_iff (env : Environment) (user : User) (message : Message)
    (channel : Channel) (messages : Messages) :
    (RowsKept messages (saveAndSendMessage env user message channel messages).messages ∧
      QueuesOwnInsert messages (saveAndSendMessage env user message channel messages).messages
        (saveAndSendMessage env user message channel messages).queued user.id) ↔
      harmless env user message channel messages := by
  by_cases off : channel.status ≠ channelStatusEnabled ∨ ¬ persists env user
  · obtain ⟨table, queue⟩ := saveAndSendMessage_unstored message messages off
    have trivially : harmless env user message channel messages := by
      rcases off with disabled | unsaved
      · exact .inl disabled
      · exact .inr (.inl unsaved)
    simp [table, queue, trivially, RowsKept.refl, QueuesOwnInsert]
  obtain ⟨enabled, stored⟩ : channel.status = channelStatusEnabled ∧ persists env user := by
    simpa using off
  by_cases accepted : insertAccepted env user message messages
  · have holds : harmless env user message channel messages := .inr (.inr (.inl accepted))
    simp only [holds, iff_true]
    obtain ⟨next, row, success, inserted, table, queue, -⟩ :=
      saveAndSendMessage_accepted enabled stored accepted
    have fresh : messages.rowAt row.id = none := Table.insert_fresh inserted
    rw [table, queue]
    constructor
    · intro key other found
      have different : key ≠ row.id := by
        rintro rfl
        simp [fresh] at found
      rw [rowAt_updateStatus_of_ne _ _ _ _ different]
      exact insert_keeps inserted key other found
    · intro id queued
      have same : id = row.id := by
        split_ifs at queued
        · simpa using queued
        · simp at queued
      subst same
      refine ⟨fresh, ?_⟩
      have there : next.rowAt row.id = some row := by simp [Table.rowAt_insert inserted]
      obtain ⟨after, found, owner⟩ := rowAt_updateStatus_userId
        { unstored env user message with id := row.id } (deferredStatus message success)
        env.faults.updateStatus next there
      refine ⟨after, found, owner.trans ?_⟩
      obtain ⟨-, rfl, -, -⟩ := Table.insert_spec inserted
      rfl
  · obtain ⟨table, queue, -⟩ := saveAndSendMessage_refused enabled stored accepted
    have reduced : harmless env user message channel messages ↔
        harmlessFailure env message messages := by
      simp [harmless, enabled, stored, accepted]
    rw [reduced, table, queue, harmlessFailure, updateStatus_keeps_iff, unstored_id]
    cases sync : message.async with
    | true =>
        -- The id of the body goes on the queue, and no row appears under it.
        simp only [Bool.true_eq_false, false_and, iff_false, not_and, if_true]
        intro _ own
        obtain ⟨absent, row, found, -⟩ := own message.id (by simp)
        have absentAfter : ((unstored env user message).updateStatus
            (deferredStatus message false) env.faults.updateStatus messages).1.rowAt
              message.id = none := by
          unfold Message.updateStatus
          split_ifs
          · exact absent
          · cases env.faults.updateStatus with
            | some text => exact absent
            | none => simp [absent]
        rw [absentAfter] at found
        cases found
    | false =>
        have failed : deferredStatus message false = messageSendStatusFailed := by
          simp [deferredStatus, sync]
        rw [failed]
        simp [QueuesOwnInsert]

/-- The user a push request is authorised for. -/
def AuthorisedFor (env : Environment) (users : Users) (channels : Channels)
    (request : PushRequest) (user : User) : Prop :=
  ∃ message channel, admitPush env users channels request = .ok (user, message, channel)

/-- A push keeps every stored message, and what it queues is a row it inserted for the user
it is authorised for. -/
def PushIsolated (env : Environment) (users : Users) (channels : Channels) (messages : Messages)
    (request : PushRequest) : Prop :=
  let outcome := (pushMessage env users channels messages request).1
  RowsKept messages outcome.messages ∧
    ∀ id ∈ outcome.queued, messages.rowAt id = none ∧
      ∃ user, AuthorisedFor env users channels request user ∧
        ∃ row, outcome.messages.rowAt id = some row ∧ row.userId = user.id

/-- A push is isolated exactly when the call of `saveAndSendMessage` it makes, if any, is
harmless. -/
theorem pushMessage_isolated_iff (env : Environment) (users : Users) (channels : Channels)
    (messages : Messages) (request : PushRequest) :
    PushIsolated env users channels messages request ↔
      ∀ user message channel, admitPush env users channels request = .ok (user, message, channel) →
        harmless env user message channel messages := by
  unfold PushIsolated
  rw [pushMessage_eq]
  cases admitted : admitPush env users channels request with
  | error refusal => simp [RowsKept.refl]
  | ok call =>
      obtain ⟨user, message, channel⟩ := call
      have only : ∀ other, AuthorisedFor env users channels request other ↔ other = user := by
        intro other
        simp [AuthorisedFor, admitted, eq_comm]
      simp only [only, exists_eq_left, Except.ok.injEq, Prod.mk.injEq]
      have isolated := saveAndSendMessage_isolated_iff env user message channel messages
      constructor
      · rintro holds _ _ _ ⟨rfl, rfl, rfl⟩
        exact isolated.mp holds
      · intro safe
        exact isolated.mpr (safe user message channel ⟨rfl, rfl, rfl⟩)

/-! A forged `id`: the row of user 1 is marked failed by a push to user 2's own channel. -/

/-- A delivered message of user 1. -/
def victimRow : MessageRow where
  id := 1
  userId := 1
  title := "t"
  description := ""
  content := ""
  url := "u"
  channel := "c"
  timestamp := 0
  link := "l"
  to_ := ""
  status := messageSendStatusSent
  renderMode := ""
  msgType := ""
  extra := ""

def victimMessages : Messages where
  rows := [victimRow]
  counter := 1
  sorted := by decide
  unique := by decide
  counterNonneg := Int.one_nonneg
  bounded := by decide

def forgerUsers : Users where
  rows := [{ id := 2, username := "bob", role := roleCommonUser, status := userStatusEnabled }]
  counter := 2
  sorted := by decide
  unique := by decide
  counterNonneg := Store.Table.two_nonneg
  bounded := by decide

def forgerChannels : Channels where
  rows := [{ id := 1, type := typeNone, userId := 2, name := "c", status := channelStatusEnabled }]
  counter := 1
  sorted := by decide
  unique := by decide
  counterNonneg := Int.one_nonneg
  bounded := by decide

/-- `POST /push/bob` with the body `{"id": 1, "channel": "c"}`. -/
def forgedRequest : PushRequest where
  username := "bob"
  body := some (.object [("id", .number "1"), ("channel", .string "c")])

/-- The insertion fails on the taken key, and the deferred update hits the foreign row. -/
theorem pushMessage_alters_foreign_row :
    ¬ PushIsolated { uuid := "fresh" } forgerUsers forgerChannels victimMessages forgedRequest := by
  rintro ⟨kept, -⟩
  have unchanged := kept 1 victimRow rfl
  have altered : (pushMessage { uuid := "fresh" } forgerUsers forgerChannels victimMessages
      forgedRequest).1.messages.rowAt 1 =
        some { victimRow with status := messageSendStatusFailed } := by decide
  rw [unchanged] at altered
  exact absurd altered (by decide)

end MessagePusher.Controller
