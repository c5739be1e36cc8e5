import MessagePusher.Controller.PushIsolation

/-!
# The status of a message after one call

`saveAndSendMessage` inserts, sends and updates the status, and each step may fail. The
deferred function queues an asynchronous message on every exit path, so an id without a
pending row is queued exactly when the insertion or the update of an asynchronous message
fails.
-/

namespace MessagePusher.Delivery

open Common Model Store Controller
open Channel (SendCall)

/-- The status that a message sent at once ends in. -/
def sentStatus (sendError : Option String) : Int :=
  if sendError = none then messageSendStatusSent else messageSendStatusFailed

/-- What rows, queue and answer of one call owe to each other. -/
structure StatusKept (env : Environment) (user : User) (message : Message)
    (channel : Model.Channel) (messages : Messages) (outcome : Outcome) : Prop where
  /-- A failed insertion has no effect. -/
  refused : ¬ insertAccepted env user message messages →
    outcome.messages = messages ∧ outcome.queued = []
  /-- The new row of a message sent at once says how the sending ended. -/
  sent : insertAccepted env user message messages → channel.status = channelStatusEnabled →
    message.async = false → env.faults.updateStatus = none →
      ∃ call row, outcome.handed = some call ∧ messages.rowAt row.id = none ∧
        outcome.messages.rowAt row.id = some row ∧ row.status = sentStatus (env.send call)
  /-- A queued id is that of a pending row. -/
  queued : ∀ id ∈ outcome.queued, ∃ row, outcome.messages.rowAt id = some row ∧
    row.status = messageSendStatusAsyncPending

/-- The deferred function of an asynchronous message queues what it should. -/
def queuesPending (env : Environment) (user : User) (message : Message)
    (channel : Model.Channel) (messages : Messages) : Prop :=
  channel.status ≠ channelStatusEnabled ∨ message.async = false ∨
    (insertAccepted env user message messages ∧ env.faults.updateStatus = none)

variable {env : Environment} {user : User} {message : Message} {channel : Model.Channel}
  {messages : Messages}

/-- A row after an update of its status, which may have failed. -/
theorem rowAt_updateStatus_eq (inserted : Message) {next : Messages} {row : MessageRow}
    (found : next.rowAt row.id = some row) (identified : row.id ≠ 0) (same : inserted.id = row.id)
    (status : Int) (failure : Option String) :
    (inserted.updateStatus status failure next).1.rowAt row.id =
      some (if failure = none then row.setStatus status else row) := by
  cases failure with
  | none =>
      rw [← same, rowAt_updateStatus_self inserted status next (same ▸ identified), same, found]
      rfl
  | some text => simp [Message.updateStatus, same, identified, found]

/-- An accepted insertion leaves a new row behind, whose status the deferred function writes
unless the update fails. -/
theorem saveAndSendMessage_writes (enabled : channel.status = channelStatusEnabled)
    (stored : persists env user) (accepted : insertAccepted env user message messages)
    (unset : message.id = 0) :
    ∃ (row : MessageRow) (sent : Message), messages.rowAt row.id = none ∧
      row.status = messageSendStatusPending ∧ sent.async = message.async ∧
      (saveAndSendMessage env user message channel messages).handed = sendNow sent user channel ∧
      (saveAndSendMessage env user message channel messages).queued =
        (if message.async then [row.id] else []) ∧
      (saveAndSendMessage env user message channel messages).messages.rowAt row.id =
        some (if env.faults.updateStatus = none then
          row.setStatus (deferredStatus message ((sendNow sent user channel).bind env.send).isNone)
          else row) := by
  obtain ⟨next, row, inserted, updated⟩ := updateAndInsert_accepted accepted
  have blank : (unstored env user message).toRow.id = 0 := unset
  have key : row.id = messages.counter + 1 := (Table.insert_id_of_unset inserted blank).1
  have positive := messages.counterNonneg
  have there : next.rowAt row.id = some row := by simp [Table.rowAt_insert inserted]
  have pending : row.status = messageSendStatusPending := by
    obtain ⟨-, rfl, -, -⟩ := Table.insert_spec inserted
    rfl
  have written := rowAt_updateStatus_eq { unstored env user message with id := row.id } there
    (by omega) rfl
  refine ⟨row, { unstored env user message with id := row.id }, Table.insert_fresh inserted,
    pending, rfl, ?_⟩
  unfold saveAndSendMessage
  simp only [enabled, ne_eq, not_true_eq_false, if_false, stored, if_true, updated, deferred]
  exact ⟨trivial, rfl, written _ _⟩

/-- A refused insertion of a message without an id leaves the table alone, and still queues an
asynchronous message. -/
theorem saveAndSendMessage_refused_keeps (enabled : channel.status = channelStatusEnabled)
    (stored : persists env user) (refused : ¬ insertAccepted env user message messages)
    (unset : message.id = 0) :
    (saveAndSendMessage env user message channel messages).messages = messages ∧
      (saveAndSendMessage env user message channel messages).queued =
        if message.async then [0] else [] := by
  obtain ⟨table, queue, -⟩ := saveAndSendMessage_refused enabled stored refused
  refine ⟨?_, ?_⟩
  · rw [table]
    simp [Message.updateStatus, unset]
  · rw [queue, unset]

/-- A message that is sent at once always keeps the laws. -/
theorem statusKept_of_sync (enabled : channel.status = channelStatusEnabled)
    (stored : persists env user) (unset : message.id = 0) (sync : message.async = false) :
    StatusKept env user message channel messages
      (saveAndSendMessage env user message channel messages) := by
  by_cases accepted : insertAccepted env user message messages
  · obtain ⟨row, sent, fresh, -, way, handed, queue, written⟩ :=
      saveAndSendMessage_writes enabled stored accepted unset
    have now : sendNow sent user channel = some ⟨sent, user, channel⟩ := by
      simp [sendNow, way, sync]
    refine ⟨fun refused => absurd accepted refused, fun _ _ _ working => ?_, ?_⟩
    · rw [if_pos working, now] at written
      refine ⟨⟨sent, user, channel⟩,
        row.setStatus (deferredStatus message (env.send ⟨sent, user, channel⟩).isNone),
        handed.trans now, fresh, written, ?_⟩
      simp [MessageRow.setStatus, deferredStatus, sync, sentStatus]
    · rw [queue, sync]
      simp
  · obtain ⟨table, queue⟩ := saveAndSendMessage_refused_keeps enabled stored accepted unset
    have nothing : (saveAndSendMessage env user message channel messages).queued = [] := by
      rw [queue, sync]
      rfl
    refine ⟨fun _ => ⟨table, nothing⟩, fun went => absurd went accepted, ?_⟩
    rw [nothing]
    simp

/-- An asynchronous message keeps the laws exactly when insertion and update succeed. -/
theorem statusKept_async_iff (enabled : channel.status = channelStatusEnabled)
    (stored : persists env user) (unset : message.id = 0) (async : message.async = true) :
    StatusKept env user message channel messages
        (saveAndSendMessage env user message channel messages) ↔
      insertAccepted env user message messages ∧ env.faults.updateStatus = none := by
  by_cases accepted : insertAccepted env user message messages
  · obtain ⟨row, sent, -, initial, -, -, queue, written⟩ :=
      saveAndSendMessage_writes enabled stored accepted unset
    simp only [accepted, true_and]
    constructor
    · intro kept
      obtain ⟨after, found, status⟩ := kept.queued row.id (by simp [queue, async])
      by_contra failing
      rw [written, if_neg failing, Option.some.injEq] at found
      rw [← found, initial] at status
      exact absurd status (by decide)
    · intro working
      refine ⟨fun refused => absurd accepted refused, fun _ _ off => by simp [async] at off, ?_⟩
      intro id queued
      rw [queue, async, if_pos rfl] at queued
      obtain rfl := List.mem_singleton.mp queued
      refine ⟨_, written, ?_⟩
      simp [working, MessageRow.setStatus, deferredStatus, async]
  · obtain ⟨-, queue⟩ := saveAndSendMessage_refused_keeps enabled stored accepted unset
    simp only [accepted, false_and, iff_false]
    intro kept
    obtain ⟨-, nothing⟩ := kept.refused accepted
    rw [queue, async] at nothing
    cases nothing

/-- Rows, queue and answer of one call agree exactly when no asynchronous message loses its
insertion or its update. -/
theorem saveAndSendMessage_status_iff (env : Environment) (user : User) (message : Message)
    (channel : Model.Channel) (messages : Messages) (unset : message.id = 0)
    (stored : persists env user) :
    StatusKept env user message channel messages
        (saveAndSendMessage env user message channel messages) ↔
      queuesPending env user message channel messages := by
  unfold queuesPending
  by_cases enabled : channel.status = channelStatusEnabled
  · cases async : message.async with
    | false => simp [statusKept_of_sync enabled stored unset async]
    | true => simp [statusKept_async_iff enabled stored unset async, enabled]
  · obtain ⟨table, queue⟩ := saveAndSendMessage_unstored message messages (.inl enabled)
    simp only [ne_eq, enabled, not_false_eq_true, true_or, iff_true]
    refine ⟨fun _ => ⟨table, queue⟩, fun _ on => absurd on enabled, ?_⟩
    rw [queue]
    simp

/-! An asynchronous push whose insertion fails. -/

def lostEnvironment : Environment where
  uuid := "l"
  faults := { insert := some "database is locked" }

def lostUser : User := { id := 1, username := "ann", status := userStatusEnabled }

def lostMessage : Message := { title := "t", channel := "c", async := true }

def lostChannel : Model.Channel :=
  { id := 1, type := typeNone, userId := 1, name := "c", status := channelStatusEnabled }

/-- The id 0 is queued, which no row has. -/
theorem saveAndSendMessage_queues_lost :
    ¬ StatusKept lostEnvironment lostUser lostMessage lostChannel .empty
      (saveAndSendMessage lostEnvironment lostUser lostMessage lostChannel .empty) := by
  intro kept
  obtain ⟨row, found, -⟩ := kept.queued 0 (by decide)
  have nothing : (saveAndSendMessage lostEnvironment lostUser lostMessage lostChannel
      .empty).messages.rowAt 0 = none := by decide
  rw [nothing] at found
  cases found

theorem saveAndSendMessage_status_iff_lost :
    StatusKept lostEnvironment lostUser lostMessage lostChannel .empty
        (saveAndSendMessage lostEnvironment lostUser lostMessage lostChannel .empty) ↔
      queuesPending lostEnvironment lostUser lostMessage lostChannel .empty :=
  saveAndSendMessage_status_iff lostEnvironment lostUser lostMessage lostChannel .empty rfl
    (.inl rfl)

end MessagePusher.Delivery
