import MessagePusher.Semantics.Transition
import MessagePusher.Channel.MessageQueue
import MessagePusher.Controller.PushIsolation

/-!
# Asynchronous delivery as a transition system

The startup loader, the push handlers with `async` set, the buffered queue and
the workers, one step for each database statement, channel operation and call of
`SendMessage`. `LoadAsyncMessages` runs in a goroutine of its own, so its query
may come before or after any step of a handler. Delete operations and a crash
with restart are steps as well; what a theorem does not allow it excludes by a
condition on labels. Which user and channel rows a worker reads is left open.
-/

namespace MessagePusher.Delivery

open Common Model Store Channel Controller Semantics

/-- A call of `saveAndSendMessage` with the surroundings it runs in. -/
structure AsyncPush where
  env : Environment
  user : User
  message : Message
  channel : Model.Channel

/-- The call gets past the check of the channel, and the message is to be stored. -/
def AsyncPush.Proceeds (push : AsyncPush) : Prop :=
  push.channel.status = channelStatusEnabled ∧ persists push.env push.user

/-- `UpdateAndInsert` as the call makes it. -/
def AsyncPush.insert (push : AsyncPush) (messages : Messages) :
    Message × Messages × Option String :=
  (linkMessage push.env push.message).updateAndInsert push.user.id push.env.now
    push.env.faults.insert messages

/-- How far a handler is. From `inserted` on the deferred function runs, with the message as
the insertion left it and the error to be answered. -/
inductive Handler where
  | called (push : AsyncPush)
  | inserted (push : AsyncPush) (message : Message) (error : Option String)
  | marked (message : Message) (error : Option String)
  | queued (message : Message) (error : Option String)
  | answered (message : Message) (error : Option String)

/-- How far `LoadAsyncMessages` is; `enqueueing []` means that it has returned. -/
inductive Loader where
  | starting
  | enqueueing (ids : List Int)

def Loader.ids (loader : Loader) : List Int :=
  match loader with
  | .starting => []
  | .enqueueing ids => ids

/-- How far a worker is with the id it took from the queue. -/
inductive Worker where
  | idle
  | taken (id : Int)
  | loaded (message : Message)
  | sending (message : Message)
  | finishing (message : Message) (status : Int)

/-- The table and the queue, the parties, and three records: the ids handed to
`SendMessage`, those answered with success, and those deleted. -/
structure AsyncState where
  messages : Messages
  queue : List Int := []
  loader : Loader := .starting
  handlers : List Handler := []
  workers : List Worker := List.replicate asyncMessageSenderNum .idle
  handed : List Int := []
  acknowledged : List Int := []
  deleted : List Int := []

/-- What happens in a step. A `fault` is a failing database statement. -/
inductive AsyncLabel where
  | call (push : AsyncPush)
  | refuse
  | insert
  | mark
  | enqueue
  | answer
  | query
  | load
  | take
  | fetch
  | skip (fault : Bool)
  | hand
  | fail (fault : Bool)
  | settle
  | finish (failure : Option String)
  | delete
  | clear
  | crash

/-- One step of one party. -/
inductive AsyncStep : AsyncState → AsyncLabel → AsyncState → Prop where
  /-- A request without an `id` in its body asks for asynchronous delivery. -/
  | call {state push} (async : push.message.async = true) (withoutId : push.message.id = 0) :
      AsyncStep state (.call push) { state with handlers := state.handlers ++ [.called push] }
  | refuse {state before after push text} (at_ : state.handlers = before ++ .called push :: after)
      (refused : ¬ push.Proceeds) :
      AsyncStep state .refuse
        { state with handlers := before ++ .answered push.message (some text) :: after }
  | insert {state before after push} (at_ : state.handlers = before ++ .called push :: after)
      (proceeds : push.Proceeds) :
      AsyncStep state .insert
        { state with
          messages := (push.insert state.messages).2.1
          handlers := before ++ .inserted push (push.insert state.messages).1
            (push.insert state.messages).2.2 :: after }
  | mark {state before after push message error}
      (at_ : state.handlers = before ++ .inserted push message error :: after) :
      AsyncStep state .mark
        { state with
          messages := (message.updateStatus messageSendStatusAsyncPending
            push.env.faults.updateStatus state.messages).1
          handlers := before ++ .marked message error :: after }
  | enqueue {state before after message error}
      (at_ : state.handlers = before ++ .marked message error :: after)
      (room : state.queue.length < asyncMessageQueueSize) :
      AsyncStep state .enqueue
        { state with
          queue := state.queue ++ [message.id]
          handlers := before ++ .queued message error :: after }
  | answer {state before after message error}
      (at_ : state.handlers = before ++ .queued message error :: after) :
      AsyncStep state .answer
        { state with
          handlers := before ++ .answered message error :: after
          acknowledged :=
            if error = none then state.acknowledged ++ [message.id] else state.acknowledged }
  | query {state} (at_ : state.loader = .starting) :
      AsyncStep state .query
        { state with loader := .enqueueing (getAsyncPendingMessageIds state.messages) }
  | load {state id rest} (at_ : state.loader = .enqueueing (id :: rest))
      (room : state.queue.length < asyncMessageQueueSize) :
      AsyncStep state .load
        { state with queue := state.queue ++ [id], loader := .enqueueing rest }
  | take {state before after id rest} (at_ : state.workers = before ++ .idle :: after)
      (first : state.queue = id :: rest) :
      AsyncStep state .take
        { state with queue := rest, workers := before ++ .taken id :: after }
  | fetch {state before after id message} (at_ : state.workers = before ++ .taken id :: after)
      (found : getMessageById state.messages id = .ok message) :
      AsyncStep state .fetch { state with workers := before ++ .loaded message :: after }
  | skip {state before after id fault} (at_ : state.workers = before ++ .taken id :: after)
      (failed : fault = true ∨ ∃ text, getMessageById state.messages id = .error text) :
      AsyncStep state (.skip fault) { state with workers := before ++ .idle :: after }
  | hand {state before after message users channels call}
      (at_ : state.workers = before ++ .loaded message :: after)
      (ready : asyncMessageSenderHelper users channels message = .ok call) :
      AsyncStep state .hand
        { state with
          workers := before ++ .sending message :: after
          handed := state.handed ++ [message.id] }
  | fail {state before after message fault}
      (at_ : state.workers = before ++ .loaded message :: after)
      (failed : fault = true ∨
        ∃ users channels text, asyncMessageSenderHelper users channels message = .error text) :
      AsyncStep state (.fail fault)
        { state with
          workers := before ++ .finishing message messageSendStatusFailed :: after }
  | settle {state before after message error}
      (at_ : state.workers = before ++ .sending message :: after) :
      AsyncStep state .settle
        { state with workers := before ++ .finishing message (asyncStatus error) :: after }
  | finish {state before after message status failure}
      (at_ : state.workers = before ++ .finishing message status :: after) :
      AsyncStep state (.finish failure)
        { state with
          messages := (message.updateStatus status failure state.messages).1
          workers := before ++ .idle :: after }
  /-- `DeleteMessage` of some user. -/
  | delete {state id userId} (found : (deleteMessageById state.messages id userId).2 = none) :
      AsyncStep state .delete
        { state with
          messages := (deleteMessageById state.messages id userId).1
          deleted := state.deleted ++ [id] }
  | clear {state} :
      AsyncStep state .clear
        { state with
          messages := deleteAllMessages state.messages
          deleted := state.deleted ++ state.messages.rows.map MessageRow.id }
  /-- The process dies and is started again: only the table is kept. -/
  | crash {state} :
      AsyncStep state .crash
        { messages := state.messages
          handed := state.handed
          acknowledged := state.acknowledged
          deleted := state.deleted }

/-- The process starts on a table in which, as everywhere, no row has the id zero. -/
def AsyncState.Initial (state : AsyncState) : Prop :=
  (∀ row ∈ state.messages.rows, row.id ≠ 0) ∧ state = { messages := state.messages }

/-- Asynchronous delivery with deletions and crashes. -/
def asyncDelivery : System AsyncState AsyncLabel where
  Initial := AsyncState.Initial
  Step := AsyncStep

/-! ### The handlers are `saveAndSendMessage` -/

/-- What the insertion of a handler leaves behind. -/
theorem AsyncPush.insert_cases (push : AsyncPush) (messages : Messages)
    (withoutId : push.message.id = 0) :
    (∃ message text, push.insert messages = (message, messages, some text) ∧ message.id = 0 ∧
      message.async = push.message.async) ∨
    ∃ message next row, push.insert messages = (message, next, none) ∧
      messages.insert (unstored push.env push.user push.message).toRow = some (next, row) ∧
      message.id = row.id ∧ row.id = messages.counter + 1 ∧
      next.counter = messages.counter + 1 ∧ row.status = messageSendStatusPending ∧
      message.async = push.message.async := by
  rcases (linkMessage push.env push.message).updateAndInsert_cases push.user.id push.env.now
    push.env.faults.insert messages with ⟨text, failed⟩ | ⟨next, row, inserted, stored⟩
  · exact .inl ⟨_, text, failed, withoutId, rfl⟩
  · obtain ⟨fresh, counter⟩ := Table.insert_id_of_unset inserted withoutId
    obtain ⟨-, isRow, -, -⟩ := Table.insert_spec inserted
    refine .inr ⟨_, next, row, stored, inserted, rfl, fresh, counter, ?_, rfl⟩
    rw [isRow]
    rfl

/-- An insertion leaves the rows that are there. -/
theorem AsyncPush.insert_keeps (push : AsyncPush) {messages : Messages}
    (withoutId : push.message.id = 0) {id : Int} {row : MessageRow}
    (found : messages.rowAt id = some row) :
    (push.insert messages).2.1.rowAt id = some row := by
  rcases push.insert_cases messages withoutId with
    ⟨message, text, failed, -⟩ | ⟨message, table, stored, done, inserted, -⟩
  · rw [failed]
    exact found
  · rw [done]
    have fresh := Table.insert_fresh inserted
    have other : id ≠ stored.id := by
      rintro rfl
      rw [MessageRow.record_id, found] at fresh
      cases fresh
    dsimp only
    rw [Table.rowAt_insert inserted, MessageRow.record_id, if_neg other]
    exact found

/-- A row that an insertion adds waits for its sending. -/
theorem AsyncPush.insert_adds (push : AsyncPush) {messages : Messages}
    (withoutId : push.message.id = 0) {id : Int} {row : MessageRow}
    (found : (push.insert messages).2.1.rowAt id = some row) :
    messages.rowAt id = some row ∨
      id = messages.counter + 1 ∧ row.status = messageSendStatusPending := by
  rcases push.insert_cases messages withoutId with
    ⟨message, text, failed, -⟩ |
    ⟨message, table, stored, done, inserted, -, isNext, -, pending, -⟩
  · rw [failed] at found
    exact .inl found
  · rw [done] at found
    dsimp only at found
    rw [Table.rowAt_insert inserted, MessageRow.record_id] at found
    split_ifs at found with same
    · cases found
      exact .inr ⟨same.trans isNext, pending⟩
    · exact .inl found

/-- `saveAndSendMessage` on an asynchronous message, statement by statement. -/
theorem saveAndSendMessage_async (push : AsyncPush) (messages : Messages)
    (async : push.message.async = true) (withoutId : push.message.id = 0)
    (proceeds : push.Proceeds) :
    let outcome := saveAndSendMessage push.env push.user push.message push.channel messages
    outcome.messages =
        ((push.insert messages).1.updateStatus messageSendStatusAsyncPending
          push.env.faults.updateStatus (push.insert messages).2.1).1 ∧
      outcome.queued = [(push.insert messages).1.id] ∧
      outcome.error = (push.insert messages).2.2 := by
  obtain ⟨enabled, stored⟩ := proceeds
  have inserts : (linkMessage push.env push.message).updateAndInsert push.user.id push.env.now
      push.env.faults.insert messages = push.insert messages := rfl
  rcases push.insert_cases messages withoutId with
    ⟨message, text, failed, -, sameAsync⟩ | ⟨message, next, row, done, -, -, -, -, -, sameAsync⟩
  · simp [saveAndSendMessage, enabled, stored, inserts, failed, deferred, deferredStatus, sameAsync,
      async]
  · simp [saveAndSendMessage, enabled, stored, inserts, done, deferred, deferredStatus, sameAsync,
      async, sendNow]

/-- The five steps of a handler that proceeds, taken without a break, do to the table and the
queue what `saveAndSendMessage` does, and answer with its error. -/
theorem handler_runs (state : AsyncState) (push : AsyncPush) (async : push.message.async = true)
    (withoutId : push.message.id = 0) (proceeds : push.Proceeds)
    (room : state.queue.length < asyncMessageQueueSize) :
    let outcome := saveAndSendMessage push.env push.user push.message push.channel state.messages
    ∃ after message, asyncDelivery.Runs state [.call push, .insert, .mark, .enqueue, .answer]
        after ∧
      after.messages = outcome.messages ∧ after.queue = state.queue ++ outcome.queued ∧
      after.handlers = state.handlers ++ [.answered message outcome.error] := by
  obtain ⟨table, queued, error⟩ :=
    saveAndSendMessage_async push state.messages async withoutId proceeds
  refine ⟨_, (push.insert state.messages).1,
    .head (.call async withoutId) <| .head (.insert rfl proceeds) <| .head (.mark rfl) <|
      .head (.enqueue rfl room) <| .single (.answer rfl), ?_⟩
  exact ⟨table.symm, by rw [queued], by rw [error]⟩

/-! ### What the parties hold -/

/-- The id that a handler is still to put on the queue. -/
def Handler.carries : Handler → Option Int
  | .inserted _ message _ | .marked message _ => some message.id
  | _ => none

/-- The id of the message that a handler has tried to insert. -/
def Handler.pushed : Handler → Option Int
  | .called _ => none
  | .inserted _ message _ | .marked message _ | .queued message _ | .answered message _ =>
      some message.id

/-- The id that a worker may still hand over. -/
def Worker.waits : Worker → Option Int
  | .taken key => some key
  | .loaded message => some message.id
  | _ => none

/-- The id whose status a worker is to write. -/
def Worker.settles : Worker → Option Int
  | .sending message | .finishing message _ => some message.id
  | _ => none

/-- The message that a worker has loaded. -/
def Worker.message? : Worker → Option Message
  | .loaded message | .sending message | .finishing message _ => some message
  | _ => none

/-- Replacing one party keeps what holds of all of them. -/
theorem forall_mem_replace {α : Type} {holds : α → Prop} {before after : List α} {old new : α}
    (all : ∀ entry ∈ before ++ old :: after, holds entry) (here : holds new) :
    ∀ entry ∈ before ++ new :: after, holds entry := by
  intro entry listed
  simp only [List.mem_append, List.mem_cons] at all listed
  rcases listed with left | rfl | right
  · exact all entry (.inl left)
  · exact here
  · exact all entry (.inr (.inr right))

/-- A party that is replaced by one that is as good is not missed. -/
theorem exists_mem_replace {α : Type} {holds : α → Prop} {before after : List α} {old new : α}
    (asGood : holds old → holds new) :
    (∃ entry ∈ before ++ old :: after, holds entry) →
      ∃ entry ∈ before ++ new :: after, holds entry := by
  rintro ⟨entry, listed, found⟩
  simp only [List.mem_append, List.mem_cons] at listed
  rcases listed with left | rfl | right
  · exact ⟨entry, by simp [left], found⟩
  · exact ⟨new, by simp, asGood found⟩
  · exact ⟨entry, by simp [right], found⟩

/-- No message without an id is loaded or handed over, and none with an id is called with. -/
structure KnownIds (state : AsyncState) : Prop where
  called : ∀ handler ∈ state.handlers, ∀ push, handler = .called push → push.message.id = 0
  worker : ∀ worker ∈ state.workers, ∀ message, worker.message? = some message → message.id ≠ 0
  handed : (0 : Int) ∉ state.handed

theorem KnownIds.step {state next : AsyncState} {label : AsyncLabel} (holds : KnownIds state)
    (transition : AsyncStep state label next) : KnownIds next := by
  obtain ⟨called, worker, handed⟩ := holds
  cases transition with
  | query | load | delete | clear => exact ⟨called, worker, handed⟩
  | @call push async withoutId =>
      refine ⟨?_, worker, handed⟩
      intro handler listed
      rcases List.mem_append.mp listed with old | new
      · exact called handler old
      · rw [List.mem_singleton.mp new]
        rintro _ ⟨⟩
        exact withoutId
  | refuse at_ _ | insert at_ _ | mark at_ | enqueue at_ _ | answer at_ =>
      rw [at_] at called
      exact ⟨forall_mem_replace called (by simp), worker, handed⟩
  | take at_ _ | skip at_ _ | finish at_ =>
      rw [at_] at worker
      exact ⟨called, forall_mem_replace worker (by simp [Worker.message?]), handed⟩
  | fetch at_ found =>
      rw [at_] at worker
      refine ⟨called, forall_mem_replace worker ?_, handed⟩
      rintro _ ⟨⟩
      obtain ⟨hasId, same⟩ := getMessageById_id found
      rw [same]
      exact hasId
  | @hand before after message users channels call at_ ready =>
      rw [at_] at worker
      have hasId : message.id ≠ 0 := worker (.loaded message) (by simp) message rfl
      refine ⟨called, forall_mem_replace worker ?_, ?_⟩
      · rintro _ ⟨⟩
        exact hasId
      · simpa [handed] using hasId.symm
  | @fail before after message fault at_ _ =>
      rw [at_] at worker
      refine ⟨called, forall_mem_replace worker ?_, handed⟩
      rintro _ ⟨⟩
      exact worker (.loaded message) (by simp) message rfl
  | @settle before after message error at_ =>
      rw [at_] at worker
      refine ⟨called, forall_mem_replace worker ?_, handed⟩
      rintro _ ⟨⟩
      exact worker (.sending message) (by simp) message rfl
  | crash =>
      refine ⟨by simp, ?_, handed⟩
      intro worker listed
      rw [List.eq_of_mem_replicate listed]
      simp [Worker.message?]

theorem KnownIds.reachable {state : AsyncState} (reachable : asyncDelivery.Reachable state) :
    KnownIds state := by
  have preserved : ∀ {state label next}, KnownIds state → asyncDelivery.Step state label next →
      KnownIds next := KnownIds.step
  refine reachable.invariant ?_ preserved
  rintro state ⟨-, start⟩
  rw [start]
  refine ⟨by simp, ?_, by simp⟩
  intro worker listed
  rw [List.eq_of_mem_replicate listed]
  simp [Worker.message?]

/-! A run needs a push, and rows for its worker to load. -/

/-- An asynchronous push of user 1 to a channel without a service. -/
def quietPush : AsyncPush where
  env := { uuid := "fresh" }
  user := { id := 1, role := roleCommonUser, status := userStatusEnabled }
  message := { title := "t", channel := "c", async := true }
  channel := { id := 1, type := typeNone, userId := 1, name := "c", status := channelStatusEnabled }

def quietUsers : Users where
  rows := [quietPush.user]
  counter := 1
  sorted := by decide
  unique := by decide
  counterNonneg := Int.one_nonneg
  bounded := by decide

def quietChannels : Channels where
  rows := [quietPush.channel]
  counter := 1
  sorted := by decide
  unique := by decide
  counterNonneg := Int.one_nonneg
  bounded := by decide

/-- The process on an empty table. -/
def freshStart : AsyncState := { messages := .empty }

theorem freshStart_initial : freshStart.Initial := ⟨by decide, rfl⟩

theorem quietPush_proceeds : quietPush.Proceeds := ⟨rfl, .inl rfl⟩

/-- A step of the cut-down system, its condition last. -/
theorem AsyncStep.permitted {permitted : AsyncState → AsyncLabel → Prop}
    {state next : AsyncState} {label : AsyncLabel} (transition : AsyncStep state label next)
    (allowed : permitted state label) :
    (asyncDelivery.guard permitted).Step state label next :=
  ⟨allowed, transition⟩

end MessagePusher.Delivery
