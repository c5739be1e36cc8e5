import MessagePusher.Delivery.NoLoss
import Mathlib.Algebra.GroupWithZero.Nat

/-!
# The queue runs empty

Without new pushes, deletions, crashes and faults of the database, every step of a handler, the
loader or a worker lowers `AsyncState.work`, and as long as there is something to do a step is
possible: a full queue makes handlers and the loader wait, but never the workers. Some calls of
`SendMessage` may not return; they keep their workers, and as long as one worker is left the rest
comes to its end.
-/

namespace MessagePusher.Delivery

open Common Model Store Channel Controller Semantics

/-! ### What is left to do -/

/-- The steps that a handler causes: its own, those of its id in the queue, and those of its row
where the loader is still to list it. -/
def Handler.work : Handler → Nat
  | .called _ => 15
  | .inserted .. => 8
  | .marked .. => 7
  | .queued .. => 1
  | .answered .. => 0

def Worker.work : Worker → Nat
  | .idle => 0
  | .taken _ => 4
  | .loaded _ => 3
  | .sending _ => 2
  | .finishing .. => 1

def Loader.work (rows : Nat) : Loader → Nat
  | .starting => 6 * rows + 1
  | .enqueueing ids => 6 * ids.length

/-- A bound on the steps that are left. -/
def AsyncState.work (state : AsyncState) : Nat :=
  (state.handlers.map Handler.work).sum + 5 * state.queue.length +
    state.loader.work state.messages.rows.length + (state.workers.map Worker.work).sum

/-- A step of a handler, the loader or a worker, without a fault. -/
def AsyncLabel.Inward : AsyncLabel → Prop
  | .call _ | .delete | .clear | .crash => False
  | label => label.Faultless

/-- The worker is in a call of `SendMessage` that does not return. -/
def Worker.Hangs (hangs : Message → Prop) (worker : Worker) : Prop :=
  ∃ message, worker = .sending message ∧ hangs message

/-- A worker is in such a call for the message with the id. -/
def AsyncState.HangsOn (state : AsyncState) (hangs : Message → Prop) (id : Int) : Prop :=
  ∃ message, .sending message ∈ state.workers ∧ hangs message ∧ message.id = id

/-- All is answered and sent, but for what hangs. -/
structure Drained (hangs : Message → Prop) (state : AsyncState) : Prop where
  handlers : ∀ handler ∈ state.handlers, ∃ message error, handler = .answered message error
  queue : state.queue = []
  loader : state.loader = .enqueueing []
  workers : ∀ worker ∈ state.workers, worker = Worker.idle ∨ worker.Hangs hangs
  pending : ∀ row ∈ state.messages.rows, row.status = messageSendStatusAsyncPending →
    state.HangsOn hangs row.id
  acknowledged : ∀ id ∈ state.acknowledged, id ∈ state.deleted ∨
    ∃ row, state.messages.rowAt id = some row ∧
      (row.status = messageSendStatusSent ∨ row.status = messageSendStatusFailed ∨
        state.HangsOn hangs id)

/-- A step of the service left to itself: a worker that hangs stays where it is. -/
structure DrainStep (hangs : Message → Prop) (state : AsyncState) (label : AsyncLabel)
    (next : AsyncState) : Prop where
  step : AsyncStep state label next
  inward : label.Inward
  hanging : ∀ (index : Nat) (worker : Worker), state.workers[index]? = some worker →
    worker.Hangs hangs → next.workers[index]? = some worker

/-- Asynchronous delivery left to itself. -/
def draining (hangs : Message → Prop) : System AsyncState AsyncLabel where
  Initial := AsyncState.Initial
  Step := DrainStep hangs

/-! ### Every step lowers it -/

theorem length_setStatus (messages : Messages) (id status : Int) :
    (setStatus messages id status).rows.length = messages.rows.length := by
  rw [(Table.update_rows (setStatus_update messages id status)).1, Table.changed, List.length_map]

theorem length_updateStatus (message : Message) (status : Int) (failure : Option String)
    (messages : Messages) :
    (message.updateStatus status failure messages).1.rows.length = messages.rows.length := by
  unfold Message.updateStatus
  split_ifs
  · rfl
  · cases failure with
    | some text => rfl
    | none => exact length_setStatus messages message.id status

/-- A push adds one row at most. -/
theorem AsyncPush.length_insert_le (push : AsyncPush) (messages : Messages) :
    (push.insert messages).2.1.rows.length ≤ messages.rows.length + 1 := by
  unfold AsyncPush.insert
  rcases (linkMessage push.env push.message).updateAndInsert_cases push.user.id push.env.now
    push.env.faults.insert messages with ⟨text, failed⟩ | ⟨next, row, inserted, stored⟩
  · rw [failed]
    exact Nat.le_succ _
  · rw [stored]
    exact Table.length_insert_le inserted

theorem length_getAsyncPendingMessageIds_le (messages : Messages) :
    (getAsyncPendingMessageIds messages).length ≤ messages.rows.length := by
  rw [getAsyncPendingMessageIds, List.length_map]
  exact List.length_filter_le ..

theorem sum_replaced {α : Type} (work : α → Nat) (before after : List α) (entry : α) :
    ((before ++ entry :: after).map work).sum =
      work entry + ((before ++ after).map work).sum := by
  simp only [List.map_append, List.map_cons, List.sum_append, List.sum_cons]
  omega

theorem Loader.work_mono (loader : Loader) {rows more : Nat} (grown : more ≤ rows + 1) :
    loader.work more ≤ loader.work rows + 6 := by
  cases loader with
  | starting =>
      simp only [Loader.work]
      omega
  | enqueueing ids => exact Nat.le_add_right ..

theorem work_lt {state next : AsyncState} {label : AsyncLabel} (inward : label.Inward)
    (transition : AsyncStep state label next) : next.work < state.work := by
  cases transition with
  | call | delete | clear | crash => exact inward.elim
  | refuse at_ _ =>
      simp only [AsyncState.work, at_, sum_replaced, Handler.work]
      omega
  | @insert before after push at_ _ =>
      have grown := state.loader.work_mono (push.length_insert_le state.messages)
      simp only [AsyncState.work, at_, sum_replaced, Handler.work]
      omega
  | mark at_ =>
      simp only [AsyncState.work, at_, sum_replaced, Handler.work, length_updateStatus]
      omega
  | enqueue at_ _ =>
      simp only [AsyncState.work, at_, sum_replaced, Handler.work, List.length_append,
        List.length_singleton]
      omega
  | answer at_ =>
      simp only [AsyncState.work, at_, sum_replaced, Handler.work]
      omega
  | query at_ =>
      have listed := length_getAsyncPendingMessageIds_le state.messages
      simp only [AsyncState.work, at_, Loader.work]
      omega
  | load at_ _ =>
      simp only [AsyncState.work, at_, Loader.work, List.length_append, List.length_cons,
        List.length_nil]
      omega
  | take at_ first =>
      simp only [AsyncState.work, at_, first, sum_replaced, Worker.work, List.length_cons]
      omega
  | fetch at_ _ | skip at_ _ | hand at_ _ | fail at_ _ | settle at_ =>
      simp only [AsyncState.work, at_, sum_replaced, Worker.work]
      omega
  | finish at_ =>
      simp only [AsyncState.work, at_, sum_replaced, Worker.work, length_updateStatus]
      omega

/-! ### A step is possible -/

section Progress

variable {state : AsyncState} {hangs : Message → Prop}

/-- An inward step is possible. -/
def Movable (hangs : Message → Prop) (state : AsyncState) : Prop :=
  ∃ label next, (draining hangs).Step state label next

/-- A step of another party. -/
theorem Movable.of_others {label : AsyncLabel} {next : AsyncState}
    (step : AsyncStep state label next) (inward : label.Inward)
    (workers : next.workers = state.workers) : Movable hangs state :=
  ⟨label, next, step, inward, fun _ _ there _ => by rwa [workers]⟩

/-- A step of a worker that does not hang. -/
theorem Movable.of_worker {label : AsyncLabel} {next : AsyncState} {before after : List Worker}
    {old new : Worker} (step : AsyncStep state label next) (inward : label.Inward)
    (at_ : state.workers = before ++ old :: after) (moved : next.workers = before ++ new :: after)
    (free : ¬ old.Hangs hangs) : Movable hangs state := by
  refine ⟨label, next, step, inward, fun index worker there hanging => ?_⟩
  rw [at_] at there
  rw [moved]
  by_cases first : index < before.length
  · rwa [List.getElem?_append_left first] at there ⊢
  · rw [List.getElem?_append_right (Nat.le_of_not_lt first)] at there ⊢
    cases place : index - before.length with
    | zero =>
        rw [place] at there
        obtain rfl : old = worker := Option.some.inj there
        exact absurd hanging free
    | succ later =>
        rw [place] at there
        exact there

/-- A worker that is busy and does not hang can go on, whatever it finds. -/
theorem movable_of_busy {worker : Worker} (member : worker ∈ state.workers)
    (busy : worker ≠ .idle) (free : ¬ worker.Hangs hangs) : Movable hangs state := by
  obtain ⟨before, after, at_⟩ := List.append_of_mem member
  cases worker with
  | idle => exact absurd rfl busy
  | taken id =>
      cases found : getMessageById state.messages id with
      | ok message => exact .of_worker (.fetch at_ found) trivial at_ rfl free
      | error text =>
          have skips : AsyncLabel.Inward (.skip false) := rfl
          exact .of_worker (.skip at_ (.inr ⟨text, found⟩)) skips at_ rfl free
  | loaded message =>
      have missing : ∃ text, asyncMessageSenderHelper .empty .empty message = .error text := by
        unfold asyncMessageSenderHelper getUserById
        split_ifs <;> exact ⟨_, rfl⟩
      obtain ⟨text, missing⟩ := missing
      have fails : AsyncLabel.Inward (.fail false) := rfl
      exact .of_worker (.fail at_ (.inr ⟨.empty, .empty, text, missing⟩)) fails at_ rfl free
  | sending message =>
      exact .of_worker (@AsyncStep.settle _ _ _ _ none at_) trivial at_ rfl free
  | finishing message status =>
      have finishes : AsyncLabel.Inward (.finish none) := rfl
      exact .of_worker (.finish at_) finishes at_ rfl free

/-- The ids in the queue are taken as long as one worker is left. -/
theorem movable_of_queued (left : ∃ worker ∈ state.workers, ¬ worker.Hangs hangs)
    (queued : state.queue ≠ []) : Movable hangs state := by
  obtain ⟨worker, member, free⟩ := left
  obtain ⟨id, rest, first⟩ := List.exists_cons_of_ne_nil queued
  by_cases idle : worker = .idle
  · subst idle
    obtain ⟨before, after, at_⟩ := List.append_of_mem member
    exact .of_worker (.take at_ first) trivial at_ rfl free
  · exact movable_of_busy member idle free

/-- There is room in the queue, or its ids can be taken. -/
theorem movable_or_room (left : ∃ worker ∈ state.workers, ¬ worker.Hangs hangs) :
    Movable hangs state ∨ state.queue.length < asyncMessageQueueSize := by
  by_cases blank : state.queue = []
  · rw [blank]
    exact .inr (by decide)
  · exact .inl (movable_of_queued left blank)

theorem movable_of_handler {handler : Handler}
    (left : ∃ worker ∈ state.workers, ¬ worker.Hangs hangs) (member : handler ∈ state.handlers)
    (open_ : ∀ message error, handler ≠ .answered message error) : Movable hangs state := by
  obtain ⟨before, after, at_⟩ := List.append_of_mem member
  cases handler with
  | called push =>
      by_cases proceeds : push.Proceeds
      · exact .of_others (.insert at_ proceeds) trivial rfl
      · exact .of_others (@AsyncStep.refuse _ _ _ _ "" at_ proceeds) trivial rfl
  | inserted push message error => exact .of_others (.mark at_) trivial rfl
  | marked message error =>
      rcases movable_or_room left with movable | room
      · exact movable
      · exact .of_others (.enqueue at_ room) trivial rfl
  | queued message error => exact .of_others (.answer at_) trivial rfl
  | answered message error => exact absurd rfl (open_ message error)

theorem movable_of_loader (left : ∃ worker ∈ state.workers, ¬ worker.Hangs hangs)
    (loading : state.loader ≠ .enqueueing []) : Movable hangs state := by
  cases loader : state.loader with
  | starting => exact .of_others (.query loader) trivial rfl
  | enqueueing ids =>
      cases ids with
      | nil => exact absurd loader loading
      | cons id rest =>
          rcases movable_or_room left with movable | room
          · exact movable
          · exact .of_others (.load loader room) trivial rfl

/-- Where no party can move and one worker is left, nothing is pending but for what hangs. -/
theorem Drained.of_stuck (left : ∃ worker ∈ state.workers, ¬ worker.Hangs hangs)
    (holds : KeepInv state) (stuck : ¬ Movable hangs state) : Drained hangs state := by
  have handlers : ∀ handler ∈ state.handlers,
      ∃ message error, handler = .answered message error := by
    intro handler member
    by_contra open_
    exact stuck (movable_of_handler left member fun message error answered =>
      open_ ⟨message, error, answered⟩)
  have queue : state.queue = [] := by
    by_contra queued
    exact stuck (movable_of_queued left queued)
  have loader : state.loader = .enqueueing [] := by
    by_contra loading
    exact stuck (movable_of_loader left loading)
  have workers : ∀ worker ∈ state.workers, worker = .idle ∨ worker.Hangs hangs := by
    intro worker member
    by_contra busy
    rw [not_or] at busy
    exact stuck (movable_of_busy member busy.1 busy.2)
  have cared : ∀ id, Cared state id → state.HangsOn hangs id := by
    rintro id (queued | ⟨worker, member, held⟩ | ⟨handler, member, carried⟩ | listed | starting)
    · rw [queue] at queued
      exact absurd queued List.not_mem_nil
    · rcases workers worker member with rfl | ⟨message, rfl, hanging⟩
      · cases held
      · exact ⟨message, member, hanging, Option.some.inj held⟩
    · obtain ⟨message, error, rfl⟩ := handlers handler member
      cases carried
    · rw [loader] at listed
      exact absurd listed List.not_mem_nil
    · rw [loader] at starting
      cases starting
  have pending : ∀ row ∈ state.messages.rows, row.status = messageSendStatusAsyncPending →
      state.HangsOn hangs row.id := fun row member waiting =>
    cared row.id (holds.cared row.id row (Table.rowAt_of_mem member) waiting)
  refine ⟨handlers, queue, loader, workers, pending, fun id acknowledged => ?_⟩
  refine (holds.acknowledged id acknowledged).imp_right fun ⟨row, found, kept⟩ => ⟨row, found, ?_⟩
  rcases kept with waiting | sent | failed
  · have there := pending row (Table.rowAt_mem found) waiting
    rw [show row.id = id from Table.rowAt_id found] at there
    exact .inr (.inr there)
  · exact .inl sent
  · exact .inr (.inl failed)

end Progress

/-! ### Whole runs -/

/-- The number of workers stays. -/
theorem length_workers {state next : AsyncState} {label : AsyncLabel}
    (count : state.workers.length = asyncMessageSenderNum)
    (transition : AsyncStep state label next) : next.workers.length = asyncMessageSenderNum := by
  cases transition with
  | crash => rfl
  | take at_ _ | fetch at_ _ | skip at_ _ | hand at_ _ | fail at_ _ | settle at_ | finish at_ =>
      rw [at_] at count
      simpa using count
  | _ => exact count

theorem length_workers_of_reachable {state : AsyncState} (reachable : asyncDelivery.Reachable state) :
    state.workers.length = asyncMessageSenderNum := by
  have starts : ∀ {state}, asyncDelivery.Initial state →
      state.workers.length = asyncMessageSenderNum := by
    rintro state ⟨-, start⟩
    rw [start]
    rfl
  have stays : ∀ {state label next}, state.workers.length = asyncMessageSenderNum →
      asyncDelivery.Step state label next → next.workers.length = asyncMessageSenderNum :=
    length_workers
  exact reachable.invariant starts stays

theorem AsyncLabel.Inward.faultless {label : AsyncLabel} (inward : label.Inward) :
    label.Faultless := by
  cases label <;> first | exact inward | exact inward.elim

end MessagePusher.Delivery
