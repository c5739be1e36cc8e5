import MessagePusher.Delivery.AsyncQueue

/-!
# At most one delivery

Every id counts in the places from which it can still be handed to
`SendMessage`, and in those where a worker is to write its status. No id counts
twice as long as the loader's query lists no message of a handler of this
process: a message that is already marked but still pending would be queued by
its handler and by the loader.
-/

namespace MessagePusher.Delivery

open Common Model Store Controller Semantics

namespace AsyncState

/-- How often an id may still be handed over. -/
def waiting (state : AsyncState) (id : Int) : Nat :=
  state.queue.count id + state.loader.ids.count id +
    (state.handlers.filterMap Handler.carries).count id +
    (state.workers.filterMap Worker.waits).count id

/-- How often its status is still to be written. -/
def settling (state : AsyncState) (id : Int) : Nat :=
  (state.workers.filterMap Worker.settles).count id

theorem waiting_pos {state : AsyncState} {handler : Handler} {id : Int}
    (member : handler ∈ state.handlers) (carries : handler.carries = some id) :
    0 < state.waiting id := by
  have counted : 0 < (state.handlers.filterMap Handler.carries).count id :=
    List.count_pos_iff.mpr (List.mem_filterMap.mpr ⟨handler, member, carries⟩)
  unfold waiting
  omega

theorem settling_pos {state : AsyncState} {worker : Worker} {id : Int}
    (member : worker ∈ state.workers) (settles : worker.settles = some id) :
    0 < state.settling id :=
  List.count_pos_iff.mpr (List.mem_filterMap.mpr ⟨worker, member, settles⟩)

end AsyncState

/-- A status that no worker has written yet. -/
def OpenStatus (status : Int) : Prop :=
  status = messageSendStatusPending ∨ status = messageSendStatusAsyncPending

/-- The invariant that carries at-most-once delivery. -/
structure OnceInv (state : AsyncState) : Prop where
  /-- What was handed over does not wait again, and nothing waits twice. -/
  once : ∀ id, id ≠ 0 → state.waiting id + state.handed.count id ≤ 1
  alone : ∀ id, id ≠ 0 → state.waiting id + state.settling id ≤ 1
  /-- A worker only ever writes over a status that is open. -/
  pending : ∀ id, id ≠ 0 → 0 < state.waiting id + state.settling id →
    ∀ row, state.messages.rowAt id = some row → OpenStatus row.status
  below : ∀ id, state.messages.counter < id →
    state.waiting id + state.settling id + state.handed.count id = 0
  /-- Before the loader's query every id comes from a handler of this process. -/
  own : state.loader = .starting → ∀ id, id ≠ 0 →
    0 < state.waiting id + state.settling id + state.handed.count id →
      ∃ handler ∈ state.handlers, handler.pushed = some id

/-- A step that only moves ids on keeps the invariant. -/
theorem OnceInv.moves {state next : AsyncState} (holds : OnceInv state)
    (once : ∀ id, id ≠ 0 →
      next.waiting id + next.handed.count id ≤ state.waiting id + state.handed.count id)
    (alone : ∀ id, id ≠ 0 →
      next.waiting id + next.settling id ≤ state.waiting id + state.settling id)
    (rows : ∀ id, id ≠ 0 → 0 < next.waiting id + next.settling id →
      ∀ row, next.messages.rowAt id = some row →
        OpenStatus row.status ∨ state.messages.rowAt id = some row)
    (counter : next.messages.counter = state.messages.counter)
    (pushed : ∀ id, (∃ handler ∈ state.handlers, handler.pushed = some id) →
      ∃ handler ∈ next.handlers, handler.pushed = some id)
    (starting : next.loader = .starting → state.loader = .starting) : OnceInv next where
  once id hasId := Nat.le_trans (once id hasId) (holds.once id hasId)
  alone id hasId := Nat.le_trans (alone id hasId) (holds.alone id hasId)
  pending id hasId here row found := by
    rcases rows id hasId here row found with status | before
    · exact status
    · exact holds.pending id hasId (Nat.lt_of_lt_of_le here (alone id hasId)) row before
  below id above := by
    have nonneg := state.messages.counterNonneg
    rw [counter] at above
    have hasId : id ≠ 0 := by omega
    have none := holds.below id above
    have := once id hasId
    have := alone id hasId
    omega
  own start id hasId here := by
    refine pushed id (holds.own (starting start) id hasId ?_)
    have := once id hasId
    have := alone id hasId
    omega

/-- What an entry in the middle of a list adds to a count. -/
theorem count_filterMap_middle {α : Type} (ids : α → Option Int) (before after : List α)
    (entry : α) (id : Int) :
    ((before ++ entry :: after).filterMap ids).count id =
      ((before ++ after).filterMap ids).count id + if ids entry = some id then 1 else 0 := by
  rw [List.filterMap_append, List.filterMap_append, List.count_append, List.count_append,
    List.filterMap_cons]
  cases ids entry with
  | none => simp
  | some own =>
      simp only [List.count_cons, Option.some.injEq, beq_iff_eq]
      omega

/-- A handler moves on and takes its id along. -/
theorem OnceInv.handler_moves {state : AsyncState} (holds : OnceInv state)
    {before after : List Handler} {old new : Handler} {queue acknowledged : List Int}
    {messages : Messages} (at_ : state.handlers = before ++ old :: after)
    (carried : ∀ id, id ≠ 0 →
      queue.count id + (if new.carries = some id then 1 else 0) ≤
        state.queue.count id + if old.carries = some id then 1 else 0)
    (pushed : ∀ id, old.pushed = some id → new.pushed = some id)
    (rows : ∀ id row, messages.rowAt id = some row →
      OpenStatus row.status ∨ state.messages.rowAt id = some row)
    (counter : messages.counter = state.messages.counter) :
    OnceInv { state with queue, messages, acknowledged, handlers := before ++ new :: after } := by
  have waiting : ∀ id, id ≠ 0 → AsyncState.waiting
      { state with queue, messages, acknowledged, handlers := before ++ new :: after } id ≤
        state.waiting id := by
    intro id hasId
    have moved := carried id hasId
    simp only [AsyncState.waiting, at_, count_filterMap_middle]
    omega
  refine holds.moves (fun id hasId => ?_) (fun id hasId => ?_)
    (fun id _ _ row found => rows id row found) counter (fun id => ?_) (fun same => same)
  · exact Nat.add_le_add_right (waiting id hasId) _
  · exact Nat.add_le_add_right (waiting id hasId) _
  · rw [at_]
    exact exists_mem_replace (pushed id)

/-- A worker moves on with its id, from the queue or to what was handed over. -/
theorem OnceInv.worker_moves {state : AsyncState} (holds : OnceInv state)
    {before after : List Worker} {old new : Worker} {queue handed : List Int}
    (at_ : state.workers = before ++ old :: after)
    (once : ∀ id, id ≠ 0 →
      queue.count id + (if new.waits = some id then 1 else 0) + handed.count id ≤
        state.queue.count id + (if old.waits = some id then 1 else 0) + state.handed.count id)
    (alone : ∀ id, id ≠ 0 →
      queue.count id + (if new.waits = some id then 1 else 0) +
          (if new.settles = some id then 1 else 0) ≤
        state.queue.count id + (if old.waits = some id then 1 else 0) +
          if old.settles = some id then 1 else 0) :
    OnceInv { state with queue, handed, workers := before ++ new :: after } := by
  refine holds.moves (fun id hasId => ?_) (fun id hasId => ?_)
    (fun _ _ _ _ found => .inr found) rfl (fun _ shown => shown) (fun same => same)
  · have moved := once id hasId
    simp only [AsyncState.waiting, at_, count_filterMap_middle]
    omega
  · have moved := alone id hasId
    simp only [AsyncState.waiting, AsyncState.settling, at_, count_filterMap_middle]
    omega

/-- The steps of the model without crashes and deletions. -/
def AsyncLabel.Calm : AsyncLabel → Prop
  | .delete | .clear | .crash => False
  | _ => True

/-- When the loader's query runs, no message of a handler of this process is listed by it. -/
def LoadsBeforePushes (state : AsyncState) (label : AsyncLabel) : Prop :=
  label.Calm ∧
    (label = .query → ∀ id ∈ getAsyncPendingMessageIds state.messages,
      ∀ handler ∈ state.handlers, handler.pushed ≠ some id)

theorem getAsyncPendingMessageIds_nodup (messages : Messages) :
    (getAsyncPendingMessageIds messages).Nodup := by
  unfold getAsyncPendingMessageIds Table.select
  rw [List.Nodup, List.pairwise_map]
  exact (messages.sorted.filter _).imp fun below => Int.ne_of_lt below

/-- A new row waits for its handler, and for no one else. -/
theorem OnceInv.insert {state : AsyncState} (known : KnownIds state) (holds : OnceInv state)
    {before after : List Handler} {push : AsyncPush}
    (at_ : state.handlers = before ++ .called push :: after) :
    OnceInv { state with
      messages := (push.insert state.messages).2.1
      handlers := before ++ .inserted push (push.insert state.messages).1
        (push.insert state.messages).2.2 :: after } := by
  have withoutId : push.message.id = 0 := known.called (.called push) (by simp [at_]) push rfl
  have replaced : ∀ message error id,
      (∃ handler ∈ state.handlers, handler.pushed = some id) →
        ∃ handler ∈ before ++ .inserted push message error :: after, handler.pushed = some id := by
    intro message error id
    rw [at_]
    exact exists_mem_replace (by simp [Handler.pushed])
  rcases push.insert_cases state.messages withoutId with
    ⟨message, text, failed, unset, -⟩ |
    ⟨message, table, row, stored, inserted, sameId, isNext, counter, pending, -⟩
  · rw [failed]
    refine holds.moves ?_ ?_ (fun _ _ _ _ found => .inr found) rfl (replaced message _) id
    · intro id hasId
      simp [AsyncState.waiting, at_, List.filterMap_cons, Handler.carries, unset, hasId.symm]
    · intro id hasId
      simp [AsyncState.waiting, AsyncState.settling, at_, List.filterMap_cons, Handler.carries,
        unset, hasId.symm]
  · rw [stored]
    have fresh := holds.below row.id (by omega)
    have nonneg := state.messages.counterNonneg
    have moved : ∀ id, AsyncState.waiting { state with
        messages := table
        handlers := before ++ .inserted push message none :: after } id =
          state.waiting id + if row.id = id then 1 else 0 := by
      intro id
      simp [AsyncState.waiting, at_, List.filterMap_cons, Handler.carries, List.count_cons, sameId]
      omega
    have settles : ∀ id, AsyncState.settling { state with
        messages := table
        handlers := before ++ .inserted push message none :: after } id = state.settling id :=
      fun _ => rfl
    have read : ∀ id, table.rowAt id =
        if id = row.id then some row else state.messages.rowAt id :=
      fun id => Table.rowAt_insert inserted
    refine ⟨?_, ?_, ?_, ?_, ?_⟩
    · intro id hasId
      have before := holds.once id hasId
      rw [moved]
      split_ifs with same
      · subst same
        dsimp only
        omega
      · exact before
    · intro id hasId
      have before := holds.alone id hasId
      rw [moved, settles]
      split_ifs with same
      · subst same
        omega
      · exact before
    · intro id hasId here other found
      rw [moved, settles] at here
      dsimp only at found
      rw [read] at found
      by_cases same : id = row.id
      · rw [if_pos same] at found
        cases found
        exact .inl pending
      · rw [if_neg same] at found
        rw [if_neg (Ne.symm same)] at here
        exact holds.pending id hasId here other found
    · intro id above
      dsimp only at above ⊢
      have none := holds.below id (by omega)
      rw [moved, settles, if_neg (by omega)]
      omega
    · intro start id hasId here
      rw [moved, settles] at here
      by_cases same : row.id = id
      · exact ⟨.inserted push message none, by simp, by simp [Handler.pushed, sameId, same]⟩
      · rw [if_neg same] at here
        exact replaced message none id (holds.own start id hasId here)

/-- The loader takes on pending messages that no one else has. -/
theorem OnceInv.query {state : AsyncState} (holds : OnceInv state)
    (at_ : state.loader = .starting)
    (first : ∀ id ∈ getAsyncPendingMessageIds state.messages,
      ∀ handler ∈ state.handlers, handler.pushed ≠ some id) :
    OnceInv { state with loader := .enqueueing (getAsyncPendingMessageIds state.messages) } := by
  have moved : ∀ id, AsyncState.waiting
      { state with loader := .enqueueing (getAsyncPendingMessageIds state.messages) } id =
        state.waiting id + (getAsyncPendingMessageIds state.messages).count id := by
    intro id
    simp [AsyncState.waiting, at_, Loader.ids]
    omega
  have settles : ∀ id, AsyncState.settling
      { state with loader := .enqueueing (getAsyncPendingMessageIds state.messages) } id =
        state.settling id := fun _ => rfl
  have single : ∀ id, (getAsyncPendingMessageIds state.messages).count id ≤ 1 := fun id =>
    List.nodup_iff_count.mp (getAsyncPendingMessageIds_nodup state.messages) id
  -- What the query lists waits nowhere else, for it would come from a handler.
  have apart : ∀ id, id ≠ 0 → id ∈ getAsyncPendingMessageIds state.messages →
      state.waiting id + state.settling id + state.handed.count id = 0 := by
    intro id hasId listed
    by_contra busy
    obtain ⟨handler, running, pushed⟩ := holds.own at_ id hasId (Nat.pos_of_ne_zero busy)
    exact first id listed handler running pushed
  have unlisted : ∀ id, id ∉ getAsyncPendingMessageIds state.messages →
      (getAsyncPendingMessageIds state.messages).count id = 0 := fun id => List.count_eq_zero.mpr
  refine ⟨?_, ?_, ?_, ?_, ?_⟩
  · intro id hasId
    rw [moved]
    by_cases listed : id ∈ getAsyncPendingMessageIds state.messages
    · have none := apart id hasId listed
      have one := single id
      dsimp only
      omega
    · rw [unlisted id listed]
      exact holds.once id hasId
  · intro id hasId
    rw [moved, settles]
    by_cases listed : id ∈ getAsyncPendingMessageIds state.messages
    · have none := apart id hasId listed
      have one := single id
      omega
    · rw [unlisted id listed]
      exact holds.alone id hasId
  · intro id hasId here row found
    by_cases listed : id ∈ getAsyncPendingMessageIds state.messages
    · obtain ⟨other, there, pending⟩ := mem_getAsyncPendingMessageIds.mp listed
      obtain rfl : other = row := Option.some.inj (there.symm.trans found)
      exact .inr pending
    · rw [moved, settles, unlisted id listed] at here
      exact holds.pending id hasId here row found
  · intro id above
    have notListed : id ∉ getAsyncPendingMessageIds state.messages := by
      intro listed
      obtain ⟨row, found, -⟩ := mem_getAsyncPendingMessageIds.mp listed
      rw [Table.rowAt_above state.messages above] at found
      cases found
    rw [moved, settles, unlisted id notListed]
    exact holds.below id above
  · intro start
    cases start

theorem OnceInv.step {state next : AsyncState} {label : AsyncLabel} (known : KnownIds state)
    (holds : OnceInv state) (permitted : LoadsBeforePushes state label)
    (transition : AsyncStep state label next) : OnceInv next := by
  cases transition with
  | delete | clear | crash => exact permitted.1.elim
  | call async withoutId =>
      refine holds.moves ?_ ?_ (fun _ _ _ _ found => .inr found) rfl ?_ id
      · intro id hasId
        simp [AsyncState.waiting, List.filterMap_cons, Handler.carries]
      · intro id hasId
        simp [AsyncState.waiting, AsyncState.settling, List.filterMap_cons, Handler.carries]
      · rintro id ⟨handler, listed, found⟩
        exact ⟨handler, by simp [listed], found⟩
  | refuse at_ refused =>
      exact holds.handler_moves at_ (fun _ _ => by simp [Handler.carries]) (by simp [Handler.pushed])
        (fun _ _ found => .inr found) rfl
  | insert at_ proceeds => exact holds.insert known at_
  | @mark before after push message error at_ =>
      refine holds.handler_moves at_ (fun _ _ => by simp [Handler.carries]) (by simp [Handler.pushed])
        (fun id row found => ?_) (counter_updateStatus _ _ _ _)
      rcases rowAt_updateStatus message messageSendStatusAsyncPending push.env.faults.updateStatus
        state.messages id with same | ⟨-, -, written⟩
      · exact .inr (same ▸ found)
      · rw [written] at found
        obtain ⟨old, -, rfl⟩ := Option.map_eq_some_iff.mp found
        exact .inl (.inr rfl)
  | enqueue at_ room =>
      exact holds.handler_moves at_ (fun _ _ => by simp [Handler.carries, List.count_singleton])
        (by simp [Handler.pushed]) (fun _ _ found => .inr found) rfl
  | answer at_ =>
      exact holds.handler_moves at_ (fun _ _ => by simp [Handler.carries]) (by simp [Handler.pushed])
        (fun _ _ found => .inr found) rfl
  | query at_ => exact holds.query at_ (permitted.2 rfl)
  | @load key rest at_ room =>
      refine holds.moves ?_ ?_ (fun _ _ _ _ found => .inr found) rfl (fun _ shown => shown) ?_
      · intro id hasId
        simp [AsyncState.waiting, at_, Loader.ids, List.count_cons]
        omega
      · intro id hasId
        simp [AsyncState.waiting, AsyncState.settling, at_, Loader.ids, List.count_cons]
        omega
      · simp
  | @take before after key rest at_ first =>
      refine holds.worker_moves at_ (fun id _ => ?_) fun id _ => ?_
      · simp only [first, Worker.waits, List.count_cons]
        simp
      · simp only [first, Worker.waits, Worker.settles, List.count_cons]
        simp
  | fetch at_ found =>
      obtain ⟨-, same⟩ := getMessageById_id found
      exact holds.worker_moves at_ (fun _ _ => by simp [Worker.waits, same])
        fun _ _ => by simp [Worker.waits, Worker.settles, same]
  | skip at_ failed =>
      exact holds.worker_moves at_ (fun _ _ => by simp [Worker.waits])
        fun _ _ => by simp [Worker.waits, Worker.settles]
  | hand at_ ready =>
      refine holds.worker_moves at_ (fun id _ => ?_) fun _ _ => by simp [Worker.waits, Worker.settles]
      simp [Worker.waits, List.count_singleton]
      omega
  | fail at_ failed =>
      exact holds.worker_moves at_ (fun _ _ => by simp [Worker.waits])
        fun _ _ => by simp [Worker.waits, Worker.settles]
  | settle at_ =>
      exact holds.worker_moves at_ (fun _ _ => by simp [Worker.waits])
        fun _ _ => by simp [Worker.waits, Worker.settles]
  | @finish before after message status failure at_ =>
      have settles : ∀ id, state.settling id =
          AsyncState.settling { state with workers := before ++ .idle :: after } id +
            if message.id = id then 1 else 0 := by
        intro id
        simp [AsyncState.settling, at_, List.filterMap_cons, Worker.settles, List.count_cons]
        omega
      have waits : ∀ id, state.waiting id =
          AsyncState.waiting { state with workers := before ++ .idle :: after } id := by
        intro id
        simp [AsyncState.waiting, at_, List.filterMap_cons, Worker.waits]
      refine holds.moves ?_ ?_ ?_ ?_ (fun _ shown => shown) id
      · intro id hasId
        rw [waits id]
        exact Nat.le_refl _
      · intro id hasId
        rw [waits id, settles id]
        exact Nat.add_le_add_left (Nat.le_add_right _ _) _
      · -- The written row is no longer anyone's, the others are as they were.
        intro id hasId here row found
        have here : 0 < AsyncState.waiting { state with workers := before ++ .idle :: after } id +
            AsyncState.settling { state with workers := before ++ .idle :: after } id := here
        have other : id ≠ message.id := by
          rintro rfl
          have one := holds.alone message.id hasId
          rw [waits, settles, if_pos rfl] at one
          omega
        exact .inr ((rowAt_updateStatus_of_ne message status failure state.messages other).symm.trans
          found)
      · exact counter_updateStatus _ _ _ _

/-- The status that a worker wrote. -/
def SettledStatus (status : Int) : Prop :=
  status = messageSendStatusSent ∨ status = messageSendStatusFailed

theorem SettledStatus.not_open {status : Int} (settled : SettledStatus status) :
    ¬ OpenStatus status := by
  simp only [SettledStatus, OpenStatus, messageSendStatusSent, messageSendStatusFailed,
    messageSendStatusPending, messageSendStatusAsyncPending] at *
  omega

/-- A step keeps a row that a worker has settled. -/
theorem OnceInv.keeps_settled {state next : AsyncState} {label : AsyncLabel}
    (known : KnownIds state) (holds : OnceInv state) (calm : label.Calm)
    (transition : AsyncStep state label next) {id : Int} {row : MessageRow}
    (found : state.messages.rowAt id = some row) (settled : SettledStatus row.status) :
    next.messages.rowAt id = some row := by
  cases transition with
  | delete | clear | crash => exact calm.elim
  | call | refuse | enqueue | answer | query | load | take | fetch | skip | hand | fail | settle =>
      exact found
  | @insert before after push at_ proceeds =>
      have withoutId : push.message.id = 0 := known.called (.called push) (by simp [at_]) push rfl
      exact push.insert_keeps withoutId found
  | @mark before after push message error at_ =>
      rcases rowAt_updateStatus message messageSendStatusAsyncPending push.env.faults.updateStatus
        state.messages id with same | ⟨rfl, hasId, -⟩
      · exact same.trans found
      · have here : 0 < state.waiting message.id + state.settling message.id := by
          have member : Handler.inserted push message error ∈ state.handlers := by simp [at_]
          exact Nat.add_pos_left (AsyncState.waiting_pos member rfl) _
        exact absurd (holds.pending message.id hasId here row found) settled.not_open
  | @finish before after message status failure at_ =>
      rcases rowAt_updateStatus message status failure state.messages id with same | ⟨rfl, hasId, -⟩
      · exact same.trans found
      · have here : 0 < state.waiting message.id + state.settling message.id := by
          have member : Worker.finishing message status ∈ state.workers := by simp [at_]
          exact Nat.add_pos_right _ (AsyncState.settling_pos member rfl)
        exact absurd (holds.pending message.id hasId here row found) settled.not_open

theorem OnceInv.initial {state : AsyncState} (valid : state.Initial) : OnceInv state := by
  obtain ⟨-, start⟩ := valid
  have idle : List.filterMap Worker.waits (List.replicate Channel.asyncMessageSenderNum .idle) = [] ∧
      List.filterMap Worker.settles (List.replicate Channel.asyncMessageSenderNum .idle) = [] := by
    simp [Channel.asyncMessageSenderNum, List.replicate, Worker.waits, Worker.settles]
  have empty : ∀ id, state.waiting id = 0 ∧ state.settling id = 0 ∧ state.handed = [] := by
    rw [start]
    simp [AsyncState.waiting, AsyncState.settling, Loader.ids, idle]
  refine ⟨?_, ?_, ?_, ?_, ?_⟩
  · intro id _
    simp [empty id]
  · intro id _
    simp [empty id]
  · intro id _ here
    simp [empty id] at here
  · intro id _
    simp [empty id]
  · intro _ id _ here
    simp [empty id] at here

theorem OnceInv.reachable {state : AsyncState}
    (reachable : (asyncDelivery.guard LoadsBeforePushes).Reachable state) : OnceInv state := by
  have preserved : ∀ {state label next}, KnownIds state → OnceInv state →
      LoadsBeforePushes state label → asyncDelivery.Step state label next → OnceInv next :=
    OnceInv.step
  exact reachable.guardInvariant KnownIds.reachable OnceInv.initial preserved

/-- In every run without crashes and deletions in which the loader's query lists no message of
this process: no message is handed to `SendMessage` twice, and a row whose status is Sent or
Failed stays as it is. -/
theorem async_atMostOnce {state : AsyncState}
    (reachable : (asyncDelivery.guard LoadsBeforePushes).Reachable state) :
    state.handed.Nodup ∧
      ∀ labels next, (asyncDelivery.guard LoadsBeforePushes).Runs state labels next →
        ∀ id row, state.messages.rowAt id = some row → SettledStatus row.status →
          next.messages.rowAt id = some row := by
  constructor
  · rw [List.nodup_iff_count]
    intro id
    by_cases hasId : id = 0
    · rw [hasId, List.count_eq_zero.mpr (KnownIds.reachable reachable.ofGuard).handed]
      omega
    · have once := (OnceInv.reachable reachable).once id hasId
      omega
  · intro labels next runs id row found settled
    induction runs with
    | refl => exact found
    | @step labels current label next prior transition ih =>
        have here := reachable.runs prior
        exact (OnceInv.reachable here).keeps_settled (KnownIds.reachable here.ofGuard)
          transition.1.1 transition.2 ih settled

/-! A handler marks its row, the loader's query lists it, and both put it on the queue. -/

theorem async_handed_twice :
    ∃ state, (asyncDelivery.guard fun _ label => label.Calm).Reachable state ∧
      ¬ state.handed.Nodup := by
  refine ⟨_, ⟨freshStart, _, freshStart_initial,
    .head ((@AsyncStep.call _ quietPush rfl rfl).permitted trivial) <|
    .head ((@AsyncStep.insert _ [] [] quietPush rfl quietPush_proceeds).permitted trivial) <|
    .head ((@AsyncStep.mark _ [] [] quietPush _ _ rfl).permitted trivial) <|
    .head ((AsyncStep.query rfl).permitted trivial) <|
    .head ((@AsyncStep.load _ 1 [] rfl (by decide)).permitted trivial) <|
    .head ((@AsyncStep.enqueue _ [] [] _ _ rfl (by decide)).permitted trivial) <|
    .head ((@AsyncStep.take _ [] [.idle] _ _ rfl rfl).permitted trivial) <|
    .head ((@AsyncStep.take _ [.taken 1] [] _ _ rfl rfl).permitted trivial) <|
    .head ((@AsyncStep.fetch _ [] [.taken 1] _ _ rfl rfl).permitted trivial) <|
    .head ((@AsyncStep.fetch _ [.loaded _] [] _ _ rfl rfl).permitted trivial) <|
    .head ((@AsyncStep.hand _ [] [.loaded _] _ quietUsers quietChannels _ rfl rfl).permitted
      trivial) <|
    .single ((@AsyncStep.hand _ [.sending _] [] _ quietUsers quietChannels _ rfl rfl).permitted
      trivial)⟩, ?_⟩
  decide

theorem async_atMostOnce_quietPush :
    ∃ state, (asyncDelivery.guard LoadsBeforePushes).Reachable state ∧ state.handed = [1] ∧
      state.handed.Nodup := by
  have reachable : (asyncDelivery.guard LoadsBeforePushes).Reachable _ :=
    ⟨freshStart, _, freshStart_initial,
      .head ((AsyncStep.query rfl).permitted
        ⟨trivial, fun _ _ _ _ running => absurd running List.not_mem_nil⟩) <|
      .head ((@AsyncStep.call _ quietPush rfl rfl).permitted ⟨trivial, by simp⟩) <|
      .head ((@AsyncStep.insert _ [] [] quietPush rfl quietPush_proceeds).permitted
        ⟨trivial, by simp⟩) <|
      .head ((@AsyncStep.mark _ [] [] quietPush _ _ rfl).permitted ⟨trivial, by simp⟩) <|
      .head ((@AsyncStep.enqueue _ [] [] _ _ rfl (by decide)).permitted ⟨trivial, by simp⟩) <|
      .head ((@AsyncStep.take _ [] [.idle] _ _ rfl rfl).permitted ⟨trivial, by simp⟩) <|
      .head ((@AsyncStep.fetch _ [] [.idle] _ _ rfl rfl).permitted ⟨trivial, by simp⟩) <|
      .single ((@AsyncStep.hand _ [] [.idle] _ quietUsers quietChannels _ rfl rfl).permitted
        ⟨trivial, by simp⟩)⟩
  exact ⟨_, reachable, by decide, (async_atMostOnce reachable).1⟩

end MessagePusher.Delivery
