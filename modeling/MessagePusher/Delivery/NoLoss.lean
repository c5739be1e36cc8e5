import MessagePusher.Delivery.AsyncQueue

/-!
# No acknowledged message is lost

With deletions and with crashes at any point, but without database faults. A row
that is pending is always in someone's hands, or on the list that the loader is
still to read; a crash drops the hands and starts the loader again. A message
whose push was answered with success keeps one of the three statuses until it is
deleted.
-/

namespace MessagePusher.Delivery

open Common Model Store Controller Semantics

/-- The database statement of the step, if any, does not fail. -/
def AsyncLabel.Faultless : AsyncLabel → Prop
  | .call push => push.env.faults.insert = none ∧ push.env.faults.updateStatus = none
  | .skip fault | .fail fault => fault = false
  | .finish failure => failure = none
  | _ => True

/-- The id that a worker holds, until the status is written. -/
def Worker.holds : Worker → Option Int
  | .idle => none
  | .taken key => some key
  | .loaded message | .sending message | .finishing message _ => some message.id

/-- A pending message is in the queue, with a worker, a handler or the loader, or the
loader's query has not run. -/
def Cared (state : AsyncState) (id : Int) : Prop :=
  id ∈ state.queue ∨ (∃ worker ∈ state.workers, worker.holds = some id) ∨
    (∃ handler ∈ state.handlers, handler.carries = some id) ∨
    id ∈ state.loader.ids ∨ state.loader = .starting

/-- A handler goes on with what it carries, and the rest stays. -/
theorem Cared.handler_moved {state next : AsyncState} {id : Int} {before after : List Handler}
    {old new : Handler} (cared : Cared state id) (at_ : state.handlers = before ++ old :: after)
    (moved : next.handlers = before ++ new :: after)
    (carries : old.carries = some id → new.carries = some id)
    (queue : next.queue = state.queue) (workers : next.workers = state.workers)
    (loader : next.loader = state.loader) : Cared next id := by
  rw [Cared, queue, workers, moved, loader]
  rcases cared with queued | worker | handler | rest
  · exact .inl queued
  · exact .inr (.inl worker)
  · rw [at_] at handler
    exact .inr (.inr (.inl (exists_mem_replace carries handler)))
  · exact .inr (.inr (.inr rest))

/-- A worker goes on with the message it holds, and the rest stays. -/
theorem Cared.worker_moved {state next : AsyncState} {id : Int} {before after : List Worker}
    {old new : Worker} (cared : Cared state id) (at_ : state.workers = before ++ old :: after)
    (moved : next.workers = before ++ new :: after)
    (holds : old.holds = some id → new.holds = some id)
    (queue : next.queue = state.queue) (handlers : next.handlers = state.handlers)
    (loader : next.loader = state.loader) : Cared next id := by
  rw [Cared, queue, handlers, moved, loader]
  rcases cared with queued | worker | others
  · exact .inl queued
  · rw [at_] at worker
    exact .inr (.inl (exists_mem_replace holds worker))
  · exact .inr (.inr others)

/-- A status that an acknowledged message may have. -/
def KeptStatus (status : Int) : Prop :=
  status = messageSendStatusAsyncPending ∨ status = messageSendStatusSent ∨
    status = messageSendStatusFailed

/-- The message was deleted or still has a row whose status is as required. -/
def Kept (accepts : Int → Prop) (state : AsyncState) (id : Int) : Prop :=
  id ∈ state.deleted ∨ ∃ row, state.messages.rowAt id = some row ∧ accepts row.status

/-- What a handler may rely on: its message is stored once the insertion went through, and
has one of the kept statuses once it is marked. -/
def Handler.Sound (state : AsyncState) : Handler → Prop
  | .called push => push.env.faults.updateStatus = none
  | .inserted push message error =>
      push.env.faults.updateStatus = none ∧
        (error = none → message.id ≠ 0 ∧ Kept (fun _ => True) state message.id)
  | .marked message error | .queued message error =>
      error = none → Kept KeptStatus state message.id
  | .answered _ _ => True

/-- The invariant that carries both halves. -/
structure KeepInv (state : AsyncState) : Prop where
  ids : state.messages.rowAt 0 = none
  cared : ∀ id row, state.messages.rowAt id = some row →
    row.status = messageSendStatusAsyncPending → Cared state id
  handlers : ∀ handler ∈ state.handlers, handler.Sound state
  workers : ∀ worker ∈ state.workers, ∀ message status, worker = .finishing message status →
    status = messageSendStatusSent ∨ status = messageSendStatusFailed
  acknowledged : ∀ id ∈ state.acknowledged, Kept KeptStatus state id

/-- A step that neither removes a kept message nor spoils its status keeps the sound
handlers sound. -/
theorem Handler.Sound.mono {state next : AsyncState} {handler : Handler}
    (sound : handler.Sound state)
    (stored : ∀ id, Kept (fun _ => True) state id → Kept (fun _ => True) next id)
    (kept : ∀ id, Kept KeptStatus state id → Kept KeptStatus next id) : handler.Sound next := by
  cases handler with
  | called push => exact sound
  | inserted push message error =>
      exact ⟨sound.1, fun done => ⟨(sound.2 done).1, stored _ (sound.2 done).2⟩⟩
  | marked message error => exact fun done => kept _ (sound done)
  | queued message error => exact fun done => kept _ (sound done)
  | answered message error => trivial

/-- Writing an accepted status keeps a row with an accepted status. -/
theorem accepted_updateStatus {accepts : Int → Prop} (message : Message) {status : Int}
    (accepted : accepts status) (failure : Option String) {messages : Messages} {id : Int}
    (stored : ∃ row, messages.rowAt id = some row ∧ accepts row.status) :
    ∃ row, (message.updateStatus status failure messages).1.rowAt id = some row ∧
      accepts row.status := by
  obtain ⟨row, found, fine⟩ := stored
  rcases rowAt_updateStatus message status failure messages id with same | ⟨-, -, written⟩
  · exact ⟨row, same.trans found, fine⟩
  · exact ⟨row.setStatus status, by rw [written, found]; rfl, accepted⟩

/-- No step takes a kept message away or spoils its status. -/
theorem Kept.step {accepts : Int → Prop} (closed : ∀ status, KeptStatus status → accepts status)
    {state next : AsyncState} {label : AsyncLabel} (known : KnownIds state)
    (holds : KeepInv state) (transition : AsyncStep state label next) {id : Int}
    (kept : Kept accepts state id) : Kept accepts next id := by
  cases transition with
  | call | refuse | enqueue | answer | query | load | take | fetch | skip | hand | fail | settle
  | crash => exact kept
  | @insert before after push at_ proceeds =>
      have withoutId : push.message.id = 0 := known.called (.called push) (by simp [at_]) push rfl
      refine kept.imp_right ?_
      rintro ⟨row, found, fine⟩
      exact ⟨row, push.insert_keeps withoutId found, fine⟩
  | @mark before after push message error at_ =>
      exact kept.imp_right (accepted_updateStatus message (closed _ (.inl rfl)) _)
  | @finish before after message status failure at_ =>
      have written := holds.workers (.finishing message status) (by simp [at_]) message status rfl
      exact kept.imp_right (accepted_updateStatus message (closed _ (.inr written)) _)
  | @delete key userId done =>
      rcases kept with gone | ⟨row, found, fine⟩
      · exact .inl (by simp [gone])
      · by_cases same : id = key
        · exact .inl (by simp [same])
        · exact .inr ⟨row, by simp [deleteMessageById_done done, same, found], fine⟩
  | clear =>
      rcases kept with gone | ⟨row, found, -⟩
      · exact .inl (by simp [gone])
      · have listed : id ∈ state.messages.rows.map MessageRow.id :=
          List.mem_map.mpr ⟨row, Table.rowAt_mem found, Table.rowAt_id found⟩
        exact .inl (List.mem_append_right _ listed)

/-- No step stores a row under the id zero. -/
theorem KeepInv.ids_step {state next : AsyncState} {label : AsyncLabel} (known : KnownIds state)
    (holds : KeepInv state) (transition : AsyncStep state label next) :
    next.messages.rowAt 0 = none := by
  have ids := holds.ids
  cases transition with
  | call | refuse | enqueue | answer | query | load | take | fetch | skip | hand | fail | settle
  | crash => exact ids
  | @insert before after push at_ proceeds =>
      have withoutId : push.message.id = 0 := known.called (.called push) (by simp [at_]) push rfl
      cases found : (push.insert state.messages).2.1.rowAt 0 with
      | none => rfl
      | some row =>
          have nonneg := state.messages.counterNonneg
          rcases push.insert_adds withoutId found with before | ⟨zero, -⟩
          · rw [ids] at before
            cases before
          · omega
  | @mark before after push message error at_ =>
      rcases rowAt_updateStatus message messageSendStatusAsyncPending push.env.faults.updateStatus
        state.messages 0 with same | ⟨zero, hasId, -⟩
      · exact same.trans ids
      · exact absurd zero.symm hasId
  | @finish before after message status failure at_ =>
      rcases rowAt_updateStatus message status failure state.messages 0 with
        same | ⟨zero, hasId, -⟩
      · exact same.trans ids
      · exact absurd zero.symm hasId
  | delete done => simp [deleteMessageById_done done, ids]
  | clear => exact Table.rowAt_clear state.messages 0

/-- Every message that is pending after a step is cared for. -/
theorem KeepInv.cared_step {state next : AsyncState} {label : AsyncLabel} (known : KnownIds state)
    (holds : KeepInv state) (faultless : label.Faultless)
    (transition : AsyncStep state label next) (id : Int) (row : MessageRow)
    (found : next.messages.rowAt id = some row)
    (pending : row.status = messageSendStatusAsyncPending) : Cared next id := by
  cases transition with
  | call =>
      rcases holds.cared id row found pending with queued | worker | ⟨handler, listed, carries⟩ | rest
      · exact .inl queued
      · exact .inr (.inl worker)
      · exact .inr (.inr (.inl ⟨handler, by simp [listed], carries⟩))
      · exact .inr (.inr (.inr rest))
  | refuse at_ _ | answer at_ =>
      exact (holds.cared id row found pending).handler_moved at_ rfl (by simp [Handler.carries])
        rfl rfl rfl
  | @insert before after push at_ proceeds =>
      have withoutId : push.message.id = 0 := known.called (.called push) (by simp [at_]) push rfl
      rcases push.insert_adds withoutId found with before | ⟨-, fresh⟩
      · exact (holds.cared id row before pending).handler_moved at_ rfl (by simp [Handler.carries])
          rfl rfl rfl
      · rw [fresh] at pending
        cases pending
  | @mark before after push message error at_ =>
      rcases rowAt_updateStatus message messageSendStatusAsyncPending push.env.faults.updateStatus
        state.messages id with same | ⟨rfl, -, -⟩
      · exact (holds.cared id row (same.symm.trans found) pending).handler_moved at_ rfl
          (by simp [Handler.carries]) rfl rfl rfl
      · exact .inr (.inr (.inl ⟨.marked message error, by simp, rfl⟩))
  | @enqueue before after message error at_ room =>
      rcases holds.cared id row found pending with queued | worker | handler | rest
      · exact .inl (by simp [queued])
      · exact .inr (.inl worker)
      · by_cases same : message.id = id
        · exact .inl (by simp [same])
        · rw [at_] at handler
          exact .inr (.inr (.inl (exists_mem_replace (by simp [Handler.carries, same]) handler)))
      · exact .inr (.inr (.inr rest))
  | query at_ =>
      exact .inr (.inr (.inr (.inl (mem_getAsyncPendingMessageIds.mpr ⟨row, found, pending⟩))))
  | @load key rest at_ room =>
      rcases holds.cared id row found pending with queued | worker | handler | listed | starting
      · exact .inl (by simp [queued])
      · exact .inr (.inl worker)
      · exact .inr (.inr (.inl handler))
      · rw [at_] at listed
        rcases List.mem_cons.mp listed with rfl | later
        · exact .inl (by simp)
        · exact .inr (.inr (.inr (.inl later)))
      · rw [at_] at starting
        cases starting
  | @take before after key rest at_ first =>
      rcases holds.cared id row found pending with queued | worker | others
      · rw [first] at queued
        rcases List.mem_cons.mp queued with rfl | later
        · exact .inr (.inl ⟨.taken id, by simp, rfl⟩)
        · exact .inl later
      · rw [at_] at worker
        exact .inr (.inl (exists_mem_replace (by simp [Worker.holds]) worker))
      · exact .inr (.inr others)
  | @fetch before after key message at_ loaded =>
      obtain ⟨-, same⟩ := getMessageById_id loaded
      exact (holds.cared id row found pending).worker_moved at_ rfl (by simp [Worker.holds, same])
        rfl rfl rfl
  | @skip before after key fault at_ failed =>
      have missing : ∃ text, getMessageById state.messages key = .error text :=
        failed.resolve_left (by rw [faultless]; simp)
      have other : key ≠ id := by
        rintro rfl
        obtain ⟨text, error⟩ := missing
        have hasId : key ≠ 0 := by
          rintro rfl
          rw [holds.ids] at found
          cases found
        simp [getMessageById, hasId, found] at error
      exact (holds.cared id row found pending).worker_moved at_ rfl (by simp [Worker.holds, other])
        rfl rfl rfl
  | hand at_ _ | fail at_ _ | settle at_ =>
      exact (holds.cared id row found pending).worker_moved at_ rfl (by simp [Worker.holds])
        rfl rfl rfl
  | @finish before after message status failure at_ =>
      obtain rfl : failure = none := faultless
      have written := holds.workers (.finishing message status) (by simp [at_]) message status rfl
      have hasId := known.worker (.finishing message status) (by simp [at_]) message rfl
      have other : message.id ≠ id := by
        rintro rfl
        dsimp only at found
        rw [rowAt_updateStatus_self message status state.messages hasId] at found
        obtain ⟨old, -, rfl⟩ := Option.map_eq_some_iff.mp found
        simp only [MessageRow.setStatus, messageSendStatusAsyncPending] at pending
        simp only [messageSendStatusSent, messageSendStatusFailed] at written
        omega
      have same := rowAt_updateStatus_of_ne message status none state.messages (Ne.symm other)
      exact (holds.cared id row (same.symm.trans found) pending).worker_moved at_ rfl
        (by simp [Worker.holds, other]) rfl rfl rfl
  | @delete key userId done =>
      dsimp only at found
      rw [deleteMessageById_done done, Table.rowAt_delete] at found
      split_ifs at found
      exact holds.cared id row found pending
  | clear =>
      have gone : (deleteAllMessages state.messages).rowAt id = none :=
        Table.rowAt_clear state.messages id
      cases gone.symm.trans found
  | crash => exact .inr (.inr (.inr (.inr rfl)))

theorem KeepInv.workers_step {state next : AsyncState} {label : AsyncLabel}
    (holds : KeepInv state) (transition : AsyncStep state label next) :
    ∀ worker ∈ next.workers, ∀ message status, worker = .finishing message status →
      status = messageSendStatusSent ∨ status = messageSendStatusFailed := by
  have workers := holds.workers
  cases transition with
  | call | refuse | insert | mark | enqueue | answer | query | load | delete | clear =>
      exact workers
  | take at_ _ | fetch at_ _ | skip at_ _ | hand at_ _ | finish at_ =>
      rw [at_] at workers
      exact forall_mem_replace workers (by simp)
  | fail at_ _ =>
      rw [at_] at workers
      refine forall_mem_replace workers ?_
      rintro _ _ ⟨⟩
      exact .inr rfl
  | @settle before after message error at_ =>
      rw [at_] at workers
      refine forall_mem_replace workers ?_
      rintro _ _ ⟨⟩
      unfold Channel.asyncStatus
      split_ifs
      · exact .inl rfl
      · exact .inr rfl
  | crash =>
      intro worker listed
      rw [List.eq_of_mem_replicate listed]
      simp

/-- The handlers of the state after a step are sound. -/
theorem KeepInv.handlers_step {state next : AsyncState} {label : AsyncLabel}
    (known : KnownIds state) (holds : KeepInv state) (faultless : label.Faultless)
    (transition : AsyncStep state label next) : ∀ handler ∈ next.handlers, handler.Sound next := by
  have old : ∀ handler ∈ state.handlers, handler.Sound next := fun handler listed =>
    (holds.handlers handler listed).mono
      (fun _ => Kept.step (fun _ _ => trivial) known holds transition)
      (fun _ => Kept.step (fun _ => id) known holds transition)
  cases transition with
  | @call push async withoutId =>
      intro handler listed
      rcases List.mem_append.mp listed with before | new
      · exact old handler before
      · rw [List.mem_singleton.mp new]
        exact faultless.2
  | refuse at_ _ | answer at_ =>
      rw [at_] at old
      exact forall_mem_replace old trivial
  | @insert before after push at_ proceeds =>
      have withoutId : push.message.id = 0 := known.called (.called push) (by simp [at_]) push rfl
      have noFault : push.env.faults.updateStatus = none :=
        holds.handlers (.called push) (by simp [at_])
      rw [at_] at old
      refine forall_mem_replace old ⟨noFault, ?_⟩
      rcases push.insert_cases state.messages withoutId with
        ⟨message, text, failed, -⟩ | ⟨message, table, stored, done, inserted, sameId, isNext, -⟩
      · simp [failed]
      · rw [done]
        intro _
        have nonneg := state.messages.counterNonneg
        refine ⟨by dsimp only; omega, .inr ⟨stored, ?_, trivial⟩⟩
        dsimp only
        rw [Table.rowAt_insert inserted, MessageRow.record_id, sameId, if_pos rfl]
  | @mark before after push message error at_ =>
      obtain ⟨noFault, inserted⟩ := holds.handlers (.inserted push message error) (by simp [at_])
      rw [at_] at old
      refine forall_mem_replace old ?_
      intro done
      obtain ⟨hasId, gone | ⟨row, found, -⟩⟩ := inserted done
      · exact .inl gone
      · refine .inr ⟨row.setStatus messageSendStatusAsyncPending, ?_, .inl rfl⟩
        dsimp only
        rw [noFault, rowAt_updateStatus_self message _ state.messages hasId, found]
        rfl
  | @enqueue before after message error at_ room =>
      have sound := old (.marked message error) (by simp [at_])
      rw [at_] at old
      exact forall_mem_replace old sound
  | query | load | take | fetch | skip | hand | fail | settle | finish | delete | clear =>
      exact old
  | crash => simp

theorem KeepInv.acknowledged_step {state next : AsyncState} {label : AsyncLabel}
    (known : KnownIds state) (holds : KeepInv state) (transition : AsyncStep state label next) :
    ∀ id ∈ next.acknowledged, Kept KeptStatus next id := by
  have kept : ∀ id, Kept KeptStatus state id → Kept KeptStatus next id :=
    fun _ => Kept.step (fun _ => id) known holds transition
  have old : ∀ id ∈ state.acknowledged, Kept KeptStatus next id :=
    fun id listed => kept id (holds.acknowledged id listed)
  cases transition with
  | @answer before after message error at_ =>
      have sound := holds.handlers (.queued message error) (by simp [at_])
      intro id listed
      dsimp only at listed
      split_ifs at listed with done
      · rcases List.mem_append.mp listed with before | new
        · exact old id before
        · rw [List.mem_singleton.mp new]
          exact kept message.id (sound done)
      · exact old id listed
  | _ => exact old

theorem KeepInv.step {state next : AsyncState} {label : AsyncLabel} (known : KnownIds state)
    (holds : KeepInv state) (faultless : label.Faultless)
    (transition : AsyncStep state label next) : KeepInv next where
  ids := holds.ids_step known transition
  cared := holds.cared_step known faultless transition
  handlers := holds.handlers_step known faultless transition
  workers := holds.workers_step transition
  acknowledged := holds.acknowledged_step known transition

theorem KeepInv.initial {state : AsyncState} (valid : state.Initial) : KeepInv state := by
  obtain ⟨ids, start⟩ := valid
  rw [start]
  refine ⟨Table.rowAt_eq_none_iff.mpr ids, ?_, by simp, ?_, by simp⟩
  · intro id row found pending
    exact .inr (.inr (.inr (.inr rfl)))
  · intro worker listed
    rw [List.eq_of_mem_replicate listed]
    simp

/-- In every state that is reached without a database fault, crashes and deletions
notwithstanding, every pending row is cared for, and every message whose push was answered with
success is pending, sent or failed, or was deleted. -/
theorem async_noLoss {state : AsyncState}
    (reachable : (asyncDelivery.guard fun _ label => label.Faultless).Reachable state) :
    (∀ row ∈ state.messages.rows, row.status = messageSendStatusAsyncPending →
      Cared state row.id) ∧
    ∀ id ∈ state.acknowledged, id ∈ state.deleted ∨
      ∃ row, state.messages.rowAt id = some row ∧ KeptStatus row.status := by
  have preserved : ∀ {state label next}, KnownIds state → KeepInv state →
      label.Faultless → asyncDelivery.Step state label next → KeepInv next := KeepInv.step
  have holds : KeepInv state :=
    reachable.guardInvariant KnownIds.reachable KeepInv.initial preserved
  exact ⟨fun row member => holds.cared row.id row (Table.rowAt_of_mem member), holds.acknowledged⟩

/-- The push is answered, the process crashes, and the loader of the next one lists the message. -/
theorem async_noLoss_crash :
    ∃ state, (asyncDelivery.guard fun _ label => label.Faultless).Reachable state ∧
      state.acknowledged = [1] ∧
      ((∀ row ∈ state.messages.rows, row.status = messageSendStatusAsyncPending →
        Cared state row.id) ∧
      ∀ id ∈ state.acknowledged, id ∈ state.deleted ∨
        ∃ row, state.messages.rowAt id = some row ∧ KeptStatus row.status) := by
  have reachable : (asyncDelivery.guard fun _ label => label.Faultless).Reachable _ :=
    ⟨freshStart, _, freshStart_initial,
      .head ((@AsyncStep.call _ quietPush rfl rfl).permitted ⟨rfl, rfl⟩) <|
      .head ((@AsyncStep.insert _ [] [] quietPush rfl quietPush_proceeds).permitted trivial) <|
      .head ((@AsyncStep.mark _ [] [] quietPush _ _ rfl).permitted trivial) <|
      .head ((@AsyncStep.enqueue _ [] [] _ _ rfl (by decide)).permitted trivial) <|
      .head ((@AsyncStep.answer _ [] [] _ _ rfl).permitted trivial) <|
      .head (AsyncStep.crash.permitted trivial) <|
      .single ((AsyncStep.query rfl).permitted trivial)⟩
  exact ⟨_, reachable, by decide, async_noLoss reachable⟩

end MessagePusher.Delivery
