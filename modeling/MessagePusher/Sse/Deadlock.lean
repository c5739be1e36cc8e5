import MessagePusher.Sse.Streams

/-!
# A send that blocks under the lock

`syncMessageToUser` sends while it holds the read lock, and a stream that has left `c.Stream`
waits for the write lock and does not receive any more. `RoomLeft` is the condition under which
no such send is without room; where it fails, the sends that are under way fill the channel.
-/

namespace MessagePusher.Sse

open Model Controller Semantics

/-- A call sends on the full channel, and the stream of the channel waits for the write lock,
which is its own or another stream's to take first. -/
def StuckOn (state : SseState) (channel : Nat) : Prop :=
  ∃ stream, state.streams channel = some stream ∧ stream.phase = .leaving ∧
    state.lock.writer ≠ none ∧ stream.buffer.length = messageChanBufferSize ∧
      ∃ call ∈ state.lock.holding, call.stage = .sending channel

def Stuck (state : SseState) : Prop :=
  ∃ channel, StuckOn state channel

/-- A stream that leaves, and one that has left and is found in the map, has room for all that is
sent to it. -/
def RoomLeft (state : SseState) : SseLabel → Prop
  | .loop channel => ∀ stream, state.streams channel = some stream → stream.clientGone = true →
      state.senders channel + stream.buffer.length ≤ messageChanBufferSize
  | .lookup _ userId => ∀ channel stream, state.store userId = some channel →
      state.streams channel = some stream → stream.phase = .leaving →
        state.senders channel + stream.buffer.length < messageChanBufferSize
  | _ => True

/-- The streams that have left have room for all that is sent to them. -/
def Roomy (state : SseState) : Prop :=
  ∀ channel stream, state.streams channel = some stream → stream.phase = .leaving →
    state.senders channel + stream.buffer.length ≤ messageChanBufferSize

variable {state next : SseState} {channel : Nat} {stream after : Stream}

/-- The sends on a channel when one call has moved on. -/
theorem senders_withHolding {before later : List SyncCall} {old : SyncCall}
    (running : state.lock.holding = before ++ old :: later) (new : SyncCall) (channel : Nat) :
    SseState.senders { state with lock := state.lock.withHolding (before ++ new :: later) } channel +
        (if old.stage = .sending channel then 1 else 0) =
      state.senders channel + if new.stage = .sending channel then 1 else 0 := by
  simp only [SseState.senders, ReadWriteLock.withHolding_holding, running, List.countP_append,
    List.countP_cons, SseState.sendsOn, decide_eq_true_eq]
  omega

/-- A send is one send less on its channel. -/
theorem senders_send {message : Message} {userId : Int} {before later : List SyncCall}
    (running : state.lock.holding =
      before ++ { message, userId, stage := .sending channel } :: later) (other : Nat) :
    SseState.senders
        { state with
          lock := state.lock.withHolding
            (before ++ { message, userId, stage := .returning } :: later) } other +
      (if other = channel then 1 else 0) = state.senders other := by
  have counts := senders_withHolding running { message, userId, stage := .returning } other
  simpa [eq_comm] using counts

/-- A call that asks for the lock does not send. -/
theorem senders_sync (message : Message) (userId : Int) (channel : Nat) :
    SseState.senders { state with lock := state.lock.readLock { message, userId } } channel =
      state.senders channel := by
  rcases state.lock.readLock_cases { message, userId } with ⟨holding, -⟩ | ⟨holding, -⟩
  · simp [SseState.senders, holding, SseState.sendsOn]
  · simp [SseState.senders, holding]

theorem senders_pos (channel : Nat) :
    0 < state.senders channel ↔ ∃ call ∈ state.lock.holding, call.stage = .sending channel := by
  simp [SseState.senders, SseState.sendsOn, List.countP_pos_iff]

theorem Roomy.not_stuck (roomy : Roomy state) : ¬ Stuck state := by
  rintro ⟨channel, stream, found, phase, -, full, sends⟩
  have bound := roomy channel stream found phase
  have some_ := (senders_pos channel).mpr sends
  omega

namespace Roomy

/-- A change of a stream after which it has not left, or has as many messages as before. -/
theorem put (roomy : Roomy state) (found : state.streams channel = some stream)
    (left : after.phase = .leaving → stream.phase = .leaving ∧ after.buffer = stream.buffer) :
    Roomy (state.put channel after) := by
  refine forall_put roomy fun phase => ?_
  obtain ⟨before, same⟩ := left phase
  rw [same]
  exact roomy channel stream found before

/-- After a critical section no call is sending. -/
theorem of_release (inv : SseInv next) (quiet : ∀ channel, next.senders channel = 0) :
    Roomy next := by
  intro channel stream found _
  have bounded := (inv.streams channel stream found).bounded
  rw [quiet]
  omega

end Roomy

theorem senders_release (inv : SseInv state) (granted : state.lock.Grants channel)
    (same : next.lock = state.lock.release) (other : Nat) : next.senders other = 0 := by
  rw [SseState.senders, same, List.countP_eq_zero]
  intro call holds
  simpa [SseState.sendsOn] using inv.nobody_sends granted other call holds

/-- A stream at the head of its loop leaves with room exactly when it may. -/
theorem roomy_loop_iff (roomy : Roomy state) (found : state.streams channel = some stream) :
    Roomy (state.put channel stream.loop) ↔ RoomLeft state (.loop channel) := by
  constructor
  · intro after shown there gone
    rw [found] at there
    cases there
    exact after channel stream.loop put_streams_self (by rw [Stream.loop, gone]; rfl)
  · intro permitted other shown there phase
    by_cases own : other = channel
    · subst own
      rw [put_streams_self] at there
      cases there
      refine permitted stream found ?_
      rw [Stream.loop] at phase
      by_contra stays
      simp [stays] at phase
    · rw [put_streams_of_ne own] at there
      exact roomy other shown there phase

/-- A call that finds a stream finds room exactly when it may. -/
theorem roomy_lookup_iff (roomy : Roomy state) {message : Message} {userId : Int}
    {before later : List SyncCall}
    (running : state.lock.holding = before ++ { message, userId } :: later) :
    Roomy { state with
        lock := state.lock.withHolding
          (before ++ SyncCall.lookup { message, userId } state.store :: later) } ↔
      RoomLeft state (.lookup message userId) := by
  have counts := senders_withHolding running (SyncCall.lookup { message, userId } state.store)
  have before : ∀ channel, ({ message, userId } : SyncCall).stage ≠ .sending channel := by
    rintro channel ⟨⟩
  simp only [if_neg (before _), SyncCall.lookup_sending_iff, Nat.add_zero] at counts
  constructor
  · intro after channel stream known found phase
    have bound := after channel stream found phase
    rw [counts, if_pos known] at bound
    omega
  · intro permitted channel stream found phase
    rw [counts]
    by_cases known : state.store userId = some channel
    · have bound := permitted channel stream known found phase
      rw [if_pos known]
      omega
    · rw [if_neg known]
      exact roomy channel stream found phase

/-- In a state with room, the next one has room exactly when the step may be taken. -/
theorem roomy_step_iff {label : SseLabel} (inv : SseInv state) (roomy : Roomy state)
    (step : sse.Step state label next) : Roomy next ↔ RoomLeft state label := by
  have invNext : SseInv next := inv.step step
  cases step with
  | getNewMessages fresh =>
      exact iff_of_true (forall_put roomy fun left => by cases left) trivial
  | callLock => exact iff_of_true roomy trivial
  | add found phase granted =>
      exact iff_of_true (.of_release invNext (senders_release inv granted rfl)) trivial
  | loop found phase => exact roomy_loop_iff roomy found
  | receive found phase ready =>
      have back := (inv.receive found phase ready).1
      exact iff_of_true (roomy.put found fun left => by rw [back] at left; cases left) trivial
  | disconnect found => exact iff_of_true (roomy.put found fun left => ⟨left, rfl⟩) trivial
  | remove found phase granted =>
      exact iff_of_true (.of_release invNext (senders_release inv granted rfl)) trivial
  | close found phase => exact iff_of_true (roomy.put found fun left => by cases left) trivial
  | @sync message userId =>
      refine iff_of_true (fun channel stream found phase => ?_) trivial
      rw [senders_sync]
      exact roomy channel stream found phase
  | lookup running => exact roomy_lookup_iff roomy running
  | @send message userId channel before later stream running found room =>
      refine iff_of_true ?_ trivial
      refine forall_put (fun other shown there phase => ?_) fun phase => ?_
      · have count := senders_send running other
        have bound := roomy other shown there phase
        exact Nat.le_trans (Nat.add_le_add_right (Nat.le.intro count) _) bound
      · have count := senders_send running channel
        have bound := roomy channel stream found phase
        rw [if_pos rfl] at count
        rw [Stream.push, List.length_append, List.length_singleton]
        show SseState.senders { state with lock := _ } channel + _ ≤ _
        omega
  | sendClosed running found closed =>
      rw [inv.closes_of_sending running found] at closed
      cases closed
  | @unlock message userId before later running =>
      refine iff_of_true (fun channel stream found phase => ?_) trivial
      have same : SseState.senders
          { state with lock := state.lock.withHolding (before ++ later) } channel =
            state.senders channel := by
        simp [SseState.senders, running, SseState.sendsOn]
      rw [same]
      exact roomy channel stream found phase

/-! ### Where room is missing -/

/-- A channel with room takes one of the messages that are sent to it. -/
theorem send_goes_on (inv : SseInv state) (found : state.streams channel = some stream)
    (room : stream.buffer.length < messageChanBufferSize) (sends : 0 < state.senders channel) :
    ∃ label next pushed, sse.Step state label next ∧ next.streams channel = some pushed ∧
      pushed.phase = stream.phase ∧ pushed.buffer.length = stream.buffer.length + 1 ∧
        next.senders channel + 1 = state.senders channel := by
  obtain ⟨⟨message, userId, stage⟩, holds, sending⟩ := (senders_pos channel).mp sends
  subst sending
  obtain ⟨before, later, running⟩ := List.append_of_mem holds
  have closes : stream.closes = 0 := inv.closes_of_sending running found
  have count := senders_send running channel
  rw [if_pos rfl] at count
  refine ⟨_, _, stream.push message, .send running found ⟨closes, room⟩, put_streams_self, rfl, ?_,
    count⟩
  rw [Stream.push, List.length_append, List.length_singleton]

/-- The sends on a channel without room for all of them go on until one is stuck. -/
theorem sends_until_stuck (inv : SseInv state) (found : state.streams channel = some stream)
    (phase : stream.phase = .leaving)
    (excess : messageChanBufferSize < state.senders channel + stream.buffer.length) :
    ∃ labels stuck, sse.Runs state labels stuck ∧ Stuck stuck := by
  obtain ⟨room, filled⟩ : ∃ room, room + stream.buffer.length = messageChanBufferSize :=
    ⟨_, Nat.sub_add_cancel (inv.streams channel stream found).bounded⟩
  have sends : 0 < state.senders channel := by omega
  -- on the room that is left; each send takes one of it and leaves the excess as it is
  induction room generalizing state stream with
  | zero =>
      have full : stream.buffer.length = messageChanBufferSize := by omega
      have blocked := (senders_pos channel).mp sends
      cases announced : state.lock.writer with
      | none =>
          refine ⟨_, _, .single (.callLock found (.inr phase) announced), ?_⟩
          exact ⟨channel, stream, found, phase, by simp, full, blocked⟩
      | some writer =>
          refine ⟨[], state, .refl, ?_⟩
          exact ⟨channel, stream, found, phase, by simp [announced], full, blocked⟩
  | succ room ih =>
      obtain ⟨label, next, pushed, step, there, same, longer, fewer⟩ :=
        send_goes_on inv found (by omega) sends
      obtain ⟨labels, stuck, runs, done⟩ := ih (inv.step step) there (same.trans phase) (by omega)
        (by omega) (by omega)
      exact ⟨label :: labels, stuck, .head step runs, done⟩

/-- A step that leaves no room leads to a call that is stuck. -/
theorem stuck_of_not_roomLeft {label : SseLabel} (inv : SseInv state)
    (step : sse.Step state label next) (without : ¬ RoomLeft state label) :
    ∃ labels stuck, sse.Runs next labels stuck ∧ Stuck stuck := by
  have invNext : SseInv next := inv.step step
  cases step with
  | @loop channel stream found phase =>
      simp only [RoomLeft, not_forall, Nat.not_le] at without
      obtain ⟨shown, there, gone, excess⟩ := without
      rw [found] at there
      cases there
      have left : stream.loop.phase = .leaving := by
        rw [Stream.loop, gone]
        rfl
      exact sends_until_stuck invNext put_streams_self left excess
  | @lookup message userId before later running =>
      simp only [RoomLeft, not_forall, Nat.not_lt] at without
      obtain ⟨channel, stream, known, found, phase, full⟩ := without
      have count := senders_withHolding running
        (SyncCall.lookup { message, userId } state.store) channel
      rw [if_pos (SyncCall.lookup_sending_iff.mpr known)] at count
      refine sends_until_stuck invNext found phase ?_
      simp at count
      omega
  | getNewMessages => exact absurd trivial without
  | callLock => exact absurd trivial without
  | add => exact absurd trivial without
  | receive => exact absurd trivial without
  | disconnect => exact absurd trivial without
  | remove => exact absurd trivial without
  | close => exact absurd trivial without
  | sync => exact absurd trivial without
  | send => exact absurd trivial without
  | sendClosed => exact absurd trivial without
  | unlock => exact absurd trivial without

/-- In every run in which streams leave with room, and are found with room once they have left,
no call is stuck; a step without that room leads to one that is. -/
theorem sync_never_stuck (reachable : (sse.guard RoomLeft).Reachable state) :
    ¬ Stuck state ∧
      ∀ label next, sse.Step state label next → ¬ RoomLeft state label →
        ∃ labels stuck, sse.Runs next labels stuck ∧ Stuck stuck := by
  have initial : ∀ {state}, sse.Initial state → Roomy state := by
    rintro state rfl channel stream found
    cases found
  have roomy : Roomy state :=
    reachable.guardInvariant SseInv.reachable initial
      fun inv roomy permitted step => (roomy_step_iff inv roomy step).mpr permitted
  exact ⟨roomy.not_stuck,
    fun _ _ step without => stuck_of_not_roomLeft (SseInv.reachable reachable.ofGuard) step without⟩

/-- A message is under way to a stream that leaves with room for it. -/
theorem sync_never_stuck_leaving :
    ∃ state, ¬ Stuck state ∧ state.senders 0 = 1 ∧ state.lock.writer = some 0 ∧
      ∃ stream, state.streams 0 = some stream ∧ stream.phase = .leaving := by
  have opened := listening_guarded RoomLeft trivial trivial trivial
  have called := opened.permit (@SseStep.sync _ { id := 1 } 1) trivial
  have found := called.permit (@SseStep.lookup _ { id := 1 } 1 [] [] rfl)
    fun _ _ entry there phase => by cases entry; cases there; cases phase
  have gone := found.permit (@SseStep.disconnect _ 0 _ rfl) trivial
  have leaves := gone.permit (@SseStep.loop _ 0 _ rfl rfl)
    fun _ there _ => by cases there; decide
  have locks := leaves.permit (@SseStep.callLock _ 0 _ rfl (.inr rfl) rfl) trivial
  exact ⟨_, (sync_never_stuck locks).1, rfl, rfl, _, rfl, rfl⟩

/-! ### Nothing helps -/

/-- A call is still there when another one has moved on or left. -/
theorem still_sends {before later rest : List SyncCall} {old call : SyncCall}
    (running : state.lock.holding = before ++ old :: later) (holds : call ∈ state.lock.holding)
    (sends : call.stage = .sending channel) (moved : old.stage ≠ .sending channel)
    (kept : ∀ other, other ∈ before ∨ other ∈ later → other ∈ rest) : call ∈ rest := by
  rw [running] at holds
  rcases List.mem_append.mp holds with earlier | after
  · exact kept call (.inl earlier)
  · rcases List.mem_cons.mp after with rfl | there
    · exact absurd sends moved
    · exact kept call (.inr there)

/-- A stream that is stuck does not move, so a change of one is a change of another, or its
client goes. -/
theorem StuckOn.put (stuck : StuckOn state channel) {other : Nat} {before : Stream}
    (found : state.streams other = some before)
    (still : before.phase = .leaving → after.phase = .leaving ∧ after.buffer = before.buffer) :
    StuckOn (state.put other after) channel := by
  obtain ⟨stream, there, phase, waits, full, sends⟩ := stuck
  by_cases own : channel = other
  · subst own
    rw [found] at there
    cases there
    obtain ⟨left, same⟩ := still phase
    exact ⟨after, put_streams_self, left, waits, same ▸ full, sends⟩
  · exact ⟨stream, (put_streams_of_ne own).trans there, phase, waits, full, sends⟩

/-- Once a call is stuck it stays so: neither the stream nor the call can move. -/
theorem StuckOn.step {label : SseLabel} (inv : SseInv state) (stuck : StuckOn state channel)
    (step : sse.Step state label next) : StuckOn next channel := by
  have ⟨stream, there, phase, waits, full, call, holds, sends⟩ := stuck
  cases step with
  | @getNewMessages other userId fresh =>
      have apart : channel ≠ other := by
        rintro rfl
        rw [there] at fresh
        cases fresh
      exact ⟨stream, (put_streams_of_ne apart).trans there, phase, waits, full, call, holds, sends⟩
  | callLock found calls free => exact absurd free waits
  | add found adding granted => exact absurd granted (ReadWriteLock.not_grants holds)
  | loop found looping => exact stuck.put found fun left => by rw [looping] at left; cases left
  | receive found receiving ready =>
      exact stuck.put found fun left => by rw [receiving] at left; cases left
  | disconnect found => exact stuck.put found fun left => ⟨left, rfl⟩
  | remove found leaving granted => exact absurd granted (ReadWriteLock.not_grants holds)
  | close found removed => exact stuck.put found fun left => by rw [removed] at left; cases left
  | @sync message userId =>
      refine ⟨stream, there, phase, by simpa using waits, full, call, ?_, sends⟩
      rcases state.lock.readLock_cases { message, userId } with ⟨holding, -⟩ | ⟨holding, -⟩
      · show call ∈ (state.lock.readLock { message, userId }).holding
        rw [holding]
        exact List.mem_append_left _ holds
      · show call ∈ (state.lock.readLock { message, userId }).holding
        rw [holding]
        exact holds
  | lookup running =>
      refine ⟨stream, there, phase, waits, full, call, ?_, sends⟩
      exact still_sends running holds sends (by rintro ⟨⟩) (by simp; tauto)
  | @send message userId other before later target running found room =>
      have apart : channel ≠ other := by
        rintro rfl
        rw [there] at found
        cases found
        exact absurd room.2 (by omega)
      refine ⟨stream, (put_streams_of_ne apart).trans there, phase, waits, full, call, ?_, sends⟩
      exact still_sends running holds sends (by rintro ⟨⟩; exact apart rfl) (by simp; tauto)
  | sendClosed running found closed =>
      rw [inv.closes_of_sending running found] at closed
      cases closed
  | unlock running =>
      refine ⟨stream, there, phase, waits, full, call, ?_, sends⟩
      exact still_sends running holds sends (by rintro ⟨⟩) (by simp)

/-- The deadlock is for good. -/
theorem stuck_forever {labels : List SseLabel} (reachable : sse.Reachable state)
    (stuck : StuckOn state channel) (runs : sse.Runs state labels next) : StuckOn next channel := by
  have preserved : ∀ {state label next}, SseInv state ∧ StuckOn state channel →
      sse.Step state label next → SseInv next ∧ StuckOn next channel :=
    fun both step => ⟨both.1.step step, both.2.step both.1 step⟩
  exact (runs.invariant preserved ⟨SseInv.reachable reachable, stuck⟩).2

/-! ### Eleven messages -/

/-- A call for the user of a stream gets as far as its send. -/
theorem call_arrives {userId : Int} (known : state.store userId = some channel)
    (free : state.lock.writer = none) :
    ∃ labels next, sse.Runs state labels next ∧ next.streams = state.streams ∧
      next.store = state.store ∧ next.lock.writer = none ∧
        next.senders channel = state.senders channel + 1 := by
  let call : SyncCall := { message := {}, userId }
  let locked : SseState := { state with lock := state.lock.readLock call }
  have holding : locked.lock.holding = state.lock.holding ++ call :: [] :=
    ReadWriteLock.readLock_of_free free call
  have asks : sse.Step state (.sync {} userId) locked := .sync
  have count := senders_withHolding holding (call.lookup locked.store) channel
  rw [if_pos (SyncCall.lookup_sending_iff.mpr known), senders_sync,
    if_neg (by rintro ⟨⟩), Nat.add_zero] at count
  exact ⟨_, _, (System.Runs.single asks).step (.lookup holding), rfl, rfl,
    (ReadWriteLock.readLock_writer call).trans free, count⟩

theorem calls_pile_up {userId : Int} (known : state.store userId = some channel)
    (free : state.lock.writer = none) (count : Nat) :
    ∃ labels next, sse.Runs state labels next ∧ next.streams = state.streams ∧
      next.senders channel = state.senders channel + count := by
  induction count generalizing state with
  | zero => exact ⟨[], state, .refl, rfl, rfl⟩
  | succ count ih =>
      obtain ⟨first, middle, arrives, streams, store, writer, one⟩ := call_arrives known free
      obtain ⟨labels, next, runs, same, more⟩ := ih (store ▸ known) writer
      exact ⟨first ++ labels, next, arrives.trans runs, same.trans streams, by omega⟩

/-- Eleven messages are under way to a stream that leaves. -/
theorem sync_gets_stuck : ¬ ∀ state, sse.Reachable state → ¬ Stuck state := by
  intro claimed
  let departed : SseState := listening.put 0 { userId := 1, phase := .looping, clientGone := true }
  have there : listening.streams 0 = some { userId := 1, phase := .looping } := rfl
  have reachable : sse.Reachable departed := listening_reachable.step (.disconnect there)
  have known : departed.store 1 = some 0 := rfl
  have nobody : departed.senders 0 = 0 := rfl
  obtain ⟨labels, loaded, runs, streams, senders⟩ := calls_pile_up known rfl 11
  rw [nobody] at senders
  have gone : loaded.streams 0 = some { userId := 1, phase := .looping, clientGone := true } :=
    streams ▸ put_streams_self
  have loadedReachable := reachable.runs runs
  have leaves := SseStep.loop gone rfl
  have without : ¬ RoomLeft loaded (.loop 0) := by
    intro room
    have bound := room _ gone rfl
    rw [senders] at bound
    exact absurd bound (by decide)
  obtain ⟨more, stuck, further, deadlock⟩ :=
    stuck_of_not_roomLeft (SseInv.reachable loadedReachable) leaves without
  exact claimed stuck ((loadedReachable.step leaves).runs further) deadlock

end MessagePusher.Sse
