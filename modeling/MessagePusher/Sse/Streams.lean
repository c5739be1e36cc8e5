import MessagePusher.Controller.MessageSse
import MessagePusher.Semantics.ReadWriteLock
import MessagePusher.Semantics.Transition

/-!
# Streams and messages, step by step

Any number of calls of `GetNewMessages` and of `syncMessageToUser` in any order. The lock of
`messageChanStore` is a `ReadWriteLock`, with a stream as the writer and a call of
`syncMessageToUser` as the reader. `SseInv` holds whatever the order.
-/

namespace MessagePusher.Sse

open Model Controller Semantics

/-- From the add of a stream to its remove. -/
def isOpenPhase : StreamPhase → Bool
  | .looping | .receiving | .leaving => true
  | .adding | .removed | .ended => false

/-- The streams by number, the map, its lock, the streams of each user that the map ever had,
newest first, and whether a send or a `close` met a closed channel. -/
structure SseState where
  streams : Nat → Option Stream := fun _ => none
  store : MessageChanStore := fun _ => none
  lock : ReadWriteLock Nat SyncCall := {}
  opened : Int → List Nat := fun _ => []
  panicked : Bool := false

namespace SseState

variable (state : SseState)

/-- A stream in the place of the one of its number. -/
def put (channel : Nat) (stream : Stream) : SseState :=
  { state with streams := Function.update state.streams channel (some stream) }

/-- The critical section of `messageChanStoreAdd`. -/
def add (channel : Nat) (stream : Stream) : SseState :=
  { state with
    streams := Function.update state.streams channel (some { stream with phase := .looping })
    store := messageChanStoreAdd state.store channel stream.userId
    lock := state.lock.release
    opened := Function.update state.opened stream.userId (channel :: state.opened stream.userId) }

/-- The critical section of `messageChanStoreRemove`. -/
def remove (channel : Nat) (stream : Stream) : SseState :=
  { state with
    streams := Function.update state.streams channel (some { stream with phase := .removed })
    store := messageChanStoreRemove state.store stream.userId
    lock := state.lock.release }

/-- The stream came into the map and has not removed itself. -/
def IsOpen (channel : Nat) : Prop :=
  ∃ stream, state.streams channel = some stream ∧ isOpenPhase stream.phase = true

/-- The call sends on the channel. -/
def sendsOn (channel : Nat) (call : SyncCall) : Bool :=
  call.stage = .sending channel

/-- How many calls send on the channel. -/
def senders (channel : Nat) : Nat :=
  state.lock.holding.countP (sendsOn channel)

end SseState

/-- Who does which step. -/
inductive SseLabel where
  | getNewMessages (channel : Nat) (userId : Int)
  | callLock (channel : Nat)
  | add (channel : Nat)
  | loop (channel : Nat)
  | receive (channel : Nat)
  | disconnect (channel : Nat)
  | remove (channel : Nat)
  | close (channel : Nat)
  | sync (message : Message) (userId : Int)
  | lookup (message : Message) (userId : Int)
  | send (message : Message) (userId : Int) (channel : Nat)
  | unlock (message : Message) (userId : Int)

/-- The steps of the streams and of the calls that send to them. -/
inductive SseStep (state : SseState) : SseLabel → SseState → Prop where
  | getNewMessages {channel userId} (fresh : state.streams channel = none) :
      SseStep state (.getNewMessages channel userId) (state.put channel { userId })
  | callLock {channel stream} (found : state.streams channel = some stream)
      (calls : stream.phase = .adding ∨ stream.phase = .leaving)
      (free : state.lock.writer = none) :
      SseStep state (.callLock channel) { state with lock := state.lock.announce channel }
  | add {channel stream} (found : state.streams channel = some stream)
      (phase : stream.phase = .adding) (granted : state.lock.Grants channel) :
      SseStep state (.add channel) (state.add channel stream)
  | loop {channel stream} (found : state.streams channel = some stream)
      (phase : stream.phase = .looping) :
      SseStep state (.loop channel) (state.put channel stream.loop)
  | receive {channel stream received} (found : state.streams channel = some stream)
      (phase : stream.phase = .receiving) (ready : stream.receive = some received) :
      SseStep state (.receive channel) (state.put channel received)
  | disconnect {channel stream} (found : state.streams channel = some stream) :
      SseStep state (.disconnect channel) (state.put channel { stream with clientGone := true })
  | remove {channel stream} (found : state.streams channel = some stream)
      (phase : stream.phase = .leaving) (granted : state.lock.Grants channel) :
      SseStep state (.remove channel) (state.remove channel stream)
  | close {channel stream} (found : state.streams channel = some stream)
      (phase : stream.phase = .removed) :
      SseStep state (.close channel)
        { state.put channel stream.close with
          panicked := state.panicked || decide (0 < stream.closes) }
  | sync {message userId} :
      SseStep state (.sync message userId)
        { state with lock := state.lock.readLock { message, userId } }
  | lookup {message userId before after}
      (running : state.lock.holding = before ++ { message, userId } :: after) :
      SseStep state (.lookup message userId)
        { state with
          lock := state.lock.withHolding
            (before ++ SyncCall.lookup { message, userId } state.store :: after) }
  | send {message userId channel before after stream}
      (running : state.lock.holding =
        before ++ { message, userId, stage := .sending channel } :: after)
      (found : state.streams channel = some stream) (room : stream.hasRoom) :
      SseStep state (.send message userId channel)
        { state.put channel (stream.push message) with
          lock := state.lock.withHolding
            (before ++ { message, userId, stage := .returning } :: after) }
  | sendClosed {message userId channel before after stream}
      (running : state.lock.holding =
        before ++ { message, userId, stage := .sending channel } :: after)
      (found : state.streams channel = some stream) (closed : 0 < stream.closes) :
      SseStep state (.send message userId channel)
        { state with
          lock := state.lock.withHolding (before ++ after)
          panicked := true }
  | unlock {message userId before after}
      (running : state.lock.holding =
        before ++ { message, userId, stage := .returning } :: after) :
      SseStep state (.unlock message userId)
        { state with lock := state.lock.withHolding (before ++ after) }

/-- A process before its first stream. -/
def sse : System SseState SseLabel where
  Initial state := state = {}
  Step := SseStep

/-! ### What holds in every order -/

/-- A stream on its own: it closes its channel at its end, and the channel has its size. -/
structure StreamOk (stream : Stream) : Prop where
  closes : stream.closes = if stream.phase = .ended then 1 else 0
  bounded : stream.buffer.length ≤ messageChanBufferSize

/-- Whatever the order: who is registered or sent to is open, and nobody has panicked. -/
structure SseInv (state : SseState) : Prop where
  streams : ∀ channel stream, state.streams channel = some stream → StreamOk stream
  registered : ∀ userId channel, state.store userId = some channel → state.IsOpen channel ∧
    ∀ stream, state.streams channel = some stream → stream.userId = userId
  sending : ∀ channel, ∀ call ∈ state.lock.holding, call.stage = .sending channel →
    state.IsOpen channel
  waiting : ∀ call ∈ state.lock.waiting, call.stage = .looking
  opened : ∀ userId, ∀ channel ∈ state.opened userId, ∃ stream,
    state.streams channel = some stream ∧ stream.phase ≠ .adding
  calm : state.panicked = false

variable {state next : SseState} {channel : Nat} {stream after : Stream}

@[simp] theorem put_streams_self : (state.put channel after).streams channel = some after :=
  Function.update_self ..

theorem put_streams_of_ne {other : Nat} (apart : other ≠ channel) :
    (state.put channel after).streams other = state.streams other :=
  Function.update_of_ne apart ..

section Sections

variable (state) (channel) (stream)

/-- An added stream goes to its loop. -/
theorem add_streams : (state.add channel stream).streams =
    (state.put channel { stream with phase := .looping }).streams := rfl

/-- A removed stream goes to its end. -/
theorem remove_streams : (state.remove channel stream).streams =
    (state.put channel { stream with phase := .removed }).streams := rfl

@[simp] theorem add_store_self : (state.add channel stream).store stream.userId = some channel :=
  messageChanStoreAdd_self

@[simp] theorem remove_store_self : (state.remove channel stream).store stream.userId = none :=
  messageChanStoreRemove_self

variable {stream} {userId : Int}

theorem add_store_of_ne (apart : userId ≠ stream.userId) :
    (state.add channel stream).store userId = state.store userId :=
  messageChanStoreAdd_of_ne apart

theorem remove_store_of_ne (apart : userId ≠ stream.userId) :
    (state.remove channel stream).store userId = state.store userId :=
  messageChanStoreRemove_of_ne apart

end Sections

/-- Whether a stream is open is told by its phase. -/
theorem isOpen_iff (found : state.streams channel = some stream) :
    state.IsOpen channel ↔ isOpenPhase stream.phase = true := by
  simp [SseState.IsOpen, found]

/-- The change of a stream opens and closes no other. -/
theorem isOpen_put_of_ne {other : Nat} (apart : other ≠ channel) :
    (state.put channel after).IsOpen other ↔ state.IsOpen other := by
  simp only [SseState.IsOpen, put_streams_of_ne apart]

/-- A stream that stays open leaves the others as they were. -/
theorem isOpen_put (found : state.streams channel = some stream)
    (stays : isOpenPhase stream.phase = true → isOpenPhase after.phase = true) {other : Nat}
    (open_ : state.IsOpen other) : (state.put channel after).IsOpen other := by
  by_cases own : other = channel
  · subst own
    rw [isOpen_iff put_streams_self]
    exact stays ((isOpen_iff found).mp open_)
  · exact (isOpen_put_of_ne own).mpr open_

/-- A property of all streams after a change of one. -/
theorem forall_put {property : Nat → Stream → Prop}
    (holds : ∀ other shown, state.streams other = some shown → property other shown)
    (own : property channel after) :
    ∀ other shown, (state.put channel after).streams other = some shown → property other shown := by
  intro other shown there
  by_cases same : other = channel
  · subst same
    rw [put_streams_self] at there
    cases there
    exact own
  · rw [put_streams_of_ne same] at there
    exact holds other shown there

/-- A call of the new list that sends was there before. -/
theorem sends_before {before later : List SyncCall} {old new call : SyncCall} {channel : Nat}
    (running : state.lock.holding = before ++ old :: later) (quiet : new.stage = .returning)
    (holds : call ∈ before ++ new :: later) (stage : call.stage = .sending channel) :
    call ∈ state.lock.holding := by
  rw [running]
  rcases List.mem_append.mp holds with earlier | rest
  · exact List.mem_append_left _ earlier
  · rcases List.mem_cons.mp rest with rfl | there
    · rw [quiet] at stage
      cases stage
    · exact List.mem_append_right _ (List.mem_cons_of_mem _ there)

namespace SseInv

/-- Without a stream there is nothing to be wrong. -/
theorem initial : SseInv {} where
  streams _ _ there := by cases there
  registered _ _ there := by cases there
  sending _ _ there := by cases there
  waiting _ there := by cases there
  opened _ _ there := by cases there
  calm := rfl

/-- A stream that keeps its user, stays open, and is not before its add again. -/
theorem put (inv : SseInv state) (found : state.streams channel = some stream)
    (ok : StreamOk after) (user : after.userId = stream.userId)
    (stays : isOpenPhase stream.phase = true → isOpenPhase after.phase = true)
    (further : stream.phase ≠ .adding → after.phase ≠ .adding) :
    SseInv (state.put channel after) where
  streams := forall_put inv.streams ok
  registered userId other known := by
    obtain ⟨open_, owned⟩ := inv.registered userId other known
    refine ⟨isOpen_put found stays open_, fun shown there => ?_⟩
    by_cases own : other = channel
    · subst own
      rw [put_streams_self] at there
      cases there
      exact user.trans (owned stream found)
    · rw [put_streams_of_ne own] at there
      exact owned shown there
  sending other call holds stage := isOpen_put found stays (inv.sending other call holds stage)
  waiting := inv.waiting
  opened userId other listed := by
    obtain ⟨shown, there, phase⟩ := inv.opened userId other listed
    by_cases own : other = channel
    · subst own
      rw [found] at there
      cases there
      exact ⟨after, put_streams_self, further phase⟩
    · exact ⟨shown, (put_streams_of_ne own).trans there, phase⟩
  calm := inv.calm

/-- The calls that hold the lock send on channels that are open. -/
theorem withHolding (inv : SseInv state) {holding : List SyncCall}
    (sending : ∀ channel, ∀ call ∈ holding, call.stage = .sending channel → state.IsOpen channel) :
    SseInv { state with lock := state.lock.withHolding holding } where
  streams := inv.streams
  registered := inv.registered
  sending := sending
  waiting := inv.waiting
  opened := inv.opened
  calm := inv.calm

/-- After a critical section no call is sending. -/
theorem nobody_sends (inv : SseInv state) (granted : state.lock.Grants channel) :
    ∀ other, ∀ call ∈ state.lock.release.holding, call.stage ≠ .sending other := by
  intro other call holds stage
  rw [granted.release_holding] at holds
  rw [inv.waiting call holds] at stage
  cases stage

/-- An open channel is not closed. -/
theorem closes_of_open (inv : SseInv state) (found : state.streams channel = some stream)
    (open_ : state.IsOpen channel) : stream.closes = 0 := by
  rw [(inv.streams channel stream found).closes]
  have phase := (isOpen_iff found).mp open_
  split_ifs with ended
  · rw [ended] at phase
    cases phase
  · rfl

/-- What a call sends on is not closed. -/
theorem closes_of_sending (inv : SseInv state) {message : Message} {userId : Int}
    {before later : List SyncCall}
    (running : state.lock.holding =
      before ++ { message, userId, stage := .sending channel } :: later)
    (found : state.streams channel = some stream) : stream.closes = 0 := by
  have holds : { message, userId, stage := .sending channel } ∈ state.lock.holding := by
    rw [running]
    exact List.mem_append_right _ (List.mem_cons_self ..)
  exact inv.closes_of_open found (inv.sending channel _ holds rfl)

/-- A new stream is not registered yet. -/
theorem getNewMessages (inv : SseInv state) (fresh : state.streams channel = none) (userId : Int) :
    SseInv (state.put channel { userId }) where
  streams := forall_put inv.streams ⟨rfl, Nat.zero_le _⟩
  registered other known there := by
    obtain ⟨⟨stream, found, open_⟩, owned⟩ := inv.registered other known there
    have apart : known ≠ channel := fun same => by rw [same, fresh] at found; cases found
    rw [isOpen_put_of_ne apart, put_streams_of_ne apart]
    exact ⟨⟨stream, found, open_⟩, owned⟩
  sending other call holds stage := by
    obtain ⟨stream, found, open_⟩ := inv.sending other call holds stage
    have apart : other ≠ channel := fun same => by rw [same, fresh] at found; cases found
    exact (isOpen_put_of_ne apart).mpr ⟨stream, found, open_⟩
  waiting := inv.waiting
  opened other known listed := by
    obtain ⟨stream, found, phase⟩ := inv.opened other known listed
    have apart : known ≠ channel := fun same => by rw [same, fresh] at found; cases found
    exact ⟨stream, (put_streams_of_ne apart).trans found, phase⟩
  calm := inv.calm

/-- The stream that is registered is open. -/
theorem add (inv : SseInv state) (found : state.streams channel = some stream)
    (phase : stream.phase = .adding) (granted : state.lock.Grants channel) :
    SseInv (state.add channel stream) := by
  have ok := inv.streams channel stream found
  have moved : SseInv (state.put channel { stream with phase := .looping }) :=
    inv.put found ⟨by simpa [phase] using ok.closes, ok.bounded⟩ rfl (fun _ => rfl) (by simp)
  refine ⟨moved.streams, fun userId other known => ?_, fun other call holds stage => ?_,
    fun _ waits => (List.not_mem_nil waits).elim, fun userId other listed => ?_, inv.calm⟩
  · by_cases own : userId = stream.userId
    · subst own
      rw [add_store_self] at known
      cases known
      refine ⟨(isOpen_iff put_streams_self).mpr rfl, fun shown there => ?_⟩
      rw [add_streams, put_streams_self] at there
      cases there
      rfl
    · rw [add_store_of_ne _ _ own] at known
      exact moved.registered userId other known
  · exact absurd stage (inv.nobody_sends granted other call holds)
  · by_cases own : userId = stream.userId
    · subst own
      have newer : other ∈ channel :: state.opened stream.userId := by
        simpa [SseState.add] using listed
      rcases List.mem_cons.mp newer with rfl | older
      · exact ⟨_, put_streams_self, by simp⟩
      · exact moved.opened stream.userId other older
    · have older : other ∈ state.opened userId := by
        simpa [SseState.add, Function.update_of_ne own] using listed
      exact moved.opened userId other older

/-- The stream that is removed was registered by none but its user, and nobody sends to it, as the
write lock was granted. -/
theorem remove (inv : SseInv state) (found : state.streams channel = some stream)
    (phase : stream.phase = .leaving) (granted : state.lock.Grants channel) :
    SseInv (state.remove channel stream) := by
  have ok := inv.streams channel stream found
  refine ⟨forall_put inv.streams ⟨by simpa [phase] using ok.closes, ok.bounded⟩,
    fun userId other known => ?_, fun other call holds stage => ?_,
    fun _ waits => (List.not_mem_nil waits).elim, fun userId other listed => ?_, inv.calm⟩
  · by_cases own : userId = stream.userId
    · subst own
      rw [remove_store_self] at known
      cases known
    · rw [remove_store_of_ne _ _ own] at known
      obtain ⟨open_, owned⟩ := inv.registered userId other known
      have apart : other ≠ channel := by
        rintro rfl
        exact own (owned stream found).symm
      rw [remove_streams, put_streams_of_ne apart]
      exact ⟨(isOpen_put_of_ne apart).mpr open_, owned⟩
  · exact absurd stage (inv.nobody_sends granted other call holds)
  · obtain ⟨shown, there, before⟩ := inv.opened userId other listed
    rw [remove_streams]
    by_cases own : other = channel
    · subst own
      exact ⟨_, put_streams_self, by simp⟩
    · exact ⟨shown, (put_streams_of_ne own).trans there, before⟩

/-- A stream leaves its loop with its buffer as it is. -/
theorem loop (inv : SseInv state) (found : state.streams channel = some stream)
    (phase : stream.phase = .looping) : SseInv (state.put channel stream.loop) := by
  have ok := inv.streams channel stream found
  have closes : stream.loop.closes = 0 := by simpa [phase] using ok.closes
  refine inv.put found ⟨?_, ok.bounded⟩ rfl (fun _ => ?_) fun _ => ?_
  · rcases stream.loop_phase with there | there <;> rw [there, closes] <;> rfl
  · rcases stream.loop_phase with there | there <;> rw [there] <;> rfl
  · rcases stream.loop_phase with there | there <;> rw [there] <;> decide

/-- A stream at its receive has an open channel, so it takes a message. -/
theorem receive (inv : SseInv state) (found : state.streams channel = some stream)
    (phase : stream.phase = .receiving) {received : Stream}
    (ready : stream.receive = some received) :
    received.phase = .looping ∧ SseInv (state.put channel received) := by
  have ok := inv.streams channel stream found
  have closes : stream.closes = 0 := by simpa [phase] using ok.closes
  obtain ⟨message, rest, queued, rfl⟩ := Stream.receive_open closes ready
  have shorter : rest.length ≤ messageChanBufferSize := by
    have bounded := ok.bounded
    rw [queued, List.length_cons] at bounded
    omega
  exact ⟨rfl, inv.put found ⟨closes, shorter⟩ rfl (fun _ => rfl) (by simp)⟩

/-- A stream closes its channel once, at its end. -/
theorem close (inv : SseInv state) (found : state.streams channel = some stream)
    (phase : stream.phase = .removed) :
    SseInv { state.put channel stream.close with
      panicked := state.panicked || decide (0 < stream.closes) } := by
  have ok := inv.streams channel stream found
  have closes : stream.closes = 0 := by simpa [phase] using ok.closes
  have moved : SseInv (state.put channel stream.close) :=
    inv.put found ⟨by simp [Stream.close, closes], ok.bounded⟩ rfl (by simp [phase, isOpenPhase])
      (by simp [Stream.close])
  exact ⟨moved.streams, moved.registered, moved.sending, moved.waiting, moved.opened,
    by simp [inv.calm, closes]⟩

/-- A call that asks for the lock has not looked into the map. -/
theorem sync (inv : SseInv state) (message : Message) (userId : Int) :
    SseInv { state with lock := state.lock.readLock { message, userId } } := by
  refine ⟨inv.streams, inv.registered, fun channel call holds stage => ?_, fun call waits => ?_,
    inv.opened, inv.calm⟩
  · rcases state.lock.readLock_cases { message, userId } with ⟨holding, -⟩ | ⟨holding, -⟩
    · rw [holding, List.mem_append, List.mem_singleton] at holds
      rcases holds with old | rfl
      · exact inv.sending channel call old stage
      · cases stage
    · rw [holding] at holds
      exact inv.sending channel call holds stage
  · rcases state.lock.readLock_cases { message, userId } with ⟨-, waiting⟩ | ⟨-, waiting⟩
    · rw [waiting] at waits
      exact inv.waiting call waits
    · rw [waiting, List.mem_append, List.mem_singleton] at waits
      rcases waits with old | rfl
      · exact inv.waiting call old
      · rfl

/-- What the map has is open, so a lookup gives an open channel. -/
theorem lookup (inv : SseInv state) {message : Message} {userId : Int}
    {before later : List SyncCall}
    (running : state.lock.holding = before ++ { message, userId } :: later) :
    SseInv { state with
      lock := state.lock.withHolding
        (before ++ SyncCall.lookup { message, userId } state.store :: later) } := by
  refine inv.withHolding fun channel call holds stage => ?_
  rcases List.mem_append.mp holds with earlier | rest
  · exact inv.sending channel call (by rw [running]; exact List.mem_append_left _ earlier) stage
  · rcases List.mem_cons.mp rest with rfl | there
    · exact (inv.registered userId channel (SyncCall.lookup_sending_iff.mp stage)).1
    · exact inv.sending channel call (by rw [running]; simp [there]) stage

/-- A send finds its channel open. -/
theorem send (inv : SseInv state) {message : Message} {userId : Int}
    {before later : List SyncCall}
    (running : state.lock.holding =
      before ++ { message, userId, stage := .sending channel } :: later)
    (found : state.streams channel = some stream) (room : stream.hasRoom) :
    SseInv { state.put channel (stream.push message) with
      lock := state.lock.withHolding
        (before ++ { message, userId, stage := .returning } :: later) } := by
  have ok := inv.streams channel stream found
  have longer : (stream.buffer ++ [message]).length ≤ messageChanBufferSize := by
    rw [List.length_append]
    exact room.2
  have moved : SseInv (state.put channel (stream.push message)) :=
    inv.put found ⟨ok.closes, longer⟩ rfl id id
  exact moved.withHolding fun other call holds stage =>
    moved.sending other call (sends_before running rfl holds stage) stage

/-- A call that is through holds nothing. -/
theorem unlock (inv : SseInv state) {old : SyncCall} {before later : List SyncCall}
    (running : state.lock.holding = before ++ old :: later) :
    SseInv { state with lock := state.lock.withHolding (before ++ later) } := by
  refine inv.withHolding fun other call holds stage => inv.sending other call ?_ stage
  rw [running]
  rcases List.mem_append.mp holds with earlier | there
  · exact List.mem_append_left _ earlier
  · exact List.mem_append_right _ (List.mem_cons_of_mem _ there)

/-- What every step preserves. -/
theorem step {label : SseLabel} (inv : SseInv state) (step : sse.Step state label next) :
    SseInv next := by
  cases step with
  | getNewMessages fresh => exact inv.getNewMessages fresh _
  | callLock found calls free =>
      exact ⟨inv.streams, inv.registered, inv.sending, inv.waiting, inv.opened, inv.calm⟩
  | add found phase granted => exact inv.add found phase granted
  | loop found phase => exact inv.loop found phase
  | receive found phase ready => exact (inv.receive found phase ready).2
  | @disconnect channel stream found =>
      have ok := inv.streams channel stream found
      exact inv.put found ⟨ok.closes, ok.bounded⟩ rfl id id
  | remove found phase granted => exact inv.remove found phase granted
  | close found phase => exact inv.close found phase
  | sync => exact inv.sync _ _
  | lookup running => exact inv.lookup running
  | send running found room => exact inv.send running found room
  | sendClosed running found closed =>
      rw [inv.closes_of_sending running found] at closed
      cases closed
  | unlock running => exact inv.unlock running

end SseInv

/-- The invariant holds in every order. -/
theorem SseInv.reachable (reachable : sse.Reachable state) : SseInv state :=
  reachable.invariant (fun started => started ▸ SseInv.initial) SseInv.step

/-- The user 1 with an open stream. -/
def listening : SseState :=
  SseState.add { SseState.put {} 0 { userId := 1 } with lock := ReadWriteLock.announce {} 0 } 0
    { userId := 1 }

/-- The stream opens in three steps: the call, its request for the lock, and the add. -/
theorem listening_guarded (permitted : SseState → SseLabel → Prop)
    (calls : permitted {} (.getNewMessages 0 1))
    (asks : permitted (SseState.put {} 0 { userId := 1 }) (.callLock 0))
    (adds : permitted
      { SseState.put {} 0 { userId := 1 } with lock := ReadWriteLock.announce {} 0 } (.add 0)) :
    (sse.guard permitted).Reachable listening := by
  have start : (sse.guard permitted).Reachable {} := .initial rfl
  have made := start.step ⟨calls, @SseStep.getNewMessages _ 0 1 rfl⟩
  have locks := made.step ⟨asks, @SseStep.callLock _ 0 _ rfl (.inl rfl) rfl⟩
  exact locks.step ⟨adds, @SseStep.add _ 0 _ rfl rfl ⟨rfl, rfl⟩⟩

theorem listening_reachable : sse.Reachable listening :=
  (listening_guarded (fun _ _ => True) trivial trivial trivial).ofGuard

/-- In every order no send and no `close` meets a closed channel. -/
theorem closed_channel_unused (reachable : sse.Reachable state) :
    (∀ message userId channel next, sse.Step state (.send message userId channel) next →
      ∃ stream, state.streams channel = some stream ∧ stream.closes = 0) ∧
    (∀ channel stream, state.streams channel = some stream → stream.closes ≤ 1) ∧
    state.panicked = false := by
  have inv : SseInv state := SseInv.reachable reachable
  refine ⟨fun message userId channel next step => ?_, fun channel stream found => ?_, inv.calm⟩
  · cases step with
    | send running found room => exact ⟨_, found, inv.closes_of_sending running found⟩
    | sendClosed running found closed => exact ⟨_, found, inv.closes_of_sending running found⟩
  · rw [(inv.streams channel stream found).closes]
    split_ifs <;> omega

/-- A message is under way to the second stream of a user whose first one is closed. -/
theorem closed_channel_unused_sending :
    ∃ state next, sse.Step state (.send { id := 1 } 1 1) next ∧
      (∃ stream, state.streams 0 = some stream ∧ stream.closes = 1) ∧
      (∃ stream, state.streams 1 = some stream ∧ stream.closes = 0) ∧
      (∀ channel stream, state.streams channel = some stream → stream.closes ≤ 1) ∧
      state.panicked = false := by
  have gone := listening_reachable.step (@SseStep.disconnect _ 0 _ rfl)
  have leaves := gone.step (@SseStep.loop _ 0 _ rfl rfl)
  have locks := leaves.step (@SseStep.callLock _ 0 _ rfl (.inr rfl) rfl)
  have removed := locks.step (@SseStep.remove _ 0 _ rfl rfl ⟨rfl, rfl⟩)
  have ended := removed.step (@SseStep.close _ 0 _ rfl rfl)
  have madeAgain := ended.step (@SseStep.getNewMessages _ 1 1 rfl)
  have locksAgain := madeAgain.step (@SseStep.callLock _ 1 _ rfl (.inl rfl) rfl)
  have openedAgain := locksAgain.step (@SseStep.add _ 1 _ rfl rfl ⟨rfl, rfl⟩)
  have called := openedAgain.step (@SseStep.sync _ { id := 1 } 1)
  have found := called.step (@SseStep.lookup _ { id := 1 } 1 [] [] rfl)
  have sending {state next : SseState} (reachable : sse.Reachable state)
      (sends : sse.Step state (.send { id := 1 } 1 1) next)
      (closed : ∃ stream, state.streams 0 = some stream ∧ stream.closes = 1) :
      _ ∧ _ ∧ _ ∧ _ ∧ _ :=
    have result := closed_channel_unused reachable
    ⟨sends, closed, result.1 _ _ _ _ sends, result.2⟩
  exact ⟨_, _, sending found (@SseStep.send _ { id := 1 } 1 1 [] [] _ rfl rfl (by decide))
    ⟨_, rfl, rfl⟩⟩

end MessagePusher.Sse
