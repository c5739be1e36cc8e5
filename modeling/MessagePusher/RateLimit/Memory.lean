import MessagePusher.Common.RateLimit
import MessagePusher.RateLimit.SlidingLog
import MessagePusher.Semantics.Transition

/-!
# The limiter in memory is a sliding log

Calls and passes of the cleaner at clock readings that never decrease. Beside the limiter
stands the log of all calls that it ever accepted, per key; its queues track that log.
-/

namespace MessagePusher.RateLimit

open Common Semantics

/-- What `rateLimitFactory` fixes per key, and the expiration passed to `Init`. -/
structure LimitSettings where
  maxRequestNum : String → Nat
  duration : String → Int
  expirationDuration : Int
  positive : ∀ key, 1 ≤ maxRequestNum key
  bounded : ∀ key, duration key * second ≤ expirationDuration

structure MemoryState where
  limiter : InMemoryRateLimiter
  /-- The accepted calls on every key, newest first. -/
  accepted : String → List Int
  clock : Int

inductive MemoryLabel where
  | request (key : String) (now : Int)
  | clear (now : Int)

/-- The log after a call. -/
def logged (accepted : String → List Int) (key : String) (now : Int) (passed : Bool) :
    String → List Int :=
  if passed then Function.update accepted key (now :: accepted key) else accepted

inductive MemoryStep (settings : LimitSettings) (state : MemoryState) :
    MemoryLabel → MemoryState → Prop where
  | request {key now next passed} (later : state.clock ≤ now)
      (answered : state.limiter.request key (settings.maxRequestNum key) (settings.duration key)
        now = some (next, passed)) :
      MemoryStep settings state (.request key now)
        { limiter := next, accepted := logged state.accepted key now passed, clock := now }
  | clear {now} (later : state.clock ≤ now) :
      MemoryStep settings state (.clear now)
        { state with limiter := state.limiter.clearExpiredItems now, clock := now }

def memoryLimiter (settings : LimitSettings) : System MemoryState MemoryLabel where
  Initial state :=
    state.limiter = { expirationDuration := settings.expirationDuration } ∧
      state.accepted = fun _ => []
  Step := MemoryStep settings

/-- A queue, turned round, tracks the log of its key and is no longer than the limit. -/
structure TracksQueue (limit : Nat) (duration clock : Int) (queue log : List Int) : Prop where
  tracks : Tracks limit duration clock queue.reverse log
  short : queue.length ≤ limit

namespace TracksQueue

variable {limit : Nat} {duration clock now : Int} {queue log : List Int}

theorem nil : TracksQueue limit duration clock [] [] :=
  ⟨.nil, Nat.zero_le _⟩

theorem wait (holds : TracksQueue limit duration clock queue log) (later : clock ≤ now) :
    TracksQueue limit duration now queue log :=
  ⟨holds.tracks.wait later, holds.short⟩

/-- The branch of `Request` for a queue that is not full. -/
theorem append (holds : TracksQueue limit duration clock queue log) (later : clock ≤ now)
    (room : queue.length < limit) : TracksQueue limit duration now (queue ++ [now]) (now :: log) := by
  constructor
  · rw [List.reverse_append]
    exact holds.tracks.push later
  · rw [List.length_append]
    exact room

/-- The branch of `Request` for a full queue with an old head. -/
theorem rotate (holds : TracksQueue limit duration clock queue log) (later : clock ≤ now)
    (full : ¬ queue.length < limit) (positive : 0 < limit) :
    TracksQueue limit duration now (queue.tail ++ [now]) (now :: log) := by
  have exact_ : queue.length = limit := by
    have short := holds.short
    omega
  cases queue with
  | nil =>
      rw [List.length_nil] at exact_
      omega
  | cons oldest rest =>
      rw [List.length_cons] at exact_
      have taken : (now :: (oldest :: rest).reverse).take limit = now :: rest.reverse := by
        rw [← exact_, List.take_succ_cons, List.reverse_cons, List.take_append_of_le_length (by simp),
          List.take_of_length_le (by simp)]
      constructor
      · have trimmed := (holds.tracks.push later).trim (Nat.le_refl limit)
        rw [taken] at trimmed
        rw [List.tail_cons, List.reverse_append]
        exact trimmed
      · rw [List.tail_cons, List.length_append]
        exact Nat.le_of_eq exact_

/-- The decision of `Request` is the decision by the log. -/
theorem recent_lt_iff (holds : TracksQueue limit duration clock queue log) (later : clock ≤ now)
    (positive : 0 < limit) :
    recent duration now log < limit ↔ queue.length < limit ∨
      ∃ oldest, queue.head? = some oldest ∧ duration ≤ now - oldest := by
  rw [holds.tracks.recent_lt_iff positive later]
  have short := holds.short
  by_cases room : queue.length < limit
  · rw [List.getElem?_eq_none (by rw [List.length_reverse]; omega)]
    simp [room]
  · have last : queue.reverse[limit - 1]? = queue.head? := by
      rw [List.getElem?_reverse (by omega), List.head?_eq_getElem?]
      congr 1
      omega
    rw [last]
    cases queue with
    | nil =>
        rw [List.length_nil] at room
        omega
    | cons oldest rest =>
        simp only [room, false_or]
        simp

/-- An expired queue may go. -/
theorem expire (holds : TracksQueue limit duration clock queue log) (later : clock ≤ now)
    {threshold : Int} (enough : duration ≤ threshold)
    (old : ∀ newest, queue.getLast? = some newest → threshold < now - newest) :
    TracksQueue limit duration now [] log := by
  refine ⟨(holds.tracks.wait later).lose ?_, Nat.zero_le _⟩
  have sorted : queue.reverse.Pairwise fun newer older => older ≤ newer := by
    obtain ⟨sorted, -, dropped, rfl, -⟩ := holds.tracks
    exact (List.pairwise_append.mp sorted).1
  rw [List.getLast?_eq_head?_reverse] at old
  intro time member
  cases reversed : queue.reverse with
  | nil =>
      rw [reversed] at member
      cases member
  | cons newest rest =>
      rw [reversed] at sorted member old
      have oldNewest := old newest rfl
      rcases List.mem_cons.mp member with rfl | below
      · omega
      · have ordered := (List.pairwise_cons.mp sorted).1 time below
        omega

end TracksQueue

/-- Every queue tracks the log of its key. -/
structure MemoryTracks (settings : LimitSettings) (state : MemoryState) : Prop where
  expiration : state.limiter.expirationDuration = settings.expirationDuration
  queues : ∀ key, TracksQueue (settings.maxRequestNum key) (settings.duration key) state.clock
    (state.limiter.queue key) (state.accepted key)

section Steps

variable {settings : LimitSettings} {state next : MemoryState} {label : MemoryLabel}

theorem MemoryTracks.initial (valid : (memoryLimiter settings).Initial state) :
    MemoryTracks settings state := by
  obtain ⟨fresh, none_⟩ := valid
  constructor
  · rw [fresh]
  · intro key
    rw [fresh, none_]
    exact .nil

/-- `Request` answers, and by the log of the key. -/
theorem MemoryTracks.answers (holds : MemoryTracks settings state) (key : String) {now : Int}
    (later : state.clock ≤ now) :
    ∃ limiter, state.limiter.request key (settings.maxRequestNum key) (settings.duration key) now =
      some (limiter, decide (recent (settings.duration key) now (state.accepted key) <
        settings.maxRequestNum key)) := by
  have positive : 0 < settings.maxRequestNum key := settings.positive key
  have decision := (holds.queues key).recent_lt_iff later positive
  rw [InMemoryRateLimiter.request_eq _ _ positive]
  split_ifs with room old
  · exact ⟨_, by rw [decide_eq_true (decision.mpr (.inl room))]⟩
  · exact ⟨_, by rw [decide_eq_true (decision.mpr (.inr old))]⟩
  · have many : ¬ recent (settings.duration key) now (state.accepted key) <
        settings.maxRequestNum key := by
      rw [decision]
      exact not_or.mpr ⟨room, old⟩
    exact ⟨_, by rw [decide_eq_false many]⟩

theorem MemoryTracks.step (holds : MemoryTracks settings state)
    (transition : (memoryLimiter settings).Step state label next) : MemoryTracks settings next := by
  cases transition with
  | @request key now limiter passed later answered =>
      have positive : 0 < settings.maxRequestNum key := settings.positive key
      rw [InMemoryRateLimiter.request_eq _ _ positive] at answered
      have others : ∀ times, ∀ other, other ≠ key → TracksQueue (settings.maxRequestNum other)
          (settings.duration other) now ((state.limiter.put key times).queue other)
          (logged state.accepted key now true other) := by
        intro times other apart
        rw [InMemoryRateLimiter.queue_put_of_ne apart, logged, if_pos rfl,
          Function.update_of_ne apart]
        exact (holds.queues other).wait later
      have own : logged state.accepted key now true key = now :: state.accepted key := by
        rw [logged, if_pos rfl, Function.update_self]
      have accepts : ∀ times, TracksQueue (settings.maxRequestNum key) (settings.duration key) now
          times (now :: state.accepted key) →
            MemoryTracks settings ⟨state.limiter.put key times, logged state.accepted key now true,
              now⟩ := by
        intro times tracked
        refine ⟨holds.expiration, fun other => ?_⟩
        by_cases same : other = key
        · subst same
          dsimp only
          rw [InMemoryRateLimiter.queue_put, own]
          exact tracked
        · exact others _ other same
      split_ifs at answered with room old
      · obtain ⟨rfl, rfl⟩ := Prod.mk.inj (Option.some.inj answered)
        exact accepts _ ((holds.queues key).append later room)
      · obtain ⟨rfl, rfl⟩ := Prod.mk.inj (Option.some.inj answered)
        exact accepts _ ((holds.queues key).rotate later room positive)
      · obtain ⟨rfl, rfl⟩ := Prod.mk.inj (Option.some.inj answered)
        exact ⟨holds.expiration, fun other => (holds.queues other).wait later⟩
  | @clear now later =>
      refine ⟨holds.expiration, fun key => ?_⟩
      dsimp only
      rw [InMemoryRateLimiter.queue_clearExpiredItems]
      split_ifs with old
      · have threshold : settings.duration key ≤ wholeSeconds settings.expirationDuration :=
          Int.le_tdiv_of_mul_le (by decide) (settings.bounded key)
        refine (holds.queues key).expire later threshold ?_
        intro newest found
        rw [InMemoryRateLimiter.expired, found, decide_eq_true_eq, holds.expiration] at old
        exact old
      · exact (holds.queues key).wait later

end Steps

/-- After every run of calls and cleanings, a call returns true exactly when fewer than
`maxRequestNum` earlier calls on its key were accepted less than `duration` ago. -/
theorem request_returns_true_iff {settings : LimitSettings} {state : MemoryState}
    (reachable : (memoryLimiter settings).Reachable state) (key : String) {now : Int}
    (later : state.clock ≤ now) :
    ∃ limiter passed,
      state.limiter.request key (settings.maxRequestNum key) (settings.duration key) now =
        some (limiter, passed) ∧
      (passed = true ↔ recent (settings.duration key) now (state.accepted key) <
        settings.maxRequestNum key) := by
  have initial : ∀ {state}, (memoryLimiter settings).Initial state → MemoryTracks settings state :=
    MemoryTracks.initial
  have preserved : ∀ {state label next}, MemoryTracks settings state →
      (memoryLimiter settings).Step state label next → MemoryTracks settings next :=
    MemoryTracks.step
  obtain ⟨limiter, answered⟩ := (reachable.invariant initial preserved).answers key later
  exact ⟨limiter, _, answered, decide_eq_true_iff⟩

/-- One call a minute on every key. -/
def oneAMinute : LimitSettings where
  maxRequestNum _ := 1
  duration _ := 60
  expirationDuration := rateLimitKeyExpirationDuration
  positive _ := by decide
  bounded _ := by decide

def unusedLimiter : MemoryState where
  limiter := { expirationDuration := rateLimitKeyExpirationDuration }
  accepted _ := []
  clock := 0

/-- A call at 0, one at 59 and a cleaning: the call at 60 is judged by the first alone. -/
theorem request_at_sixty : ∃ state : MemoryState, state.accepted "GA::1" = [0] ∧
    ∃ limiter, state.limiter.request "GA::1" 1 60 60 = some (limiter, true) := by
  let first : MemoryState :=
    { limiter := unusedLimiter.limiter.put "GA::1" [0]
      accepted := logged unusedLimiter.accepted "GA::1" 0 true
      clock := 0 }
  let cleaned : MemoryState :=
    { first with limiter := first.limiter.clearExpiredItems 59, clock := 59 }
  have started : (memoryLimiter oneAMinute).Reachable unusedLimiter := .initial ⟨rfl, rfl⟩
  have called := started.step (MemoryStep.request (Int.le_refl 0) rfl :
    MemoryStep oneAMinute unusedLimiter (.request "GA::1" 0) first)
  have refused := called.step
    (@MemoryStep.request oneAMinute first "GA::1" 59 first.limiter false (by decide) rfl)
  have reachable : (memoryLimiter oneAMinute).Reachable cleaned :=
    refused.step (MemoryStep.clear (Int.le_refl 59))
  obtain ⟨limiter, passed, answered, exact_⟩ :=
    request_returns_true_iff reachable "GA::1" (show cleaned.clock ≤ 60 by decide)
  refine ⟨cleaned, rfl, limiter, ?_⟩
  obtain rfl : passed = true := exact_.mpr (by decide)
  exact answered

end MessagePusher.RateLimit
