import MessagePusher.Middleware.RateLimit
import MessagePusher.RateLimit.SlidingLog
import MessagePusher.Semantics.Transition

/-!
# Concurrent calls of the limiter in Redis

Any number of calls on one key, whose commands interleave. Each decides by what it read
and writes later, so that calls that read the same list are all let through. The bound
holds as long as what a call read still holds when it writes, and the key does not
expire with recent entries. The clock is the one whose readings the list holds; Redis
expires a key by its own.
-/

namespace MessagePusher.RateLimit

open Common Middleware Semantics

/-- The list under one key and the calls on it. -/
structure RedisState where
  list : RedisList
  calls : List RedisCall := []
  /-- The times of all accepted requests, newest first. -/
  accepted : List Int := []
  clock : Int

/-- The commands carry the time that the call's clock shows. -/
inductive RedisLabel where
  | arrive
  | command (call : RedisCall) (now : Int)
  | expire (now : Int)

/-- A command at an instant and an offset whose parsed time is the reading. -/
inductive RedisStep (maxRequestNum : Nat) (duration : Int) (state : RedisState) :
    RedisLabel → RedisState → Prop where
  | arrive :
      RedisStep maxRequestNum duration state .arrive
        { state with calls := state.calls ++ [.counting] }
  | command {before after call following list now instant offset} (later : state.clock ≤ now)
      (read : parsedTime instant offset = now)
      (at_ : state.calls = before ++ call :: after)
      (taken : call.next maxRequestNum duration instant offset state.list = some (list, following)) :
      RedisStep maxRequestNum duration state (.command call now)
        { list
          calls := before ++ following :: after
          accepted := if call.accepts then now :: state.accepted else state.accepted
          clock := now }
  | expire {now due instant} (later : state.clock ≤ now) (at_ : state.list.expireAt = some due)
      (reached : due ≤ instant) :
      RedisStep maxRequestNum duration state (.expire now)
        { state with list := {}, clock := now }

/-- Any number of calls on a key that starts unused. -/
def redisLimiter (maxRequestNum : Nat) (duration : Int) : System RedisState RedisLabel where
  Initial state := state.list = {} ∧ state.calls = [] ∧ state.accepted = []
  Step := RedisStep maxRequestNum duration

/-- The condition on a step. A call accepts its request only while fewer than `maxRequestNum`
entries of the list are recent, and the key expires only when none is. -/
def StepInTime (maxRequestNum : Nat) (duration : Int) (state : RedisState) : RedisLabel → Prop
  | .arrive => True
  | .command call now =>
      call.accepts = true → recent (1000 * duration) now state.list.entries < maxRequestNum
  | .expire now => recent (1000 * duration) now state.list.entries = 0

variable {maxRequestNum : Nat} {duration : Int} {state next : RedisState} {label : RedisLabel}

/-- The list tracks the log of accepted requests, and no window holds too many. -/
structure Bounded (maxRequestNum : Nat) (duration : Int) (state : RedisState) : Prop where
  tracks : Tracks maxRequestNum (1000 * duration) state.clock state.list.entries state.accepted
  window : WindowBound maxRequestNum (1000 * duration) state.accepted

theorem Bounded.initial (valid : (redisLimiter maxRequestNum duration).Initial state) :
    Bounded maxRequestNum duration state := by
  obtain ⟨list, -, accepted⟩ := valid
  constructor
  · rw [list, accepted]
    exact .nil
  · rw [accepted]
    exact .nil _ _

/-- A call that accepts puts the time in front of the list; another keeps the entries or, while
it trims, at least `maxRequestNum` of them. -/
theorem RedisCall.next_entries {call following : RedisCall} {list after : RedisList}
    {now offset : Int}
    (taken : call.next maxRequestNum duration now offset list = some (after, following)) :
    if call.accepts then after.entries = parsedTime now offset :: list.entries
    else ∃ count, maxRequestNum ≤ count ∧ after.entries = list.entries.take count := by
  have same : ∀ entries : List Int, ∃ count, maxRequestNum ≤ count ∧ entries = entries.take count := by
    intro entries
    refine ⟨max maxRequestNum entries.length, Nat.le_max_left _ _, ?_⟩
    rw [List.take_of_length_le (Nat.le_max_right _ _)]
  cases call with
  | counting =>
      cases taken
      exact same _
  | pushing =>
      cases taken
      rfl
  | reading =>
      simp only [RedisCall.next] at taken
      cases last : list.lIndexLast with
      | none =>
          rw [last] at taken
          cases taken
          exact same _
      | some oldTime =>
          rw [last] at taken
          cases taken
          exact same _
  | comparing oldTime =>
      cases taken
      exact same _
  | rotating =>
      cases taken
      rfl
  | trimming =>
      cases taken
      exact ⟨maxRequestNum - 1 + 1, by omega, rfl⟩
  | expiring verdict =>
      cases taken
      rw [RedisList.entries_expire]
      exact same _
  | done verdict => cases taken

/-- A step in time leads from a bounded state to a bounded one. -/
theorem Bounded.step (bounded : Bounded maxRequestNum duration state)
    (inTime : StepInTime maxRequestNum duration state label)
    (transition : (redisLimiter maxRequestNum duration).Step state label next) :
    Bounded maxRequestNum duration next := by
  obtain ⟨tracks, window⟩ := bounded
  cases transition with
  | arrive => exact ⟨tracks, window⟩
  | @command before after call following list now instant offset later read at_ taken =>
      have entries := RedisCall.next_entries taken
      rw [read] at entries
      cases accepts : call.accepts with
      | true =>
          rw [if_pos accepts] at entries
          have few := inTime accepts
          rw [tracks.recent_kept_lt_iff later] at few
          constructor
          · dsimp only
            rw [entries, if_pos rfl]
            exact tracks.push later
          · dsimp only
            rw [if_pos rfl]
            exact window.push few
      | false =>
          rw [if_neg (by simp [accepts])] at entries
          obtain ⟨count, enough, entries⟩ := entries
          constructor
          · dsimp only
            rw [entries, if_neg (by simp)]
            exact (tracks.wait later).trim enough
          · exact window
  | @expire now due instant later at_ reached =>
      refine ⟨(tracks.wait later).lose ?_, window⟩
      intro time member
      have old := List.countP_eq_zero.mp inTime time member
      rw [decide_eq_true_eq] at old
      omega

/-- The first request that is accepted out of time exceeds the bound. -/
theorem not_windowBound_of_late_step (positive : 0 < duration) {call : RedisCall} {now : Int}
    (bounded : Bounded maxRequestNum duration state)
    (transition : (redisLimiter maxRequestNum duration).Step state (.command call now) next)
    (late : ¬ StepInTime maxRequestNum duration state (.command call now)) :
    ¬ WindowBound maxRequestNum (1000 * duration) next.accepted := by
  simp only [StepInTime, Classical.not_imp] at late
  obtain ⟨accepts, many⟩ := late
  cases transition with
  | command later read at_ taken =>
      rw [bounded.tracks.recent_kept_lt_iff later] at many
      dsimp only
      rw [if_pos accepts]
      have past : ∀ time ∈ state.accepted, time ≤ now :=
        fun time member => Int.le_trans (bounded.tracks.past time member) later
      exact WindowBound.not_push past (by omega) (by omega)

/-! ### A call alone -/

/-- A call that nothing interrupts does what `redisRateLimiter` does. -/
theorem runs_redisRateLimiter (maxRequestNum : Nat) (duration : Int) (list : RedisList)
    (accepted : List Int) (now offset : Int) :
    ∃ labels logged, (redisLimiter maxRequestNum duration).Runs
      { list, calls := [.counting], accepted, clock := parsedTime now offset } labels
      { list := (redisRateLimiter maxRequestNum duration now offset list).1
        calls := [.done (redisRateLimiter maxRequestNum duration now offset list).2]
        accepted := logged
        clock := parsedTime now offset } := by
  have take : ∀ {list after : RedisList} {call following : RedisCall} {log : List Int},
      call.next maxRequestNum duration now offset list = some (after, following) →
      RedisStep maxRequestNum duration
        { list, calls := [call], accepted := log, clock := parsedTime now offset }
        (.command call (parsedTime now offset))
        { list := after
          calls := [following]
          accepted := if call.accepts then parsedTime now offset :: log else log
          clock := parsedTime now offset } :=
    fun taken => @RedisStep.command _ _ _ [] [] _ _ _ _ now offset (Int.le_refl _) rfl rfl taken
  have counted := @take list list .counting _ accepted rfl
  unfold redisRateLimiter
  by_cases room : list.lLen < maxRequestNum
  · rw [if_pos room] at counted ⊢
    have pushed := @take list _ .pushing _ accepted rfl
    exact ⟨_, _, .head counted (.head pushed (.single (take rfl)))⟩
  · rw [if_neg room] at counted ⊢
    cases last : list.lIndexLast with
    | none =>
        have read := @take list list .reading (.done .internalServerError) accepted
          (by simp only [RedisCall.next, last])
        exact ⟨_, _, .head counted (.single read)⟩
    | some oldTime =>
        have read := @take list list .reading (.comparing oldTime) accepted
          (by simp only [RedisCall.next, last])
        have compared := @take list list (.comparing oldTime) _ accepted rfl
        dsimp only
        by_cases fresh : elapsedSeconds oldTime (parsedTime now offset) < duration
        · rw [if_pos fresh] at compared ⊢
          exact ⟨_, _, .head counted (.head read (.head compared (.single (take rfl))))⟩
        · rw [if_neg fresh] at compared ⊢
          have rotated := @take list _ .rotating _ accepted rfl
          have trimmed := @take (list.lPush (parsedTime now offset)) _ .trimming _
            (parsedTime now offset :: accepted) rfl
          exact ⟨_, _, .head counted (.head read (.head compared (.head rotated (.head trimmed
            (.single (take rfl))))))⟩

/-! ### Two calls at once -/

/-- A key nobody used, and calls that are about to count its entries. -/
def unusedKey (calls : List RedisCall) : RedisState where
  list := {}
  calls := calls
  clock := 0

end MessagePusher.RateLimit
