import Mathlib.Logic.Function.Basic
import Mathlib.Tactic.Common

/-!
# The rate limiter in memory

`common/rate-limit.go`, with the clock reading of a call as an argument. A duration is
in nanoseconds, a clock reading in seconds. The mutex makes every call and every pass
of the cleaner one step.
-/

namespace MessagePusher.Common

def second : Int := 1000000000

/-- `int64(duration.Seconds())`. -/
def wholeSeconds (duration : Int) : Int := duration.tdiv second

/-- `RateLimitKeyExpirationDuration`. -/
def rateLimitKeyExpirationDuration : Int := 20 * 60 * second

/-- A queue runs from the oldest to the newest accepted time. -/
structure InMemoryRateLimiter where
  store : String → Option (List Int) := fun _ => none
  expirationDuration : Int

namespace InMemoryRateLimiter

def put (limiter : InMemoryRateLimiter) (key : String) (queue : List Int) : InMemoryRateLimiter :=
  { limiter with store := Function.update limiter.store key (some queue) }

/-- Whether the cleaner deletes a queue. -/
def expired (limiter : InMemoryRateLimiter) (now : Int) (queue : List Int) : Bool :=
  match queue.getLast? with
  | none => true
  | some newest => wholeSeconds limiter.expirationDuration < now - newest

/-- One pass of `clearExpiredItems`. -/
def clearExpiredItems (limiter : InMemoryRateLimiter) (now : Int) : InMemoryRateLimiter :=
  { limiter with
    store := fun key => (limiter.store key).filter fun queue => !limiter.expired now queue }

/-- `Request`; without a result the source would panic on the first element of no queue. -/
def request (limiter : InMemoryRateLimiter) (key : String) (maxRequestNum : Nat)
    (duration now : Int) : Option (InMemoryRateLimiter × Bool) :=
  match limiter.store key with
  | none => some (limiter.put key [now], true)
  | some queue =>
      if queue.length < maxRequestNum then some (limiter.put key (queue ++ [now]), true)
      else
        match queue with
        | [] => none
        | oldest :: rest =>
            if duration ≤ now - oldest then some (limiter.put key (rest ++ [now]), true)
            else some (limiter, false)

/-- The times under a key, none if the key is missing. -/
def queue (limiter : InMemoryRateLimiter) (key : String) : List Int :=
  (limiter.store key).getD []

@[simp] theorem expirationDuration_put (limiter : InMemoryRateLimiter) (key : String)
    (queue : List Int) : (limiter.put key queue).expirationDuration = limiter.expirationDuration :=
  rfl

@[simp] theorem queue_put (limiter : InMemoryRateLimiter) (key : String) (times : List Int) :
    (limiter.put key times).queue key = times := by
  simp [queue, put]

theorem queue_put_of_ne {limiter : InMemoryRateLimiter} {key other : String} {times : List Int}
    (apart : other ≠ key) : (limiter.put key times).queue other = limiter.queue other := by
  simp [queue, put, apart]

/-- The cleaner empties a queue that is expired and leaves the others alone. -/
theorem queue_clearExpiredItems (limiter : InMemoryRateLimiter) (now : Int) (key : String) :
    (limiter.clearExpiredItems now).queue key =
      if limiter.expired now (limiter.queue key) then [] else limiter.queue key := by
  rcases Option.eq_none_or_eq_some (limiter.store key) with missing | ⟨times, found⟩
  · simp [queue, clearExpiredItems, missing]
  · by_cases old : limiter.expired now times = true
    · simp [queue, clearExpiredItems, found, Option.filter_some, old]
    · simp [queue, clearExpiredItems, found, Option.filter_some, old]

/-- A call by the queue alone: a key without a queue is one with an empty queue. -/
theorem request_eq (limiter : InMemoryRateLimiter) (key : String) {maxRequestNum : Nat}
    (positive : 0 < maxRequestNum) (duration now : Int) :
    limiter.request key maxRequestNum duration now =
      if (limiter.queue key).length < maxRequestNum then
        some (limiter.put key (limiter.queue key ++ [now]), true)
      else if ∃ oldest, (limiter.queue key).head? = some oldest ∧ duration ≤ now - oldest then
        some (limiter.put key ((limiter.queue key).tail ++ [now]), true)
      else some (limiter, false) := by
  unfold request queue
  cases limiter.store key with
  | none => simp [positive]
  | some times =>
      cases times with
      | nil => simp [positive]
      | cons oldest rest => simp

end InMemoryRateLimiter

end MessagePusher.Common
