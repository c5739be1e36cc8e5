import MessagePusher.Common.RateLimit

/-!
# The rate limiters of the middleware

`middleware/rate-limit.go`. Redis holds one list per key, newest first, with times in
milliseconds, the resolution of `timeFormat`. A call of `redisRateLimiter` runs its
commands one by one; `redisRateLimiter` is a call that nothing interrupts. The clock is
read as an instant and the offset of the local zone from UTC at that instant.
-/

namespace MessagePusher.Middleware

open Common

/-- The list under a key, and when the key is due to expire. A list without entries stands
for a missing key. -/
structure RedisList where
  entries : List Int := []
  expireAt : Option Int := none
deriving DecidableEq

namespace RedisList

/-- `LLEN key`. -/
def lLen (list : RedisList) : Nat := list.entries.length

/-- `LPUSH key time`. -/
def lPush (list : RedisList) (time : Int) : RedisList :=
  { list with entries := time :: list.entries }

/-- `LINDEX key -1`. -/
def lIndexLast (list : RedisList) : Option Int := list.entries.getLast?

/-- `LTRIM key 0 stop`. -/
def lTrim (list : RedisList) (stop : Nat) : RedisList :=
  { list with entries := list.entries.take (stop + 1) }

/-- `EXPIRE` with `RateLimitKeyExpirationDuration`, of which Redis gets whole seconds. -/
def expire (list : RedisList) (now : Int) : RedisList :=
  if list.entries = [] then list
  else { list with expireAt := some (now + 1000 * wholeSeconds rateLimitKeyExpirationDuration) }

@[simp] theorem entries_lPush (list : RedisList) (time : Int) :
    (list.lPush time).entries = time :: list.entries := rfl

@[simp] theorem entries_lTrim (list : RedisList) (stop : Nat) :
    (list.lTrim stop).entries = list.entries.take (stop + 1) := rfl

@[simp] theorem entries_expire (list : RedisList) (now : Int) :
    (list.expire now).entries = list.entries := by
  unfold expire
  split_ifs <;> rfl

end RedisList

/-- What a call answers: it passes the request on, or aborts with a status. -/
inductive Verdict where
  | pass
  | tooManyRequests
  | internalServerError
deriving DecidableEq

/-- What `time.Parse` makes of `time.Now().Format(timeFormat)`. The `Z` of `timeFormat` is
plain text to `Format`, which writes the local time, and to `Parse`, which reads UTC. -/
def parsedTime (now offset : Int) : Int := now + offset

/-- `int64(nowTime.Sub(oldTime).Seconds())`. -/
def elapsedSeconds (oldTime nowTime : Int) : Int := (nowTime - oldTime).tdiv 1000

/-- Where a call of `redisRateLimiter` stands: before its next command. -/
inductive RedisCall where
  | counting
  /-- There was room: `LPUSH` is next. -/
  | pushing
  /-- The list was full: `LINDEX` is next. -/
  | reading
  | comparing (oldTime : Int)
  /-- The oldest time was old enough: `LPUSH` is next, then `LTRIM`. -/
  | rotating
  | trimming
  | expiring (verdict : Verdict)
  | done (verdict : Verdict)
deriving DecidableEq

/-- The call is about to accept its request. -/
def RedisCall.accepts : RedisCall → Bool
  | .pushing | .rotating => true
  | _ => false

/-- The next command of a call, or the comparison between two commands. -/
def RedisCall.next (maxRequestNum : Nat) (duration now offset : Int) (list : RedisList) :
    RedisCall → Option (RedisList × RedisCall)
  | .counting => some (list, if list.lLen < maxRequestNum then .pushing else .reading)
  | .pushing => some (list.lPush (parsedTime now offset), .expiring .pass)
  | .reading =>
      match list.lIndexLast with
      -- the blank answer is no time
      | none => some (list, .done .internalServerError)
      | some oldTime => some (list, .comparing oldTime)
  | .comparing oldTime =>
      some (list, if elapsedSeconds oldTime (parsedTime now offset) < duration then
          .expiring .tooManyRequests
        else .rotating)
  | .rotating => some (list.lPush (parsedTime now offset), .trimming)
  | .trimming => some (list.lTrim (maxRequestNum - 1), .expiring .pass)
  | .expiring verdict => some (list.expire now, .done verdict)
  | .done _ => none

/-- `redisRateLimiter` without interruption, at one clock reading. -/
def redisRateLimiter (maxRequestNum : Nat) (duration now offset : Int) (list : RedisList) :
    RedisList × Verdict :=
  if list.lLen < maxRequestNum then ((list.lPush (parsedTime now offset)).expire now, .pass)
  else
    match list.lIndexLast with
    | none => (list, .internalServerError)
    | some oldTime =>
        if elapsedSeconds oldTime (parsedTime now offset) < duration then
          (list.expire now, .tooManyRequests)
        else
          (((list.lPush (parsedTime now offset)).lTrim (maxRequestNum - 1)).expire now, .pass)

/-- `memoryRateLimiter`; the key is mark and client address. -/
def memoryRateLimiter (limiter : InMemoryRateLimiter) (key : String) (maxRequestNum : Nat)
    (duration now : Int) : Option (InMemoryRateLimiter × Verdict) :=
  (limiter.request key maxRequestNum duration now).map fun (next, passed) =>
    (next, if passed then .pass else .tooManyRequests)

/-- The limits that the router sets up: mark, number and seconds. -/
def configuredLimits : List (String × Nat × Int) :=
  [ ("GW", 60, 3 * 60), ("GA", 60, 3 * 60), ("CT", 20, 20 * 60), ("DW", 10, 60), ("UP", 10, 60) ]

/-- Every configured limit lets requests through and is no longer than a key lives. -/
theorem configuredLimits_valid : ∀ limit ∈ configuredLimits,
    1 ≤ limit.2.1 ∧ limit.2.2 * second ≤ rateLimitKeyExpirationDuration := by
  decide

/-- Between two readings at whole seconds. -/
theorem elapsedSeconds_whole (oldTime nowTime : Int) :
    elapsedSeconds (1000 * oldTime) (1000 * nowTime) = nowTime - oldTime := by
  rw [elapsedSeconds, ← Int.mul_sub, Int.mul_tdiv_cancel_left _ (by decide)]

end MessagePusher.Middleware
