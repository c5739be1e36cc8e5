import MessagePusher.Middleware.RateLimit
import MessagePusher.RateLimit.Memory

/-!
# When the two back ends agree

The calls on one key go to both limiters at once, each call at one clock reading: a whole
second and the offset of the local zone from UTC. The cleaner runs when it likes, and
Redis drops an expired key when it likes. The memory counts instants. Redis stores local
times and reads them back as if they were UTC, so that a change of the offset, as at the
end of summer time, makes a stored call look older or younger than it is.
-/

namespace MessagePusher.RateLimit

open Common Middleware Semantics

/-- A call at a second, in a zone that many seconds ahead of UTC. -/
structure Stamp where
  time : Int
  offset : Int

namespace Stamp

/-- What Redis stores for the call. -/
def stored (stamp : Stamp) : Int := parsedTime (1000 * stamp.time) (1000 * stamp.offset)

/-- How old the call is at a later one, in the times that Redis compares. -/
def listedAge (older newer : Stamp) : Int :=
  newer.time + newer.offset - (older.time + older.offset)

theorem elapsedSeconds_stored (older newer : Stamp) :
    elapsedSeconds older.stored newer.stored = older.listedAge newer := by
  rw [stored, stored, parsedTime, parsedTime, ← Int.mul_add, ← Int.mul_add, elapsedSeconds_whole,
    listedAge]

end Stamp

/-- The settings of `rateLimitFactory` for one limit, whatever the key. -/
def factorySettings (maxRequestNum : Nat) (duration : Int) (positive : 1 ≤ maxRequestNum)
    (bounded : duration * second ≤ rateLimitKeyExpirationDuration) : LimitSettings where
  maxRequestNum _ := maxRequestNum
  duration _ := duration
  expirationDuration := rateLimitKeyExpirationDuration
  positive _ := positive
  bounded _ := bounded

/-- Both limiters on one key. -/
structure PairedState where
  memory : MemoryState
  redis : RedisList
  /-- The calls that Redis let through, newest first. -/
  passed : List Stamp := []

inductive PairedLabel where
  | request (stamp : Stamp)
  | clear (now : Int)
  | expire (now : Int)

/-- A call goes to both; each cleans up for itself. -/
inductive PairedStep (settings : LimitSettings) (key : String) (state : PairedState) :
    PairedLabel → PairedState → Prop where
  | request {stamp : Stamp} {memory redis verdict}
      (remembered : (memoryLimiter settings).Step state.memory (.request key stamp.time) memory)
      (listed : redisRateLimiter (settings.maxRequestNum key) (settings.duration key)
        (1000 * stamp.time) (1000 * stamp.offset) state.redis = (redis, verdict)) :
      PairedStep settings key state (.request stamp)
        { memory
          redis
          passed := if verdict = .pass then stamp :: state.passed else state.passed }
  | clear {now memory} (cleared : (memoryLimiter settings).Step state.memory (.clear now) memory) :
      PairedStep settings key state (.clear now) { state with memory }
  | expire {now due} (later : state.memory.clock ≤ now) (at_ : state.redis.expireAt = some due)
      (reached : due ≤ 1000 * now) :
      PairedStep settings key state (.expire now)
        { state with memory := { state.memory with clock := now }, redis := {} }

def pairedLimiters (settings : LimitSettings) (key : String) : System PairedState PairedLabel where
  Initial state :=
    (memoryLimiter settings).Initial state.memory ∧ state.redis = {} ∧ state.passed = []
  Step := PairedStep settings key

/-- The condition on a call. If the list is full, the offset has not moved the age of the oldest
call in it across the duration. -/
def AgeKept (limit : Nat) (duration : Int) (state : PairedState) (stamp : Stamp) : Prop :=
  limit ≤ state.redis.entries.length → ∀ oldest, state.passed[limit - 1]? = some oldest →
    (oldest.listedAge stamp < duration ↔ stamp.time - oldest.time < duration)

/-- The same as a condition on a step. -/
def StepKeepsAge (limit : Nat) (duration : Int) (state : PairedState) : PairedLabel → Prop
  | .request stamp => AgeKept limit duration state stamp
  | _ => True

/-! ### The list -/

/-- What a call does to a list that is no longer than the limit. -/
theorem redisRateLimiter_cases {limit : Nat} (positive : 0 < limit) (duration now offset : Int)
    {list : RedisList} (short : list.entries.length ≤ limit) :
    if ∀ oldest, list.entries[limit - 1]? = some oldest →
        ¬ elapsedSeconds oldest (parsedTime now offset) < duration then
      redisRateLimiter limit duration now offset list =
        ({ list with entries := (parsedTime now offset :: list.entries).take limit }.expire now,
          .pass)
    else redisRateLimiter limit duration now offset list = (list.expire now, .tooManyRequests) := by
  unfold redisRateLimiter RedisList.lLen
  by_cases room : list.entries.length < limit
  · have missing : list.entries[limit - 1]? = none := List.getElem?_eq_none (by omega)
    rw [if_pos (by simp [missing]), if_pos room, List.take_of_length_le (by rw [List.length_cons]; omega)]
    rfl
  · have last : list.lIndexLast = list.entries[limit - 1]? := by
      rw [RedisList.lIndexLast, List.getLast?_eq_getElem?]
      congr 2
      omega
    obtain ⟨oldTime, found⟩ : ∃ oldTime, list.entries[limit - 1]? = some oldTime :=
      ⟨_, List.getElem?_eq_getElem (by omega)⟩
    rw [if_neg room, last, found]
    simp only [Option.some.injEq, forall_eq']
    have trimmed : limit - 1 + 1 = limit := by omega
    by_cases fresh : elapsedSeconds oldTime (parsedTime now offset) < duration
    · rw [if_neg (not_not_intro fresh), if_pos fresh]
    · rw [if_pos fresh, if_neg fresh, RedisList.lTrim, RedisList.lPush, trimmed]

/-- The list of a key beside the calls it let through: it stores the newest of them, and loses
others only when they have outlived the duration. -/
structure RedisTracks (limit : Nat) (duration clock : Int) (list : RedisList)
    (kept passed : List Stamp) : Prop where
  entries : list.entries = kept.map Stamp.stored
  newest : kept <+: passed
  tracks : Tracks limit duration clock (kept.map Stamp.time) (passed.map Stamp.time)
  short : kept.length ≤ limit
  due : ∀ due, list.expireAt = some due → ∀ stamp ∈ kept,
    1000 * (stamp.time + wholeSeconds rateLimitKeyExpirationDuration) ≤ due

namespace RedisTracks

variable {limit : Nat} {duration clock now : Int} {list : RedisList} {kept passed : List Stamp}

theorem nil : RedisTracks limit duration clock {} [] [] :=
  ⟨rfl, List.prefix_refl _, .nil, Nat.zero_le _, by simp⟩

theorem wait (holds : RedisTracks limit duration clock list kept passed) (later : clock ≤ now) :
    RedisTracks limit duration now list kept passed :=
  ⟨holds.entries, holds.newest, holds.tracks.wait later, holds.short, holds.due⟩

theorem entries_short (holds : RedisTracks limit duration clock list kept passed) :
    list.entries.length ≤ limit := by
  rw [holds.entries, List.length_map]
  exact holds.short

/-- `EXPIRE` lets every entry outlive the expiration duration. -/
theorem renew (entries : list.entries = kept.map Stamp.stored) (newest : kept <+: passed)
    (tracks : Tracks limit duration clock (kept.map Stamp.time) (passed.map Stamp.time))
    (short : kept.length ≤ limit) :
    RedisTracks limit duration clock (list.expire (1000 * clock)) kept passed := by
  refine ⟨by rw [RedisList.entries_expire]; exact entries, newest, tracks, short, ?_⟩
  intro due renewed stamp member
  have past := tracks.kept_past stamp.time (List.mem_map_of_mem member)
  have listed : list.entries ≠ [] := by
    rw [entries]
    exact List.ne_nil_of_mem (List.mem_map_of_mem member)
  unfold RedisList.expire at renewed
  rw [if_neg listed] at renewed
  obtain rfl := Option.some.inj renewed
  omega

/-- The key expires only after all its entries stopped counting. -/
theorem lose (holds : RedisTracks limit duration clock list kept passed)
    (bounded : duration * second ≤ rateLimitKeyExpirationDuration) (later : clock ≤ now) {due : Int}
    (at_ : list.expireAt = some due) (reached : due ≤ 1000 * now) :
    RedisTracks limit duration now {} [] passed := by
  refine ⟨rfl, List.nil_prefix, (holds.wait later).tracks.lose ?_, Nat.zero_le _, by simp⟩
  intro time member
  obtain ⟨stamp, kept_, rfl⟩ := List.mem_map.mp member
  have outlived := holds.due due at_ stamp kept_
  have threshold : duration ≤ wholeSeconds rateLimitKeyExpirationDuration :=
    Int.le_tdiv_of_mul_le (by decide) bounded
  omega

/-- The decision of a call by the oldest call that is kept. -/
theorem passes_iff (holds : RedisTracks limit duration clock list kept passed) (positive : 0 < limit)
    (stamp : Stamp) :
    (redisRateLimiter limit duration (1000 * stamp.time) (1000 * stamp.offset) list).2 = .pass ↔
      ∀ oldest, kept[limit - 1]? = some oldest → duration ≤ oldest.listedAge stamp := by
  have outcome := redisRateLimiter_cases positive duration (1000 * stamp.time)
    (1000 * stamp.offset) holds.entries_short
  have decision : (∀ oldest, list.entries[limit - 1]? = some oldest → ¬ elapsedSeconds oldest
      (parsedTime (1000 * stamp.time) (1000 * stamp.offset)) < duration) ↔
      ∀ oldest, kept[limit - 1]? = some oldest → duration ≤ oldest.listedAge stamp := by
    rw [holds.entries, List.getElem?_map]
    change (∀ entry, _ → ¬ elapsedSeconds entry stamp.stored < duration) ↔ _
    cases kept[limit - 1]? with
    | none => simp
    | some oldest =>
        simp only [Option.map_some, Option.some.injEq, forall_eq', Stamp.elapsedSeconds_stored,
          Int.not_lt]
  rw [← decision]
  split_ifs at outcome with admits
  · rw [outcome]
    exact iff_of_true rfl admits
  · rw [outcome]
    exact iff_of_false (fun passes => by cases passes) admits

/-- The answer `500` is for a list with something else in it. -/
theorem ne_internalServerError (holds : RedisTracks limit duration clock list kept passed)
    (positive : 0 < limit) (now offset : Int) :
    (redisRateLimiter limit duration now offset list).2 ≠ .internalServerError := by
  have outcome := redisRateLimiter_cases positive duration now offset holds.entries_short
  split_ifs at outcome
  · rw [outcome]
    exact fun failed => by cases failed
  · rw [outcome]
    exact fun failed => by cases failed

/-- A call that is let through is stored; another changes nothing but the expiry. -/
theorem call (holds : RedisTracks limit duration clock list kept passed) (positive : 0 < limit)
    {stamp : Stamp} (later : clock ≤ stamp.time) {after : RedisList} {verdict : Verdict}
    (called : redisRateLimiter limit duration (1000 * stamp.time) (1000 * stamp.offset) list =
      (after, verdict)) :
    ∃ kept, RedisTracks limit duration stamp.time after kept
      (if verdict = .pass then stamp :: passed else passed) := by
  have outcome := redisRateLimiter_cases positive duration (1000 * stamp.time)
    (1000 * stamp.offset) holds.entries_short
  rw [called] at outcome
  split_ifs at outcome with admits
  · obtain ⟨rfl, rfl⟩ := Prod.mk.inj outcome
    rw [if_pos rfl]
    refine ⟨(stamp :: kept).take limit, renew ?_ ?_ ?_ (List.length_take_le _ _)⟩
    · rw [List.map_take, List.map_cons, holds.entries]
      rfl
    · exact (List.take_prefix _ _).trans ((List.prefix_cons_inj _).mpr holds.newest)
    · rw [List.map_take, List.map_cons, List.map_cons]
      exact (holds.tracks.push later).trim (Nat.le_refl limit)
  · obtain ⟨rfl, rfl⟩ := Prod.mk.inj outcome
    rw [if_neg (by decide)]
    exact ⟨kept, renew holds.entries holds.newest (holds.wait later).tracks holds.short⟩

/-- The condition on a call says of the kept calls what it says of the list. -/
theorem ageKept_iff {state : PairedState} (positive : 0 < limit)
    (holds : RedisTracks limit duration clock state.redis kept state.passed) (stamp : Stamp) :
    AgeKept limit duration state stamp ↔ ∀ oldest, kept[limit - 1]? = some oldest →
      (oldest.listedAge stamp < duration ↔ stamp.time - oldest.time < duration) := by
  rw [AgeKept, holds.entries, List.length_map]
  by_cases full : limit ≤ kept.length
  · obtain ⟨rest, whole⟩ := holds.newest
    rw [← whole, List.getElem?_append_left (by omega)]
    simp only [full, true_implies]
  · rw [List.getElem?_eq_none (by omega : kept.length ≤ limit - 1)]
    simp [full]

end RedisTracks

/-! ### Both -/

/-- Both limiters track one log. -/
structure PairedTracks (settings : LimitSettings) (key : String) (state : PairedState) : Prop where
  memory : MemoryTracks settings state.memory
  same : state.memory.accepted key = state.passed.map Stamp.time
  redis : ∃ kept, RedisTracks (settings.maxRequestNum key) (settings.duration key)
    state.memory.clock state.redis kept state.passed

section Steps

variable {settings : LimitSettings} {key : String} {state next : PairedState} {label : PairedLabel}

theorem PairedTracks.initial (valid : (pairedLimiters settings key).Initial state) :
    PairedTracks settings key state := by
  obtain ⟨fresh, empty, none_⟩ := valid
  refine ⟨.initial fresh, ?_, [], ?_⟩
  · rw [fresh.2, none_]
    rfl
  · rw [empty, none_]
    exact .nil

/-- The limiters decide alike exactly when the condition holds. -/
theorem PairedTracks.agree_iff (holds : PairedTracks settings key state) {stamp : Stamp}
    (later : state.memory.clock ≤ stamp.time) :
    ∃ limiter passed, state.memory.limiter.request key (settings.maxRequestNum key)
        (settings.duration key) stamp.time = some (limiter, passed) ∧
      (((redisRateLimiter (settings.maxRequestNum key) (settings.duration key)
          (1000 * stamp.time) (1000 * stamp.offset) state.redis).2 = .pass ↔ passed = true) ↔
        AgeKept (settings.maxRequestNum key) (settings.duration key) state stamp) := by
  obtain ⟨memory, same, kept, redis⟩ := holds
  have positive := settings.positive key
  obtain ⟨limiter, answered⟩ := memory.answers key later
  refine ⟨limiter, _, answered, ?_⟩
  rw [decide_eq_true_iff, redis.passes_iff positive, redis.ageKept_iff positive, same,
    redis.tracks.recent_lt_iff positive later, List.getElem?_map]
  cases kept[settings.maxRequestNum key - 1]? with
  | none => simp
  | some oldest =>
      simp only [Option.map_some, Option.some.injEq, forall_eq']
      omega

/-- The calls that the memory accepts after a call at which both agree. -/
theorem PairedTracks.logged_eq (same : state.memory.accepted key = state.passed.map Stamp.time)
    {stamp : Stamp} {verdict : Verdict} {passed : Bool} (agree : verdict = .pass ↔ passed = true) :
    logged state.memory.accepted key stamp.time passed key =
      (if verdict = .pass then stamp :: state.passed else state.passed).map Stamp.time := by
  unfold logged
  by_cases passes : verdict = .pass
  · rw [if_pos passes, if_pos (agree.mp passes), Function.update_self, same, List.map_cons]
  · rw [if_neg passes, if_neg (fun accepted => passes (agree.mpr accepted)), same]

theorem PairedTracks.step (expiration : settings.expirationDuration = rateLimitKeyExpirationDuration)
    (holds : PairedTracks settings key state)
    (keeps : StepKeepsAge (settings.maxRequestNum key) (settings.duration key) state label)
    (transition : (pairedLimiters settings key).Step state label next) :
    PairedTracks settings key next := by
  cases transition with
  | @request stamp memory redis verdict remembered listed =>
      cases remembered with
      | @request _ _ limiter passed later answered =>
          obtain ⟨expected, decided, decision, agree⟩ := holds.agree_iff later
          obtain ⟨rfl, rfl⟩ := Prod.mk.inj (Option.some.inj (answered.symm.trans decision))
          have alike := agree.mpr keeps
          rw [listed] at alike
          obtain ⟨kept, tracked⟩ := holds.redis
          exact ⟨holds.memory.step (.request later answered), logged_eq holds.same alike,
            tracked.call (settings.positive key) later listed⟩
  | @clear now memory cleared =>
      obtain ⟨kept, tracked⟩ := holds.redis
      refine ⟨holds.memory.step cleared, ?_, kept, ?_⟩
      · cases cleared with
        | clear later => exact holds.same
      · cases cleared with
        | clear later => exact tracked.wait later
  | @expire now due later at_ reached =>
      obtain ⟨kept, tracked⟩ := holds.redis
      have bounded := settings.bounded key
      rw [expiration] at bounded
      exact ⟨⟨holds.memory.expiration, fun other => (holds.memory.queues other).wait later⟩,
        holds.same, [], tracked.lose bounded later at_ reached⟩

end Steps

/-- After every run whose calls meet the condition both limiters track one log. -/
theorem pairedTracks_of_reachable {settings : LimitSettings} {key : String} {state : PairedState}
    (expiration : settings.expirationDuration = rateLimitKeyExpirationDuration)
    (reachable : ((pairedLimiters settings key).guard
      (StepKeepsAge (settings.maxRequestNum key) (settings.duration key))).Reachable state) :
    PairedTracks settings key state := by
  let guarded := (pairedLimiters settings key).guard
    (StepKeepsAge (settings.maxRequestNum key) (settings.duration key))
  have initial : ∀ {state}, guarded.Initial state → PairedTracks settings key state :=
    PairedTracks.initial
  have preserved : ∀ {state label next}, PairedTracks settings key state →
      guarded.Step state label next → PairedTracks settings key next :=
    fun holds transition => holds.step expiration transition.1 transition.2
  exact reachable.invariant initial preserved

/-- After every run on one key whose calls meet the condition, whatever the gaps, the cleanings
and the expiries, the next call gets the same answer from both limiters exactly when it meets
the condition. -/
theorem limiters_agree_iff {maxRequestNum : Nat} {duration : Int} (positive : 1 ≤ maxRequestNum)
    (bounded : duration * second ≤ rateLimitKeyExpirationDuration) {key : String}
    {state : PairedState}
    (reachable : ((pairedLimiters (factorySettings maxRequestNum duration positive bounded)
      key).guard (StepKeepsAge maxRequestNum duration)).Reachable state)
    {stamp : Stamp} (later : state.memory.clock ≤ stamp.time) :
    ∃ limiter passed,
      state.memory.limiter.request key maxRequestNum duration stamp.time = some (limiter, passed) ∧
      (((redisRateLimiter maxRequestNum duration (1000 * stamp.time) (1000 * stamp.offset)
          state.redis).2 = .pass ↔ passed = true) ↔
        AgeKept maxRequestNum duration state stamp) := by
  have holds : PairedTracks (factorySettings maxRequestNum duration positive bounded) key state :=
    pairedTracks_of_reachable rfl reachable
  exact holds.agree_iff later

/-! ### A zone that does not change -/

/-- Every call at one offset. -/
def InZone (zone : Int) (_ : PairedState) : PairedLabel → Prop
  | .request stamp => stamp.offset = zone
  | _ => True

/-- In a run at one offset every call meets the condition. -/
theorem reachable_of_inZone {settings : LimitSettings} {key : String} {zone : Int}
    {state : PairedState}
    (reachable : ((pairedLimiters settings key).guard (InZone zone)).Reachable state) :
    (∀ stamp ∈ state.passed, stamp.offset = zone) ∧
      ((pairedLimiters settings key).guard
        (StepKeepsAge (settings.maxRequestNum key) (settings.duration key))).Reachable state := by
  let kept := (pairedLimiters settings key).guard
    (StepKeepsAge (settings.maxRequestNum key) (settings.duration key))
  let Inv (state : PairedState) : Prop :=
    (∀ stamp ∈ state.passed, stamp.offset = zone) ∧ kept.Reachable state
  have initial : ∀ {state}, ((pairedLimiters settings key).guard (InZone zone)).Initial state →
      Inv state := by
    intro state valid
    refine ⟨?_, .initial valid⟩
    rw [valid.2.2]
    exact fun stamp member => absurd member List.not_mem_nil
  have preserved : ∀ {state label next}, Inv state →
      ((pairedLimiters settings key).guard (InZone zone)).Step state label next → Inv next := by
    rintro state label next ⟨inZone, reached⟩ ⟨here, transition⟩
    cases transition with
    | @request stamp memory redis verdict remembered listed =>
        have own : stamp.offset = zone := here
        constructor
        · dsimp only
          split_ifs
          · intro other member
            rcases List.mem_cons.mp member with rfl | member
            · exact own
            · exact inZone other member
          · exact inZone
        · refine reached.step ⟨?_, .request remembered listed⟩
          intro _ oldest found
          rw [Stamp.listedAge, inZone oldest (List.mem_of_getElem? found), own,
            Int.add_sub_add_right]
    | @clear now memory cleared =>
        exact ⟨inZone, reached.step (show kept.Step _ (.clear now) _ from ⟨trivial, .clear cleared⟩)⟩
    | @expire now due later at_ lapsed =>
        exact ⟨inZone, reached.step
          (show kept.Step _ (.expire now) _ from ⟨trivial, .expire later at_ lapsed⟩)⟩
  exact reachable.invariant initial preserved

/-- At one offset the middleware of every configured limit answers the same with and without
Redis. -/
theorem configuredLimits_agree {mark address : String} {maxRequestNum : Nat} {duration zone : Int}
    (configured : (mark, maxRequestNum, duration) ∈ configuredLimits) {state : PairedState}
    (reachable : ((pairedLimiters (factorySettings maxRequestNum duration
      (configuredLimits_valid _ configured).1 (configuredLimits_valid _ configured).2)
      (mark ++ address)).guard (InZone zone)).Reachable state)
    {now : Int} (later : state.memory.clock ≤ now) :
    (memoryRateLimiter state.memory.limiter (mark ++ address) maxRequestNum duration now).map
        Prod.snd =
      some (redisRateLimiter maxRequestNum duration (1000 * now) (1000 * zone) state.redis).2 := by
  obtain ⟨positive, bounded⟩ := configuredLimits_valid _ configured
  obtain ⟨inZone, kept⟩ := reachable_of_inZone reachable
  obtain ⟨limiter, passed, answered, agree⟩ :=
    limiters_agree_iff positive bounded kept
      (show state.memory.clock ≤ (⟨now, zone⟩ : Stamp).time from later)
  have alike := agree.mpr fun _ oldest found => by
    rw [Stamp.listedAge, inZone oldest (List.mem_of_getElem? found), Int.add_sub_add_right]
  obtain ⟨_, tracked⟩ := (pairedTracks_of_reachable rfl kept).redis
  have answers := tracked.ne_internalServerError positive (1000 * now) (1000 * zone)
  rw [memoryRateLimiter, answered]
  cases passed with
  | true => rw [alike.mpr rfl]; rfl
  | false =>
      have refused : (redisRateLimiter maxRequestNum duration (1000 * now) (1000 * zone)
          state.redis).2 ≠ .pass := fun passes => by cases alike.mp passes
      cases verdict : (redisRateLimiter maxRequestNum duration (1000 * now) (1000 * zone)
          state.redis).2 with
      | pass => exact absurd verdict refused
      | tooManyRequests => rfl
      | internalServerError => exact absurd verdict answers

/-! ### A zone that changes -/

/-- A key on which one call a minute passes, before any call and after those that passed. -/
def minuteKey : List Stamp → PairedState
  | [] => { memory := unusedLimiter, redis := {} }
  | stamp :: earlier =>
      { memory :=
          { limiter := (minuteKey earlier).memory.limiter.put "GA::1" [stamp.time]
            accepted := logged (minuteKey earlier).memory.accepted "GA::1" stamp.time true
            clock := stamp.time }
        redis := { entries := [stamp.stored], expireAt := some (1000 * (stamp.time + 1200)) }
        passed := stamp :: earlier }

theorem minuteKey_first : PairedStep (factorySettings 1 60 (by decide) (by decide)) "GA::1"
    (minuteKey []) (.request ⟨0, 3600⟩) (minuteKey [⟨0, 3600⟩]) :=
  .request (MemoryStep.request (Int.le_refl 0) rfl) rfl

/-- Two calls on one key, and the clock put forward by an hour between them: a third gets the
same answer from both. -/
theorem limiters_agree_after_clocks_go_forward :
    ¬ (redisRateLimiter 1 60 (1000 * 130) (1000 * 7200)
      (minuteKey [⟨120, 7200⟩, ⟨0, 3600⟩]).redis).2 = .pass := by
  let settings := factorySettings 1 60 (by decide) (by decide)
  let guarded := (pairedLimiters settings "GA::1").guard (StepKeepsAge 1 60)
  have started : guarded.Reachable (minuteKey []) := .initial ⟨⟨rfl, rfl⟩, rfl, rfl⟩
  have once : guarded.Reachable (minuteKey [⟨0, 3600⟩]) :=
    started.step ⟨(by rintro _ _ ⟨⟩), minuteKey_first⟩
  have moved : StepKeepsAge 1 60 (minuteKey [⟨0, 3600⟩]) (.request ⟨120, 7200⟩) := by
    rintro _ _ ⟨⟩
    decide
  have second : PairedStep settings "GA::1" (minuteKey [⟨0, 3600⟩]) (.request ⟨120, 7200⟩)
      (minuteKey [⟨120, 7200⟩, ⟨0, 3600⟩]) :=
    .request (MemoryStep.request (by decide) rfl) rfl
  have twice : guarded.Reachable (minuteKey [⟨120, 7200⟩, ⟨0, 3600⟩]) := once.step ⟨moved, second⟩
  obtain ⟨limiter, passed, answered, agree⟩ := limiters_agree_iff (by decide) (by decide) twice
    (show (minuteKey [⟨120, 7200⟩, ⟨0, 3600⟩]).memory.clock ≤ (⟨130, 7200⟩ : Stamp).time by decide)
  have kept : AgeKept 1 60 (minuteKey [⟨120, 7200⟩, ⟨0, 3600⟩]) ⟨130, 7200⟩ := by
    rintro _ _ ⟨⟩
    decide
  obtain ⟨rfl, rfl⟩ := Prod.mk.inj (Option.some.inj answered)
  intro passes
  cases (agree.mpr kept).mp passes

/-- A call in summer time, one two minutes later, after its end: Redis takes the first for one
that is yet to come. -/
theorem limiters_differ_after_clocks_go_back :
    ¬ ∀ (maxRequestNum : Nat) (duration : Int) (positive : 1 ≤ maxRequestNum)
      (bounded : duration * second ≤ rateLimitKeyExpirationDuration) (key : String)
      (state : PairedState), (pairedLimiters (factorySettings maxRequestNum duration positive
        bounded) key).Reachable state →
      ∀ stamp : Stamp, state.memory.clock ≤ stamp.time → ∃ limiter passed,
        state.memory.limiter.request key maxRequestNum duration stamp.time = some (limiter, passed) ∧
        ((redisRateLimiter maxRequestNum duration (1000 * stamp.time) (1000 * stamp.offset)
          state.redis).2 = .pass ↔ passed = true) := by
  intro claimed
  let paired := pairedLimiters (factorySettings 1 60 (by decide) (by decide)) "GA::1"
  have started : paired.Reachable (minuteKey []) := .initial ⟨⟨rfl, rfl⟩, rfl, rfl⟩
  have once : paired.Reachable (minuteKey [⟨0, 3600⟩]) := started.step minuteKey_first
  obtain ⟨limiter, passed, answered, agree⟩ :=
    claimed 1 60 (by decide) (by decide) "GA::1" _ once ⟨120, 0⟩ (by decide)
  obtain ⟨rfl, rfl⟩ := Prod.mk.inj (Option.some.inj answered)
  exact absurd (agree.mpr rfl) (by decide)

end MessagePusher.RateLimit
