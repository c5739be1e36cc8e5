import Mathlib.Tactic.Common

/-!
# Sliding logs

A log of accepted times, newest first, and what a limiter may keep of it. An entry is
recent as long as it is less than `duration` old. A limiter that keeps the newest
entries, and loses others only once they are no longer recent, decides by the oldest
entry that counts: `Tracks.recent_lt_iff`. What is accepted in this way never exceeds
the limit in any window: `WindowBound.push`.
-/

namespace MessagePusher.RateLimit

universe u

/-- In a list whose accepted entries come first, fewer than `limit` are accepted exactly when
the entry in place `limit - 1`, if any, is not. -/
theorem countP_lt_iff {α : Type u} {accepts : α → Bool} {entries : List α} {limit : Nat}
    (leading : entries.Pairwise fun newer older => accepts older = true → accepts newer = true)
    (positive : 0 < limit) :
    entries.countP accepts < limit ↔
      ∀ entry, entries[limit - 1]? = some entry → accepts entry = false := by
  induction entries generalizing limit with
  | nil => simp [positive]
  | cons first rest ih =>
      obtain ⟨below, leading⟩ := List.pairwise_cons.mp leading
      by_cases accepted : accepts first = true
      · rw [List.countP_cons_of_pos accepted]
        cases limit with
        | zero => omega
        | succ limit =>
            cases limit with
            | zero => simp [accepted]
            | succ limit =>
                have rest_iff := @ih (limit + 1) leading (by omega)
                simp only [Nat.add_sub_cancel, List.getElem?_cons_succ] at rest_iff ⊢
                rw [← rest_iff]
                omega
      · have none_ : ∀ entry ∈ first :: rest, accepts entry = false := by
          intro entry member
          rcases List.mem_cons.mp member with rfl | member
          · simpa using accepted
          · by_contra fresh
            exact accepted (below entry member (by simpa using fresh))
        have zero : (first :: rest).countP accepts = 0 := by
          apply List.countP_eq_zero.mpr
          intro entry member
          simp [none_ entry member]
        rw [zero]
        apply iff_of_true positive
        intro entry found
        exact none_ entry (List.mem_of_getElem? found)

/-- How many entries are less than `duration` old. -/
def recent (duration now : Int) (log : List Int) : Nat :=
  log.countP fun time => now - time < duration

/-- In a log, newest first, fewer than `limit` entries are recent exactly when the one in place
`limit - 1` is not. -/
theorem recent_lt_iff_of_sorted {limit : Nat} {duration now : Int} {log : List Int}
    (sorted : log.Pairwise fun newer older => older ≤ newer) (positive : 0 < limit) :
    recent duration now log < limit ↔
      ∀ oldest, log[limit - 1]? = some oldest → duration ≤ now - oldest := by
  have leading : log.Pairwise fun newer older =>
      decide (now - older < duration) = true → decide (now - newer < duration) = true := by
    refine sorted.imp ?_
    intro newer older ordered fresh
    rw [decide_eq_true_eq] at fresh ⊢
    omega
  rw [recent, countP_lt_iff leading positive]
  simp only [decide_eq_false_iff_not, Int.not_lt]

/-- What a limiter keeps of a log: its newest entries, and all that are recent if these are
fewer than `limit`. -/
structure Tracks (limit : Nat) (duration clock : Int) (kept log : List Int) : Prop where
  sorted : log.Pairwise fun newer older => older ≤ newer
  past : ∀ time ∈ log, time ≤ clock
  newest : ∃ dropped, log = kept ++ dropped ∧
    (kept.length < limit → ∀ time ∈ dropped, duration ≤ clock - time)

namespace Tracks

variable {limit : Nat} {duration clock now : Int} {kept log : List Int}

theorem nil : Tracks limit duration clock [] [] :=
  ⟨.nil, by simp, [], rfl, by simp⟩

/-- The decision by the oldest entry that counts is the decision by the whole log. -/
theorem recent_lt_iff (tracks : Tracks limit duration clock kept log) (positive : 0 < limit)
    (later : clock ≤ now) :
    recent duration now log < limit ↔
      ∀ oldest, kept[limit - 1]? = some oldest → duration ≤ now - oldest := by
  rw [recent_lt_iff_of_sorted tracks.sorted positive]
  obtain ⟨dropped, rfl, stale⟩ := tracks.newest
  by_cases full : limit ≤ kept.length
  · rw [List.getElem?_append_left (by omega)]
  · have missing : kept[limit - 1]? = none := List.getElem?_eq_none (by omega)
    rw [List.getElem?_append_right (by omega), missing]
    simp only [reduceCtorEq, false_implies, implies_true, iff_true]
    intro entry found
    have old := stale (by omega) entry (List.mem_of_getElem? found)
    omega

/-- The kept entries alone tell whether there is room. -/
theorem recent_kept_lt_iff (tracks : Tracks limit duration clock kept log) (later : clock ≤ now) :
    recent duration now kept < limit ↔ recent duration now log < limit := by
  rcases Nat.eq_zero_or_pos limit with rfl | positive
  · simp
  · have sorted : kept.Pairwise fun newer older => older ≤ newer := by
      obtain ⟨sorted, -, dropped, rfl, -⟩ := tracks
      exact (List.pairwise_append.mp sorted).1
    rw [tracks.recent_lt_iff positive later, recent_lt_iff_of_sorted sorted positive]

/-- Time passes. -/
theorem wait (tracks : Tracks limit duration clock kept log) (later : clock ≤ now) :
    Tracks limit duration now kept log := by
  obtain ⟨sorted, past, dropped, whole, stale⟩ := tracks
  refine ⟨sorted, ?_, dropped, whole, ?_⟩
  · intro time member
    exact Int.le_trans (past time member) later
  · intro short time member
    have old := stale short time member
    omega

/-- An accepted time is put in front. -/
theorem push (tracks : Tracks limit duration clock kept log) (later : clock ≤ now) :
    Tracks limit duration now (now :: kept) (now :: log) := by
  obtain ⟨sorted, past, dropped, rfl, stale⟩ := tracks.wait later
  refine ⟨List.pairwise_cons.mpr ⟨past, sorted⟩, ?_, dropped, rfl, ?_⟩
  · intro time member
    rcases List.mem_cons.mp member with rfl | member
    · exact Int.le_refl _
    · exact past time member
  · intro short
    apply stale
    rw [List.length_cons] at short
    omega

/-- What is kept beyond the limit may go. -/
theorem trim (tracks : Tracks limit duration clock kept log) {count : Nat} (enough : limit ≤ count) :
    Tracks limit duration clock (kept.take count) log := by
  obtain ⟨sorted, past, dropped, rfl, stale⟩ := tracks
  refine ⟨sorted, past, kept.drop count ++ dropped, ?_, ?_⟩
  · rw [← List.append_assoc, List.take_append_drop]
  · intro short time member
    have whole : kept.length < limit := by
      rw [List.length_take] at short
      omega
    rw [List.drop_eq_nil_of_le (by omega), List.nil_append] at member
    exact stale whole time member

/-- Nothing need be kept once no kept entry is recent. -/
theorem lose (tracks : Tracks limit duration clock kept log)
    (old : ∀ time ∈ kept, duration ≤ clock - time) : Tracks limit duration clock [] log := by
  obtain ⟨sorted, past, dropped, rfl, stale⟩ := tracks
  refine ⟨sorted, past, kept ++ dropped, rfl, ?_⟩
  intro positive time member
  rcases List.mem_append.mp member with keeps | drops
  · exact old time keeps
  · cases kept with
    | nil => exact stale positive time drops
    | cons first rest =>
        have below : time ≤ first :=
          (List.pairwise_append.mp sorted).2.2 first List.mem_cons_self time drops
        have oldFirst := old first List.mem_cons_self
        omega

/-- The kept entries are entries of the log. -/
theorem kept_past (tracks : Tracks limit duration clock kept log) : ∀ time ∈ kept, time ≤ clock := by
  obtain ⟨-, past, dropped, rfl, -⟩ := tracks
  intro time member
  exact past time (List.mem_append_left _ member)

end Tracks

/-! ### Windows -/

/-- No window of length `duration` holds more than `limit` entries. -/
def WindowBound (limit : Nat) (duration : Int) (log : List Int) : Prop :=
  ∀ start, (log.countP fun time => start ≤ time ∧ time < start + duration) ≤ limit

theorem WindowBound.nil (limit : Nat) (duration : Int) : WindowBound limit duration [] := by
  intro start
  simp

/-- A time at which fewer than `limit` entries are recent may be added. -/
theorem WindowBound.push {limit : Nat} {duration now : Int} {log : List Int}
    (bound : WindowBound limit duration log)
    (few : recent duration now log < limit) : WindowBound limit duration (now :: log) := by
  intro start
  rw [List.countP_cons]
  split_ifs with inside
  · rw [decide_eq_true_eq] at inside
    have atMost : (log.countP fun time => start ≤ time ∧ time < start + duration) ≤
        recent duration now log := by
      apply List.countP_mono_left
      intro time _ counted
      rw [decide_eq_true_eq] at counted ⊢
      omega
    omega
  · exact bound start

/-- A time at which `limit` entries are recent may not. -/
theorem WindowBound.not_push {limit : Nat} {duration now : Int} {log : List Int}
    (past : ∀ time ∈ log, time ≤ now) (positive : 0 < duration)
    (many : limit ≤ recent duration now log) : ¬ WindowBound limit duration (now :: log) := by
  intro bound
  have counted := bound (now - duration + 1)
  have atLeast : recent duration now log ≤ (log.countP fun time =>
      now - duration + 1 ≤ time ∧ time < now - duration + 1 + duration) := by
    apply List.countP_mono_left
    intro time member fresh
    have before := past time member
    rw [decide_eq_true_eq] at fresh ⊢
    omega
  rw [List.countP_cons_of_pos (by rw [decide_eq_true_eq]; omega)] at counted
  omega

end MessagePusher.RateLimit
