import Mathlib.Data.Nat.Find

/-!
# Loops that move a position

A loop that starts at zero and moves its position by `next` while it is in front of `stop`. It
arrives where each pass moves on, and then some pass crosses each position on the way.
-/

namespace MessagePusher.Semantics.Cursor

/-- The position after some passes; behind `stop` it rests. -/
def position (next : Nat → Nat) (stop : Nat) : Nat → Nat
  | 0 => 0
  | passes + 1 =>
      if position next stop passes < stop then next (position next stop passes)
      else position next stop passes

/-- Every pass of the loop moves on. -/
def Advances (next : Nat → Nat) (stop : Nat) : Prop :=
  ∀ passes, position next stop passes < stop →
    position next stop passes < next (position next stop passes)

variable {next : Nat → Nat} {stop passes : Nat}

theorem position_succ_of_lt (inside : position next stop passes < stop) :
    position next stop (passes + 1) = next (position next stop passes) :=
  if_pos inside

theorem position_succ_of_le (arrived : stop ≤ position next stop passes) :
    position next stop (passes + 1) = position next stop passes :=
  if_neg (Nat.not_lt.mpr arrived)

/-- The invariant rule: true at the start and preserved by every pass. -/
theorem position_invariant {Inv : Nat → Prop} (start : Inv 0)
    (pass : ∀ idx, Inv idx → idx < stop → Inv (next idx)) (passes : Nat) :
    Inv (position next stop passes) := by
  induction passes with
  | zero => exact start
  | succ passes ih =>
      by_cases inside : position next stop passes < stop
      · rw [position_succ_of_lt inside]
        exact pass _ ih inside
      · rw [position_succ_of_le (Nat.not_lt.mp inside)]
        exact ih

/-- A loop that has arrived stays. -/
theorem position_of_le {later : Nat} (arrived : stop ≤ position next stop passes)
    (after : passes ≤ later) : position next stop later = position next stop passes := by
  induction after with
  | refl => rfl
  | @step later _ ih =>
      rw [← ih] at arrived
      rw [position_succ_of_le arrived, ih]

/-- Where the loop has not arrived, it had not before. -/
theorem lt_of_position_lt {before : Nat} (inside : position next stop passes < stop)
    (earlier : before ≤ passes) : position next stop before < stop := by
  by_contra arrived
  rw [position_of_le (Nat.not_lt.mp arrived) earlier] at inside
  exact arrived inside

namespace Advances

theorem le_position (advances : Advances next stop) (passes : Nat) :
    passes ≤ position next stop passes ∨ stop ≤ position next stop passes := by
  induction passes with
  | zero => exact .inl (Nat.zero_le _)
  | succ passes ih =>
      by_cases inside : position next stop passes < stop
      · have moved := advances passes inside
        have reached := ih.resolve_right (Nat.not_le.mpr inside)
        rw [position_succ_of_lt inside]
        exact .inl (Nat.lt_of_le_of_lt reached moved)
      · rw [position_succ_of_le (Nat.not_lt.mp inside)]
        exact .inr (Nat.not_lt.mp inside)

/-- A loop that moves on arrives. -/
theorem arrives (advances : Advances next stop) : ∃ passes, stop ≤ position next stop passes :=
  ⟨stop, (advances.le_position stop).elim id id⟩

/-- The loop arrives with some pass for the first time. -/
theorem first_arrival (advances : Advances next stop) :
    ∃ passes, stop ≤ position next stop passes ∧
      ∀ before < passes, position next stop before < stop :=
  ⟨Nat.find advances.arrives, Nat.find_spec advances.arrives,
    fun _ before => Nat.not_le.mp (Nat.find_min advances.arrives before)⟩

/-- Some pass crosses a position on the way. -/
theorem crosses (advances : Advances next stop) {target : Nat} (inside : target < stop) :
    ∃ passes, position next stop passes ≤ target ∧ target < next (position next stop passes) := by
  have beyond : ∃ passes, target < position next stop passes := by
    obtain ⟨passes, arrived⟩ := advances.arrives
    exact ⟨passes, Nat.lt_of_lt_of_le inside arrived⟩
  have notStart : Nat.find beyond ≠ 0 := by
    intro start
    have crossed := Nat.find_spec beyond
    rw [start] at crossed
    exact Nat.not_lt_zero _ crossed
  -- the pass before the first one that lands behind the target
  obtain ⟨passes, last⟩ := Nat.exists_eq_succ_of_ne_zero notStart
  have before : position next stop passes ≤ target := by
    refine Nat.not_lt.mp (Nat.find_min beyond ?_)
    rw [last]
    exact Nat.lt_succ_self _
  have crossed := Nat.find_spec beyond
  rw [last, position_succ_of_lt (Nat.lt_of_le_of_lt before inside)] at crossed
  exact ⟨passes, before, crossed⟩

end Advances

end MessagePusher.Semantics.Cursor
