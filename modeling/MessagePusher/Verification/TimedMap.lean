import Mathlib.Logic.Function.Basic
import Mathlib.Tactic.Common

/-!
# Maps whose entries expire

What the latest write of a key left there is in `latest`; an entry counts while it is less
than `validity` old. A store that holds the latest writes, and loses others only once they
have expired, answers as the writes themselves: `Holds.fresh_iff`.
-/

namespace MessagePusher.Verification

universe u v

/-- A write of a map with times. -/
inductive Write (κ : Type u) (α : Type v) where
  | put (key : κ) (value : α) (time : Int)
  | delete (key : κ)
deriving DecidableEq

variable {κ : Type u} {α : Type v} [DecidableEq κ]

def Write.key : Write κ α → κ
  | .put key _ _ => key
  | .delete key => key

/-- What a write leaves under its key. -/
def Write.left : Write κ α → Option (α × Int)
  | .put _ value time => some (value, time)
  | .delete _ => none

/-- What the latest write of a key left there; the log is newest first. -/
def latest (log : List (Write κ α)) (key : κ) : Option (α × Int) :=
  (log.find? fun write => write.key = key).bind Write.left

@[simp]
theorem latest_nil (key : κ) : latest ([] : List (Write κ α)) key = none := rfl

theorem latest_cons (write : Write κ α) (log : List (Write κ α)) :
    latest (write :: log) = Function.update (latest log) write.key write.left := by
  funext key
  unfold latest
  by_cases same : write.key = key
  · subst same
    simp
  · rw [List.find?_cons_of_neg (by simpa using same), Function.update_of_ne (Ne.symm same)]

/-- The entry counts at this time. -/
def Fresh (validity now : Int) (entry : Option (α × Int)) (value : α) : Prop :=
  ∃ time, entry = some (value, time) ∧ now - time < validity

/-- The entry is there and does not count. -/
def Stale (validity now : Int) (entry : Option (α × Int)) : Prop :=
  ∃ value time, entry = some (value, time) ∧ validity ≤ now - time

theorem Stale.later {validity clock now : Int} {entry : Option (α × Int)}
    (stale : Stale validity clock entry) (later : clock ≤ now) : Stale validity now entry := by
  obtain ⟨value, time, found, old⟩ := stale
  exact ⟨value, time, found, by omega⟩

theorem Stale.not_fresh {validity now : Int} {entry : Option (α × Int)} {value : α}
    (stale : Stale validity now entry) : ¬ Fresh validity now entry value := by
  obtain ⟨_, _, found, old⟩ := stale
  rintro ⟨time, same, young⟩
  rw [found] at same
  obtain ⟨-, rfl⟩ := Prod.mk.inj (Option.some.inj same)
  omega

/-- A store holds of every key what the log says, or nothing once that has expired. -/
def Holds (validity clock : Int) (store : κ → Option (α × Int)) (log : List (Write κ α)) : Prop :=
  ∀ key, store key = latest log key ∨ (store key = none ∧ Stale validity clock (latest log key))

namespace Holds

variable {validity clock now : Int} {store : κ → Option (α × Int)} {log : List (Write κ α)}

theorem empty : Holds validity clock (fun _ : κ => (none : Option (α × Int))) [] :=
  fun _ => .inl rfl

/-- Time passes. -/
theorem wait (holds : Holds validity clock store log) (later : clock ≤ now) :
    Holds validity now store log := by
  intro key
  rcases holds key with same | ⟨lost, stale⟩
  · exact .inl same
  · exact .inr ⟨lost, stale.later later⟩

theorem write (holds : Holds validity clock store log) (write : Write κ α) :
    Holds validity clock (Function.update store write.key write.left) (write :: log) := by
  intro key
  rw [latest_cons]
  by_cases same : key = write.key
  · subst same
    simp
  · rw [Function.update_of_ne same, Function.update_of_ne same]
    exact holds key

/-- Entries that have expired may go. -/
theorem prune (holds : Holds validity clock store log) {pruned : κ → Option (α × Int)}
    (goes : ∀ key, pruned key = store key ∨
      (pruned key = none ∧ Stale validity clock (store key))) :
    Holds validity clock pruned log := by
  intro key
  rcases holds key with same | ⟨lost, stale⟩
  · rw [← same]
    exact goes key
  · rcases goes key with kept | ⟨gone, -⟩
    · exact .inr ⟨kept.trans lost, stale⟩
    · exact .inr ⟨gone, stale⟩

/-- What the store says about an entry that counts is what the log says. -/
theorem fresh_iff (holds : Holds validity clock store log) (later : clock ≤ now) (key : κ)
    (value : α) :
    Fresh validity now (store key) value ↔ Fresh validity now (latest log key) value := by
  rcases holds.wait later key with same | ⟨lost, stale⟩
  · rw [same]
  · apply iff_of_false
    · rintro ⟨time, found, -⟩
      rw [lost] at found
      cases found
    · exact stale.not_fresh

end Holds

end MessagePusher.Verification
