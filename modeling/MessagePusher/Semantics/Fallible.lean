import Mathlib.Data.List.Forall2
import Mathlib.Tactic.SplitIfs

/-!
# Computations that may fail

What it takes for a sequence of steps, or for one step on each element of a list, to go through.
-/

namespace MessagePusher.Semantics.Fallible

universe u v

variable {ε : Type u} {α β γ : Type v}

theorem pure_ok_iff {value result : α} : (pure value : Except ε α) = .ok result ↔ value = result :=
  ⟨Except.ok.inj, congrArg Except.ok⟩

theorem exists_ok {done : Except ε α} (ok : done.isOk = true) : ∃ result, done = .ok result := by
  cases done with
  | error failure => cases ok
  | ok result => exact ⟨result, rfl⟩

/-- Two steps go through when both do. -/
theorem bind_ok_iff {first : Except ε α} {next : α → Except ε β} {result : β} :
    (first >>= next) = .ok result ↔ ∃ value, first = .ok value ∧ next value = .ok result := by
  cases first with
  | error failure => simp [bind, Except.bind]
  | ok value => simp [bind, Except.bind]

/-- A check in front of the rest fails, or changes nothing. -/
theorem check_ok_iff {refused : Prop} [Decidable refused] {failure : ε} {rest : Except ε β}
    {result : β} :
    (if refused then ((.error failure : Except ε PUnit) >>= fun _ => rest) else rest) =
      .ok result ↔ ¬ refused ∧ rest = .ok result := by
  split_ifs with holds
  · exact iff_of_false (by rintro ⟨⟩) fun both => both.1 holds
  · exact ⟨fun done => ⟨holds, done⟩, And.right⟩

/-- A list goes through when each of its elements does. -/
theorem mapM_ok_iff {step : α → Except ε β} {values : List α} {results : List β} :
    values.mapM step = .ok results ↔
      List.Forall₂ (fun value result => step value = .ok result) values results := by
  induction values generalizing results with
  | nil => simp [pure, Except.pure, eq_comm]
  | cons value values ih =>
      rw [List.mapM_cons, bind_ok_iff]
      constructor
      · rintro ⟨head, first, rest⟩
        obtain ⟨tail, others, same⟩ := bind_ok_iff.1 rest
        cases same
        exact .cons first (ih.mp others)
      · rintro (_ | ⟨first, others⟩)
        exact ⟨_, first, bind_ok_iff.2 ⟨_, ih.mpr others, rfl⟩⟩

/-- Where no element fails, the list goes through. -/
theorem exists_mapM {step : α → Except ε β} {values : List α}
    (each : ∀ value ∈ values, ∃ result, step value = .ok result) :
    ∃ results, values.mapM step = .ok results := by
  induction values with
  | nil => exact ⟨[], rfl⟩
  | cons value values ih =>
      obtain ⟨result, first⟩ := each value List.mem_cons_self
      obtain ⟨results, others⟩ := ih fun other member => each other (List.mem_cons_of_mem _ member)
      exact ⟨result :: results, mapM_ok_iff.2 (.cons first (mapM_ok_iff.1 others))⟩

/-- Every result comes from an element. -/
theorem mem_of_mapM {step : α → Except ε β} {values : List α} {results : List β}
    (done : values.mapM step = .ok results) {result : β} (member : result ∈ results) :
    ∃ value ∈ values, step value = .ok result := by
  have pairs := mapM_ok_iff.1 done
  clear done
  induction pairs with
  | nil => cases member
  | cons first _ ih =>
      rcases List.mem_cons.mp member with rfl | later
      · exact ⟨_, List.mem_cons_self, first⟩
      · obtain ⟨value, known, same⟩ := ih later
        exact ⟨value, List.mem_cons_of_mem _ known, same⟩

/-- Every element has a result. -/
theorem mapM_mem {step : α → Except ε β} {values : List α} {results : List β}
    (done : values.mapM step = .ok results) {value : α} (member : value ∈ values) :
    ∃ result ∈ results, step value = .ok result := by
  have pairs := mapM_ok_iff.1 done
  clear done
  induction pairs with
  | nil => cases member
  | cons first _ ih =>
      rcases List.mem_cons.mp member with rfl | later
      · exact ⟨_, List.mem_cons_self, first⟩
      · obtain ⟨result, known, same⟩ := ih later
        exact ⟨result, List.mem_cons_of_mem _ known, same⟩

/-- What each step keeps of its element, the results have in the same order. -/
theorem map_of_mapM {step : α → Except ε β} {values : List α} {results : List β}
    {view : α → γ} {shown : β → γ} (done : values.mapM step = .ok results)
    (kept : ∀ value result, step value = .ok result → shown result = view value) :
    results.map shown = values.map view := by
  have pairs := mapM_ok_iff.1 done
  clear done
  induction pairs with
  | nil => rfl
  | cons first _ ih => rw [List.map_cons, List.map_cons, kept _ _ first, ih]

end MessagePusher.Semantics.Fallible
