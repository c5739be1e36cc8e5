import Mathlib.Data.List.Basic

/-!
# Independent assignments

A state in which keys are assigned values, one after the other. An assignment undoes the
ones before it to the same key and commutes with those to other keys, so what a list of
assignments leaves depends on the last one to each key, whatever else the state holds.
-/

namespace MessagePusher.Store

universe u v w

variable {σ : Type u} {κ : Type v} {ν : Type w}

/-- Assignments to one key overwrite, to different keys they commute. -/
structure Independent (assign : σ → κ → ν → σ) : Prop where
  overwrites : ∀ state key earlier later,
    assign (assign state key earlier) key later = assign state key later
  commutes : ∀ state first second value other, first ≠ second →
    assign (assign state first value) second other = assign (assign state second other) first value

/-- The assignments of a list, from the left. -/
def assignAll (assign : σ → κ → ν → σ) (state : σ) (rows : List (κ × ν)) : σ :=
  rows.foldl (fun state row => assign state row.1 row.2) state

variable {assign : σ → κ → ν → σ}

theorem assignAll_append (state : σ) (before after : List (κ × ν)) :
    assignAll assign state (before ++ after) = assignAll assign (assignAll assign state before) after :=
  List.foldl_append ..

namespace Independent

/-- An assignment to a key that the list leaves alone may come before it or after it. -/
theorem assignAll_comm (independent : Independent assign) {key : κ} {rows : List (κ × ν)}
    (absent : ∀ row ∈ rows, row.1 ≠ key) (state : σ) (value : ν) :
    assign (assignAll assign state rows) key value =
      assignAll assign (assign state key value) rows := by
  induction rows generalizing state with
  | nil => rfl
  | cons row rest ih =>
      have head : row.1 ≠ key := absent row (List.mem_cons_self ..)
      have tail : ∀ other ∈ rest, other.1 ≠ key :=
        fun other listed => absent other (List.mem_cons_of_mem _ listed)
      show assign (assignAll assign (assign state row.1 row.2) rest) key value =
        assignAll assign (assign (assign state key value) row.1 row.2) rest
      rw [ih tail, independent.commutes _ _ _ _ _ head]

/-- A list that assigns to the key itself does not see an assignment before it. -/
theorem assignAll_absorbs (independent : Independent assign) {key : κ} {rows : List (κ × ν)}
    (present : ∃ row ∈ rows, row.1 = key) (state : σ) (value : ν) :
    assignAll assign (assign state key value) rows = assignAll assign state rows := by
  induction rows generalizing state with
  | nil =>
      obtain ⟨row, listed, -⟩ := present
      cases listed
  | cons row rest ih =>
      show assignAll assign (assign (assign state key value) row.1 row.2) rest =
        assignAll assign (assign state row.1 row.2) rest
      by_cases same : row.1 = key
      · rw [same, independent.overwrites]
      · obtain ⟨other, listed, named⟩ := present
        rcases List.mem_cons.mp listed with rfl | later
        · exact absurd named same
        · rw [independent.commutes _ _ _ _ _ (Ne.symm same), ih ⟨other, later, named⟩]

/-- A list does not see the assignments before it that are to its own keys. -/
theorem assignAll_covers (independent : Independent assign) {rows history : List (κ × ν)}
    (covered : ∀ past ∈ history, ∃ row ∈ rows, row.1 = past.1) (state : σ) :
    assignAll assign (assignAll assign state history) rows = assignAll assign state rows := by
  induction history generalizing state with
  | nil => rfl
  | cons past rest ih =>
      have tail : ∀ other ∈ rest, ∃ row ∈ rows, row.1 = other.1 :=
        fun other listed => covered other (List.mem_cons_of_mem _ listed)
      show assignAll assign (assignAll assign (assign state past.1 past.2) rest) rows = _
      rw [ih tail, independent.assignAll_absorbs (covered past (List.mem_cons_self ..))]

/-- After a list with distinct keys, none of its assignments changes anything. -/
theorem assignAll_settles (independent : Independent assign) {rows : List (κ × ν)}
    (distinct : (rows.map Prod.fst).Nodup) {row : κ × ν} (listed : row ∈ rows) (state : σ) :
    assign (assignAll assign state rows) row.1 row.2 = assignAll assign state rows := by
  obtain ⟨before, after, rfl⟩ := List.append_of_mem listed
  have absent : ∀ other ∈ after, other.1 ≠ row.1 := by
    intro other later same
    rw [List.map_append, List.map_cons, List.nodup_append] at distinct
    exact (List.nodup_cons.mp distinct.2.1).1 (List.mem_map.mpr ⟨other, later, same⟩)
  have split : assignAll assign state (before ++ row :: after) =
      assignAll assign (assign (assignAll assign state before) row.1 row.2) after :=
    assignAll_append ..
  rw [split, independent.assignAll_comm absent, independent.overwrites]

end Independent

/-- Assignments that change nothing one by one change nothing together. -/
theorem assignAll_settled {state : σ} {rows : List (κ × ν)}
    (settled : ∀ row ∈ rows, assign state row.1 row.2 = state) :
    assignAll assign state rows = state := by
  induction rows with
  | nil => rfl
  | cons row rest ih =>
      show assignAll assign (assign state row.1 row.2) rest = state
      rw [settled row (List.mem_cons_self ..)]
      exact ih fun other listed => settled other (List.mem_cons_of_mem _ listed)

/-- A state that some assignments led to is the one that a list leads to, if it has the keys
of those and none of its own assignments would change the state. -/
theorem Independent.eq_assignAll (independent : Independent assign) {base : σ}
    {history rows : List (κ × ν)} (covered : ∀ past ∈ history, ∃ row ∈ rows, row.1 = past.1)
    (settled : ∀ row ∈ rows, assign (assignAll assign base history) row.1 row.2 =
      assignAll assign base history) :
    assignAll assign base history = assignAll assign base rows :=
  calc assignAll assign base history
      = assignAll assign (assignAll assign base history) rows := (assignAll_settled settled).symm
    _ = assignAll assign base rows := independent.assignAll_covers covered base

end MessagePusher.Store
