import MessagePusher.Store.Table

/-!
# Columns without a unique index

A column may have no two rows with one value, blank values apart, although the database
does not enforce it. A statement keeps this as long as what it writes is blank or carried
by no other row, and only then.
-/

namespace MessagePusher.Store

universe u v

variable {ρ : Type u} [Record ρ] {α : Type v} {column : ρ → α} {blank : α}

/-- Each value other than `blank` is carried by at most one row. -/
def UniqueColumn (column : ρ → α) (blank : α) (table : Table ρ) : Prop :=
  ∀ left ∈ table.rows, ∀ right ∈ table.rows, column left ≠ blank → column left = column right →
    left = right

instance [DecidableEq ρ] [DecidableEq α] (table : Table ρ) :
    Decidable (UniqueColumn column blank table) :=
  inferInstanceAs (Decidable (∀ left ∈ table.rows, ∀ right ∈ table.rows, column left ≠ blank →
    column left = column right → left = right))

/-- A value that no row but the one under `key` carries, or a blank one. -/
def Unclaimed (column : ρ → α) (blank : α) (table : Table ρ) (key : Int) (value : α) : Prop :=
  value ≠ blank → ∀ row ∈ table.rows, column row = value → Record.id row = key

instance [DecidableEq α] (table : Table ρ) (key : Int) (value : α) :
    Decidable (Unclaimed column blank table key value) :=
  inferInstanceAs (Decidable (value ≠ blank → ∀ row ∈ table.rows, column row = value →
    Record.id row = key))

theorem Unclaimed.of_none {table : Table ρ} {value : α} (key : Int)
    (unclaimed : value ≠ blank → ∀ row ∈ table.rows, column row ≠ value) :
    Unclaimed column blank table key value :=
  fun named row member carries => absurd carries (unclaimed named row member)

namespace UniqueColumn

variable {table next : Table ρ} {key : Int}

/-- The value of a row is unclaimed for that row. -/
theorem unclaimed (unique : UniqueColumn column blank table) {row : ρ}
    (found : table.rowAt key = some row) : Unclaimed column blank table key (column row) := by
  intro named other member carries
  obtain rfl := unique row (Table.rowAt_mem found) other member named carries.symm
  exact Table.rowAt_id found

/-- A written row with an unclaimed value. -/
theorem write (unique : UniqueColumn column blank table) {row : ρ}
    (writes : table.Rewrites next key (some row))
    (unclaimed : Unclaimed column blank table key (column row)) :
    UniqueColumn column blank next := by
  have origin : ∀ other ∈ next.rows, other = row ∨ (other ∈ table.rows ∧ Record.id other ≠ key) := by
    intro other member
    have found := Table.rowAt_of_mem member
    by_cases same : Record.id other = key
    · rw [same, writes.at_key] at found
      exact .inl (Option.some.inj found).symm
    · rw [writes.elsewhere same] at found
      exact .inr ⟨Table.rowAt_mem found, same⟩
  intro left leftMem right rightMem named same
  rcases origin left leftMem with rfl | ⟨leftMem, leftApart⟩
  · rcases origin right rightMem with rfl | ⟨rightMem, rightApart⟩
    · rfl
    · exact absurd (unclaimed named right rightMem same.symm) rightApart
  · rcases origin right rightMem with rfl | ⟨rightMem, -⟩
    · exact absurd (unclaimed (same ▸ named) left leftMem same) leftApart
    · exact unique left leftMem right rightMem named same

/-- A written row with a claimed value. -/
theorem not_write {row : ρ} (writes : table.Rewrites next key (some row))
    (claimed : ¬ Unclaimed column blank table key (column row)) :
    ¬ UniqueColumn column blank next := by
  intro unique
  simp only [Unclaimed, not_forall] at claimed
  obtain ⟨named, other, member, carries, apart⟩ := claimed
  have written : row ∈ next.rows := Table.rowAt_mem writes.at_key
  have kept : other ∈ next.rows :=
    Table.rowAt_mem ((writes.elsewhere apart).trans (Table.rowAt_of_mem member))
  obtain rfl := unique row written other kept named carries.symm
  exact apart (Table.rowAt_id writes.at_key)

/-- A row that goes. -/
theorem delete (unique : UniqueColumn column blank table)
    (writes : table.Rewrites next key none) : UniqueColumn column blank next := by
  have origin : ∀ other ∈ next.rows, other ∈ table.rows := by
    intro other member
    have found := Table.rowAt_of_mem member
    rw [writes] at found
    split_ifs at found
    exact Table.rowAt_mem found
  intro left leftMem right rightMem
  exact unique left (origin left leftMem) right (origin right rightMem)

/-- Statements that leave the column of every row alone. -/
theorem congr (unique : UniqueColumn column blank table)
    (keeps : ∀ key row, next.rowAt key = some row →
      ∃ before, table.rowAt key = some before ∧ column before = column row) :
    UniqueColumn column blank next := by
  intro left leftMem right rightMem named same
  have foundLeft := Table.rowAt_of_mem leftMem
  have foundRight := Table.rowAt_of_mem rightMem
  obtain ⟨oldLeft, heldLeft, leftSame⟩ := keeps _ left foundLeft
  obtain ⟨oldRight, heldRight, rightSame⟩ := keeps _ right foundRight
  have old : oldLeft = oldRight :=
    unique oldLeft (Table.rowAt_mem heldLeft) oldRight (Table.rowAt_mem heldRight)
      (leftSame ▸ named) (leftSame.trans (same.trans rightSame.symm))
  have keys : Record.id left = Record.id right := by
    rw [← Table.rowAt_id heldLeft, ← Table.rowAt_id heldRight, old]
  rw [keys] at foundLeft
  exact Option.some.inj (foundLeft.symm.trans foundRight)

/-- At most one row is selected by a value. -/
theorem length_select_le [DecidableEq α] (unique : UniqueColumn column blank table) {value : α}
    (named : value ≠ blank) : (table.select fun row => column row = value).length ≤ 1 := by
  have ordered : (table.select fun row => column row = value).Pairwise fun left right =>
      Record.id left < Record.id right := table.sorted.filter _
  cases selected : table.select fun row => column row = value with
  | nil => simp
  | cons first rest =>
      cases rest with
      | nil => simp
      | cons second rest =>
          have carries : ∀ row ∈ table.select (fun row => column row = value),
              row ∈ table.rows ∧ column row = value := by
            intro row member
            simpa using member
          rw [selected] at carries ordered
          have one := carries first (by simp)
          have two := carries second (by simp)
          have same : first = second :=
            unique first one.1 second two.1 (one.2 ▸ named) (one.2.trans two.2.symm)
          have below := (List.pairwise_cons.mp ordered).1 second (by simp)
          rw [same] at below
          exact absurd below (Int.lt_irrefl _)

/-- In a column without duplicates exactly one row is selected by a value that is carried. -/
theorem length_select_eq_one_iff [DecidableEq α] (unique : UniqueColumn column blank table)
    {value : α} (named : value ≠ blank) :
    (table.select fun row => column row = value).length = 1 ↔
      ∃ row ∈ table.rows, column row = value := by
  have atMost := unique.length_select_le named
  constructor
  · intro one
    obtain ⟨row, selected⟩ := List.length_eq_one_iff.mp one
    have member : row ∈ table.select fun row => column row = value := by simp [selected]
    exact ⟨row, by simpa using member⟩
  · rintro ⟨row, member, carries⟩
    have selected : row ∈ table.select fun row => column row = value := by simp [member, carries]
    have positive := List.length_pos_of_mem selected
    omega

end UniqueColumn

end MessagePusher.Store
