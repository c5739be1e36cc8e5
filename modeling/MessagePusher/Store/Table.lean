import Mathlib.Tactic.Common

/-!
# Tables with an integer primary key

A `Table` keeps its rows in strictly increasing order of primary key, together
with the auto-increment counter, which no key exceeds. `Record.clash` stands for
the unique indexes besides the primary key. Insertion and update answer `none`
where the database reports a violated key or index; every other failure is the
caller's affair.
-/

namespace MessagePusher.Store

universe u

/-- A row type: its primary key, and the conflict relation of its unique indexes. -/
class Record (ρ : Type u) where
  id : ρ → Int
  withId : Int → ρ → ρ
  clash : ρ → ρ → Bool
  id_withId : ∀ key row, id (withId key row) = key
  withId_id : ∀ row, withId (id row) row = row
  clash_comm : ∀ left right, clash left right = clash right left

export Record (clash)

attribute [simp] Record.id_withId Record.withId_id

/-- Rows in key order, pairwise compatible, below the auto-increment counter. -/
structure Table (ρ : Type u) [Record ρ] where
  rows : List ρ
  counter : Int
  sorted : rows.Pairwise fun left right => Record.id left < Record.id right
  unique : rows.Pairwise fun left right => clash left right = false
  counterNonneg : 0 ≤ counter
  bounded : ∀ row ∈ rows, Record.id row ≤ counter

namespace Table

variable {ρ : Type u} [Record ρ]

/-- Tables are equal when their rows and counters are. -/
@[ext]
theorem ext {left right : Table ρ} (rows : left.rows = right.rows)
    (counter : left.counter = right.counter) : left = right := by
  cases left
  cases right
  cases rows
  cases counter
  rfl

/-- The table nothing was ever inserted into. -/
def empty : Table ρ where
  rows := []
  counter := 0
  sorted := .nil
  unique := .nil
  counterNonneg := Int.le_refl 0
  bounded := by simp

/-- The counter of a table in which two rows were inserted. -/
theorem two_nonneg : (0 : Int) ≤ 2 := by decide

/-- The row with a given primary key. -/
def rowAt (table : Table ρ) (key : Int) : Option ρ :=
  table.rows.find? fun row => Record.id row = key

/-- The first row, in key order, that meets a condition. -/
def first (table : Table ρ) (accepts : ρ → Bool) : Option ρ :=
  table.rows.find? accepts

/-- All rows that meet a condition, in key order. -/
def select (table : Table ρ) (accepts : ρ → Bool) : List ρ :=
  table.rows.filter accepts

/-- Two rows of one table with one key are the same row. -/
theorem eq_of_id_eq (table : Table ρ) {left right : ρ} (leftMem : left ∈ table.rows)
    (rightMem : right ∈ table.rows) (same : Record.id left = Record.id right) :
    left = right := by
  have forward : table.rows.Pairwise fun a b => Record.id a = Record.id b → a = b :=
    table.sorted.imp fun below equal => absurd equal (Int.ne_of_lt below)
  have backward : table.rows.Pairwise (flip fun a b => Record.id a = Record.id b → a = b) :=
    table.sorted.imp fun below equal => absurd equal.symm (Int.ne_of_lt below)
  exact forward.forall_of_forall_of_flip (fun _ _ _ => rfl) backward leftMem rightMem same

/-- Two rows of one table that agree on a unique index are the same row. -/
theorem eq_of_clash (table : Table ρ) {left right : ρ} (leftMem : left ∈ table.rows)
    (rightMem : right ∈ table.rows) (agree : clash left right = true) : left = right := by
  have forward : table.rows.Pairwise fun a b => clash a b = true → a = b :=
    table.unique.imp fun apart equal => absurd (apart.symm.trans equal) Bool.false_ne_true
  have backward : table.rows.Pairwise (flip fun a b => clash a b = true → a = b) :=
    table.unique.imp fun apart equal =>
      absurd (apart.symm.trans ((Record.clash_comm _ _).trans equal)) Bool.false_ne_true
  exact forward.forall_of_forall_of_flip (fun _ _ _ => rfl) backward leftMem rightMem agree

/-- The row of a key is the one in the table with it. -/
theorem rowAt_eq_some_iff {table : Table ρ} {key : Int} {row : ρ} :
    table.rowAt key = some row ↔ row ∈ table.rows ∧ Record.id row = key := by
  constructor
  · intro found
    exact ⟨List.mem_of_find?_eq_some found, by simpa using List.find?_some found⟩
  · rintro ⟨member, rfl⟩
    have isSome : (table.rowAt (Record.id row)).isSome := by
      simpa [rowAt] using ⟨row, member, rfl⟩
    obtain ⟨other, found⟩ := Option.isSome_iff_exists.mp isSome
    have sameId : Record.id other = Record.id row := by simpa using List.find?_some found
    have same := table.eq_of_id_eq (List.mem_of_find?_eq_some found) member sameId
    rw [found, same]

theorem rowAt_id {table : Table ρ} {key : Int} {row : ρ} (found : table.rowAt key = some row) :
    Record.id row = key :=
  (rowAt_eq_some_iff.mp found).2

theorem rowAt_mem {table : Table ρ} {key : Int} {row : ρ} (found : table.rowAt key = some row) :
    row ∈ table.rows :=
  (rowAt_eq_some_iff.mp found).1

/-- A row is found by its key. -/
theorem rowAt_of_mem {table : Table ρ} {row : ρ} (member : row ∈ table.rows) :
    table.rowAt (Record.id row) = some row :=
  rowAt_eq_some_iff.mpr ⟨member, rfl⟩

/-- No row is found for a key that no row has. -/
theorem rowAt_eq_none_iff {table : Table ρ} {key : Int} :
    table.rowAt key = none ↔ ∀ row ∈ table.rows, Record.id row ≠ key := by
  simp [rowAt]

theorem first_mem {table : Table ρ} {accepts : ρ → Bool} {row : ρ}
    (found : table.first accepts = some row) : row ∈ table.rows :=
  List.mem_of_find?_eq_some found

theorem first_accepts {table : Table ρ} {accepts : ρ → Bool} {row : ρ}
    (found : table.first accepts = some row) : accepts row = true :=
  List.find?_some found

/-- A row is found when there is one. -/
theorem first_isSome_iff {table : Table ρ} {accepts : ρ → Bool} :
    (table.first accepts).isSome ↔ ∃ row ∈ table.rows, accepts row = true := by
  simp [first]

/-- The rows that a query selects are those that it accepts. -/
@[simp]
theorem mem_select {table : Table ρ} {accepts : ρ → Bool} {row : ρ} :
    row ∈ table.select accepts ↔ row ∈ table.rows ∧ accepts row = true := by
  simp [select]

/-- Selected rows have distinct keys. -/
theorem select_ids_nodup (table : Table ρ) (accepts : ρ → Bool) :
    ((table.select accepts).map Record.id).Nodup := by
  rw [List.Nodup, List.pairwise_map]
  exact (table.sorted.filter accepts).imp fun below => Int.ne_of_lt below

/-- The first row that meets a condition is the head of all that do. -/
theorem first_eq_head (table : Table ρ) (accepts : ρ → Bool) :
    table.first accepts = (table.select accepts).head? := by
  simp [first, select]

/-! ### Insertion -/

/-- The key an inserted row gets: its own, or the next one when it has none. -/
def keyFor (table : Table ρ) (row : ρ) : Int :=
  if Record.id row = 0 then table.counter + 1 else Record.id row

/-- The database accepts the insertion: the key is free and no unique index clashes. -/
def Insertable (table : Table ρ) (row : ρ) : Prop :=
  (∀ other ∈ table.rows, Record.id other ≠ table.keyFor row) ∧
    ∀ other ∈ table.rows, clash (Record.withId (table.keyFor row) row) other = false

instance (table : Table ρ) (row : ρ) : Decidable (table.Insertable row) :=
  inferInstanceAs (Decidable (_ ∧ _))

/-- The rows after inserting `row` under a free key. -/
def placed (table : Table ρ) (row : ρ) : List ρ :=
  table.rows.filter (fun other => Record.id other < Record.id row) ++
    row :: table.rows.filter (fun other => Record.id row < Record.id other)

private theorem placed_sorted (table : Table ρ) (row : ρ) :
    (table.placed row).Pairwise fun left right => Record.id left < Record.id right := by
  refine List.pairwise_append.mpr ⟨table.sorted.filter _, ?_, ?_⟩
  · exact List.pairwise_cons.mpr ⟨by simp, table.sorted.filter _⟩
  · intro left leftMem right rightMem
    have below : Record.id left < Record.id row := by simpa using (List.mem_filter.mp leftMem).2
    rcases List.mem_cons.mp rightMem with rfl | rightMem
    · exact below
    · exact Int.lt_trans below (by simpa using (List.mem_filter.mp rightMem).2)

private theorem placed_unique (table : Table ρ) (row : ρ)
    (free : ∀ other ∈ table.rows, clash row other = false) :
    (table.placed row).Pairwise fun left right => clash left right = false := by
  have ordered : table.rows.Pairwise fun left right =>
      Record.id left < Record.id right ∧ clash left right = false :=
    List.pairwise_and_iff.mpr ⟨table.sorted, table.unique⟩
  have unordered : ∀ left ∈ table.rows, ∀ right ∈ table.rows,
      Record.id left < Record.id right → clash left right = false := by
    intro left leftMem right rightMem below
    have forward : table.rows.Pairwise fun a b =>
        Record.id a < Record.id b → clash a b = false := by
      refine table.unique.imp ?_
      intro _ _ same _
      exact same
    have backward : table.rows.Pairwise (flip fun a b =>
        Record.id a < Record.id b → clash a b = false) :=
      ordered.imp fun both above => absurd above (Int.not_lt.mpr (Int.le_of_lt both.1))
    exact forward.forall_of_forall_of_flip (fun _ _ self => absurd self (Int.lt_irrefl _))
      backward leftMem rightMem below
  refine List.pairwise_append.mpr ⟨table.unique.filter _, ?_, ?_⟩
  · refine List.pairwise_cons.mpr ⟨?_, table.unique.filter _⟩
    intro other member
    exact free other (List.mem_filter.mp member).1
  · intro left leftMem right rightMem
    rcases List.mem_cons.mp rightMem with rfl | rightMem
    · rw [Record.clash_comm]
      exact free left (List.mem_filter.mp leftMem).1
    · obtain ⟨leftMem, below⟩ := List.mem_filter.mp leftMem
      obtain ⟨rightMem, above⟩ := List.mem_filter.mp rightMem
      exact unordered left leftMem right rightMem
        (Int.lt_trans (of_decide_eq_true below) (of_decide_eq_true above))

/-- Insert a row, answering the row as stored. -/
def insert (table : Table ρ) (row : ρ) : Option (Table ρ × ρ) :=
  let stored := Record.withId (table.keyFor row) row
  if accepted : table.Insertable row then
    some
      ({ rows := table.placed stored
         counter := max table.counter (table.keyFor row)
         sorted := table.placed_sorted stored
         unique := table.placed_unique stored accepted.2
         counterNonneg := Int.le_trans table.counterNonneg (Int.le_max_left _ _)
         bounded := by
           intro other member
           rcases List.mem_append.mp member with member | member
           · exact Int.le_trans (table.bounded other (List.mem_filter.mp member).1)
               (Int.le_max_left _ _)
           · rcases List.mem_cons.mp member with rfl | member
             · rw [Record.id_withId]
               exact Int.le_max_right _ _
             · exact Int.le_trans (table.bounded other (List.mem_filter.mp member).1)
                 (Int.le_max_left _ _) },
        stored)
  else none

/-- An insertion fails exactly when the row may not be inserted. -/
theorem insert_eq_none_iff {table : Table ρ} {row : ρ} :
    table.insert row = none ↔ ¬ table.Insertable row := by
  simp [insert]

/-- Everything an accepted insertion does. -/
theorem insert_spec {table next : Table ρ} {row stored : ρ}
    (inserted : table.insert row = some (next, stored)) :
    table.Insertable row ∧ stored = Record.withId (table.keyFor row) row ∧
      next.counter = max table.counter (table.keyFor row) ∧
      next.rows = table.placed stored := by
  by_cases accepted : table.Insertable row
  · simp only [insert, accepted, dite_true, Option.some.injEq, Prod.mk.injEq] at inserted
    obtain ⟨rfl, rfl⟩ := inserted
    exact ⟨accepted, rfl, rfl, rfl⟩
  · simp [insert, accepted] at inserted

/-- The inserted row has a key no row had. -/
theorem insert_fresh {table next : Table ρ} {row stored : ρ}
    (inserted : table.insert row = some (next, stored)) :
    table.rowAt (Record.id stored) = none := by
  obtain ⟨accepted, rfl, -, -⟩ := insert_spec inserted
  simpa [rowAt_eq_none_iff] using accepted.1

/-- A row that is inserted was not there, as its key was free. -/
theorem insert_notMem {table next : Table ρ} {row stored : ρ}
    (inserted : table.insert row = some (next, stored)) : stored ∉ table.rows := by
  intro member
  have found := rowAt_of_mem member
  rw [insert_fresh inserted] at found
  cases found

/-- An insertion adds the stored row. -/
theorem mem_insert {table next : Table ρ} {row stored other : ρ}
    (inserted : table.insert row = some (next, stored)) :
    other ∈ next.rows ↔ other = stored ∨ other ∈ table.rows := by
  obtain ⟨-, -, -, rows⟩ := insert_spec inserted
  have fresh := rowAt_eq_none_iff.mp (insert_fresh inserted)
  rw [rows]
  simp only [placed, List.mem_append, List.mem_cons, List.mem_filter, decide_eq_true_eq]
  constructor
  · rintro (⟨member, -⟩ | rfl | ⟨member, -⟩)
    · exact .inr member
    · exact .inl rfl
    · exact .inr member
  · rintro (rfl | member)
    · exact .inr (.inl rfl)
    · rcases Int.lt_or_gt_of_ne (fresh other member) with below | above
      · exact .inl ⟨member, below⟩
      · exact .inr (.inr ⟨member, above⟩)

/-- Reading after an insertion. -/
theorem rowAt_insert {table next : Table ρ} {row stored : ρ} {key : Int}
    (inserted : table.insert row = some (next, stored)) :
    next.rowAt key = if key = Record.id stored then some stored else table.rowAt key := by
  ext other
  rw [rowAt_eq_some_iff, mem_insert inserted]
  have fresh := rowAt_eq_none_iff.mp (insert_fresh inserted)
  split_ifs with same
  · subst same
    constructor
    · rintro ⟨rfl | member, sameId⟩
      · rfl
      · exact absurd sameId (fresh other member)
    · rintro ⟨⟩
      exact ⟨.inl rfl, rfl⟩
  · rw [rowAt_eq_some_iff]
    constructor
    · rintro ⟨rfl | member, rfl⟩
      · exact absurd rfl same
      · exact ⟨member, rfl⟩
    · rintro ⟨member, rfl⟩
      exact ⟨.inr member, rfl⟩

/-- A row inserted without a key gets one above every key ever used. -/
theorem insert_id_of_unset {table next : Table ρ} {row stored : ρ}
    (inserted : table.insert row = some (next, stored)) (unset : Record.id row = 0) :
    Record.id stored = table.counter + 1 ∧ next.counter = table.counter + 1 := by
  obtain ⟨-, rfl, counter, -⟩ := insert_spec inserted
  have key : table.keyFor row = table.counter + 1 := by simp [keyFor, unset]
  refine ⟨by simp [key], ?_⟩
  rw [counter, key]
  omega

/-- No inserted row has the key zero, which stands for none. -/
theorem insert_id_ne_zero {table next : Table ρ} {row stored : ρ}
    (inserted : table.insert row = some (next, stored)) : Record.id stored ≠ 0 := by
  by_cases unset : Record.id row = 0
  · have above := (insert_id_of_unset inserted unset).1
    have nonneg := table.counterNonneg
    omega
  · obtain ⟨-, rfl, -, -⟩ := insert_spec inserted
    rw [Record.id_withId, keyFor, if_neg unset]
    exact unset

/-- An insertion adds one row at most. -/
theorem length_insert_le {table next : Table ρ} {row stored : ρ}
    (inserted : table.insert row = some (next, stored)) :
    next.rows.length ≤ table.rows.length + 1 := by
  obtain ⟨-, -, -, rows⟩ := insert_spec inserted
  rw [rows, placed, List.length_append, List.length_cons]
  have apart : ∀ others : List ρ,
      (others.filter fun other => Record.id other < Record.id stored).length +
        (others.filter fun other => Record.id stored < Record.id other).length ≤ others.length := by
    intro others
    induction others with
    | nil => exact Nat.le_refl 0
    | cons other rest ih =>
        simp only [List.filter_cons, decide_eq_true_eq]
        split_ifs <;> simp only [List.length_cons] <;> omega
  have both := apart table.rows
  omega

/-- A row without a key is refused only for a clash. -/
theorem insertable_iff_of_unset {table : Table ρ} {row : ρ} (unset : Record.id row = 0) :
    table.Insertable row ↔
      ∀ other ∈ table.rows, clash (Record.withId (table.counter + 1) row) other = false := by
  have key : table.keyFor row = table.counter + 1 := if_pos unset
  rw [Insertable, key]
  refine and_iff_right fun other member same => ?_
  have bounded := table.bounded other member
  omega

/-! ### Update -/

/-- The rows after `change` was applied to the row under `key`. -/
def changed (table : Table ρ) (key : Int) (change : ρ → ρ) : List ρ :=
  table.rows.map fun row => if Record.id row = key then Record.withId key (change row) else row

private theorem changed_id (key : Int) (change : ρ → ρ) (row : ρ) :
    Record.id (if Record.id row = key then Record.withId key (change row) else row) =
      Record.id row := by
  split_ifs with same
  · simp [same]
  · rfl

/-- Apply `change` to the row under `key`; a missing row is no error, a violated
unique index is. -/
def update (table : Table ρ) (key : Int) (change : ρ → ρ) : Option (Table ρ) :=
  if compatible : (table.changed key change).Pairwise fun left right => clash left right = false then
    some
      { rows := table.changed key change
        counter := table.counter
        sorted := by
          refine List.pairwise_map.mpr (table.sorted.imp ?_)
          intro left right below
          simpa only [changed_id] using below
        unique := compatible
        counterNonneg := table.counterNonneg
        bounded := by
          intro row member
          obtain ⟨origin, originMem, rfl⟩ := List.mem_map.mp member
          simpa only [changed_id] using table.bounded origin originMem }
  else none

/-- An update changes its row in place and leaves the counter. -/
theorem update_rows {table next : Table ρ} {key : Int} {change : ρ → ρ}
    (updated : table.update key change = some next) :
    next.rows = table.changed key change ∧ next.counter = table.counter := by
  unfold update at updated
  split_ifs at updated with compatible
  cases updated
  exact ⟨rfl, rfl⟩

/-- Reading after an update. -/
theorem rowAt_update {table next : Table ρ} {key at_ : Int} {change : ρ → ρ}
    (updated : table.update key change = some next) :
    next.rowAt at_ = if at_ = key then (table.rowAt key).map fun row =>
      Record.withId key (change row) else table.rowAt at_ := by
  have rows := (update_rows updated).1
  ext row
  rw [rowAt_eq_some_iff, rows]
  simp only [changed, List.mem_map]
  split_ifs with same
  · subst same
    simp only [Option.map_eq_some_iff, rowAt_eq_some_iff]
    constructor
    · rintro ⟨⟨origin, originMem, rfl⟩, sameId⟩
      rw [changed_id] at sameId
      exact ⟨origin, ⟨originMem, sameId⟩, by simp [sameId]⟩
    · rintro ⟨origin, ⟨originMem, sameId⟩, rfl⟩
      exact ⟨⟨origin, originMem, by simp [sameId]⟩, by simp⟩
  · rw [rowAt_eq_some_iff]
    constructor
    · rintro ⟨⟨origin, originMem, rfl⟩, sameId⟩
      rw [changed_id] at sameId
      have other : Record.id origin ≠ key := by
        rw [sameId]
        exact same
      simpa [other] using ⟨originMem, sameId⟩
    · rintro ⟨member, rfl⟩
      exact ⟨⟨row, member, by simp [same]⟩, rfl⟩

/-- A change that leaves the unique indexes of the row alone is always accepted. -/
theorem update_isSome {table : Table ρ} {key : Int} {change : ρ → ρ}
    (keeps : ∀ row ∈ table.rows, Record.id row = key → ∀ other,
      clash (Record.withId key (change row)) other = clash row other) :
    ∃ next, table.update key change = some next := by
  have keepsLeft : ∀ row ∈ table.rows, ∀ other,
      clash (if Record.id row = key then Record.withId key (change row) else row) other =
        clash row other := by
    intro row member other
    split_ifs with same
    · exact keeps row member same other
    · rfl
  have compatible : (table.changed key change).Pairwise fun left right =>
      clash left right = false := by
    refine List.pairwise_map.mpr (table.unique.imp_of_mem ?_)
    intro left right leftMem rightMem free
    rw [keepsLeft left leftMem, Record.clash_comm, keepsLeft right rightMem, Record.clash_comm,
      free]
  simp [update, compatible]

/-- A change is accepted where the changed row clashes with no other. -/
theorem update_isSome_of_free {table : Table ρ} {key : Int} {change : ρ → ρ} {row : ρ}
    (found : table.rowAt key = some row)
    (free : ∀ other ∈ table.rows, Record.id other ≠ key →
      clash (Record.withId key (change row)) other = false) :
    ∃ next, table.update key change = some next := by
  have atKey : ∀ other ∈ table.rows, Record.id other = key → other = row := by
    intro other member same
    exact table.eq_of_id_eq member (rowAt_mem found) (same.trans (rowAt_id found).symm)
  have compatible : (table.changed key change).Pairwise fun left right =>
      clash left right = false := by
    refine List.pairwise_map.mpr
      ((List.pairwise_and_iff.mpr ⟨table.sorted, table.unique⟩).imp_of_mem ?_)
    rintro left right leftMem rightMem ⟨below, apart⟩
    by_cases first : Record.id left = key
    · have second : Record.id right ≠ key := fun same => absurd (same ▸ first ▸ below) (by omega)
      rw [if_pos first, if_neg second, atKey left leftMem first]
      exact free right rightMem second
    · rw [if_neg first]
      by_cases second : Record.id right = key
      · rw [if_pos second, atKey right rightMem second, Record.clash_comm]
        exact free left leftMem first
      · rw [if_neg second]
        exact apart
  exact ⟨_, dif_pos compatible⟩

/-! ### Update of all rows that meet a condition -/

/-- The rows after `change` was applied to those that meet a condition. -/
def changedWhere (table : Table ρ) (accepts : ρ → Bool) (change : ρ → ρ) : List ρ :=
  table.rows.map fun row =>
    if accepts row then Record.withId (Record.id row) (change row) else row

private theorem changedWhere_id (accepts : ρ → Bool) (change : ρ → ρ) (row : ρ) :
    Record.id (if accepts row then Record.withId (Record.id row) (change row) else row) =
      Record.id row := by
  split_ifs
  · rw [Record.id_withId]
  · rfl

/-- Apply `change` to every row that meets a condition; a violated unique index is an error. -/
def updateWhere (table : Table ρ) (accepts : ρ → Bool) (change : ρ → ρ) : Option (Table ρ) :=
  if compatible : (table.changedWhere accepts change).Pairwise fun left right =>
      clash left right = false then
    some
      { rows := table.changedWhere accepts change
        counter := table.counter
        sorted := by
          refine List.pairwise_map.mpr (table.sorted.imp ?_)
          intro left right below
          simpa only [changedWhere_id] using below
        unique := compatible
        counterNonneg := table.counterNonneg
        bounded := by
          intro row member
          obtain ⟨origin, originMem, rfl⟩ := List.mem_map.mp member
          simpa only [changedWhere_id] using table.bounded origin originMem }
  else none

/-- Reading after an update of the rows that meet a condition. -/
theorem rowAt_updateWhere {table next : Table ρ} {accepts : ρ → Bool} {change : ρ → ρ}
    (updated : table.updateWhere accepts change = some next) (key : Int) :
    next.rowAt key = (table.rowAt key).map fun row =>
      if accepts row then Record.withId key (change row) else row := by
  unfold updateWhere at updated
  split_ifs at updated with compatible
  cases updated
  ext row
  simp only [rowAt_eq_some_iff, Option.map_eq_some_iff, changedWhere, List.mem_map]
  constructor
  · rintro ⟨⟨origin, originMem, rfl⟩, sameId⟩
    rw [changedWhere_id] at sameId
    exact ⟨origin, ⟨originMem, sameId⟩, by rw [sameId]⟩
  · rintro ⟨origin, ⟨originMem, rfl⟩, rfl⟩
    exact ⟨⟨origin, originMem, rfl⟩, changedWhere_id accepts change origin⟩

/-- A change that leaves the unique indexes alone is always accepted. -/
theorem updateWhere_isSome {table : Table ρ} {accepts : ρ → Bool} {change : ρ → ρ}
    (keeps : ∀ row other, clash (Record.withId (Record.id row) (change row)) other =
      clash row other) :
    ∃ next, table.updateWhere accepts change = some next := by
  have keepsLeft : ∀ row other,
      clash (if accepts row then Record.withId (Record.id row) (change row) else row) other =
        clash row other := by
    intro row other
    split_ifs
    · exact keeps row other
    · rfl
  have compatible : (table.changedWhere accepts change).Pairwise fun left right =>
      clash left right = false := by
    refine List.pairwise_map.mpr (table.unique.imp ?_)
    intro left right free
    rw [keepsLeft, Record.clash_comm, keepsLeft, Record.clash_comm, free]
  exact ⟨_, dif_pos compatible⟩

/-! ### Deletion -/

/-- Remove the row under `key`; a missing row is no error. -/
def delete (table : Table ρ) (key : Int) : Table ρ where
  rows := table.rows.filter fun row => Record.id row ≠ key
  counter := table.counter
  sorted := table.sorted.filter _
  unique := table.unique.filter _
  counterNonneg := table.counterNonneg
  bounded row member := table.bounded row (List.mem_filter.mp member).1

/-- Remove every row; the counter goes on. -/
def clear (table : Table ρ) : Table ρ where
  rows := []
  counter := table.counter
  sorted := .nil
  unique := .nil
  counterNonneg := table.counterNonneg
  bounded := by simp

/-- A deletion takes away the row of its key. -/
@[simp]
theorem mem_delete {table : Table ρ} {key : Int} {row : ρ} :
    row ∈ (table.delete key).rows ↔ row ∈ table.rows ∧ Record.id row ≠ key := by
  simp [delete]

@[simp]
theorem counter_delete (table : Table ρ) (key : Int) : (table.delete key).counter = table.counter :=
  rfl

@[simp]
theorem counter_clear (table : Table ρ) : table.clear.counter = table.counter :=
  rfl

/-- Reading after a deletion. -/
@[simp]
theorem rowAt_delete (table : Table ρ) (key at_ : Int) :
    (table.delete key).rowAt at_ = if at_ = key then none else table.rowAt at_ := by
  ext row
  rw [rowAt_eq_some_iff, mem_delete]
  split_ifs with same
  · subst same
    simp only [iff_false]
    rintro ⟨⟨-, other⟩, sameId⟩
    exact other sameId
  · rw [rowAt_eq_some_iff]
    constructor
    · rintro ⟨⟨member, -⟩, sameId⟩
      exact ⟨member, sameId⟩
    · rintro ⟨member, rfl⟩
      exact ⟨⟨member, same⟩, rfl⟩

@[simp]
theorem rowAt_clear (table : Table ρ) (key : Int) : table.clear.rowAt key = none := by
  simp [rowAt, clear]

/-- No row lies above the counter. -/
theorem rowAt_above (table : Table ρ) {key : Int} (above : table.counter < key) :
    table.rowAt key = none := by
  rw [rowAt_eq_none_iff]
  intro row member same
  have bounded := table.bounded row member
  omega

/-- The last row has the greatest key. -/
theorem id_le_last {table : Table ρ} {last row : ρ} (isLast : table.rows.getLast? = some last)
    (member : row ∈ table.rows) : Record.id row ≤ Record.id last := by
  obtain ⟨before, split⟩ := List.getLast?_eq_some_iff.mp isLast
  have sorted := table.sorted
  rw [split] at sorted member
  rcases List.mem_append.mp member with earlier | itself
  · exact Int.le_of_lt ((List.pairwise_append.mp sorted).2.2 row earlier last (by simp))
  · obtain rfl := List.mem_singleton.mp itself
    exact Int.le_refl _

/-! ### What a statement does to the readings -/

/-- `after` reads as `before` does, but for `row` under `key`. -/
def Rewrites (before after : Table ρ) (key : Int) (row : Option ρ) : Prop :=
  ∀ at_, after.rowAt at_ = if at_ = key then row else before.rowAt at_

/-- What was written is found. -/
theorem Rewrites.at_key {before after : Table ρ} {key : Int} {row : Option ρ}
    (writes : before.Rewrites after key row) : after.rowAt key = row := by
  simpa using writes key

/-- The rows of other keys are as before. -/
theorem Rewrites.elsewhere {before after : Table ρ} {key at_ : Int} {row : Option ρ}
    (writes : before.Rewrites after key row) (other : at_ ≠ key) :
    after.rowAt at_ = before.rowAt at_ := by
  simpa [other] using writes at_

/-- A statement that writes a row it finds changes nothing exactly when it writes what is there. -/
theorem Rewrites.unchanged_iff {before after : Table ρ} {key : Int} {old new : ρ}
    (writes : before.Rewrites after key (some new)) (found : before.rowAt key = some old) :
    (∀ at_, after.rowAt at_ = before.rowAt at_) ↔ new = old := by
  constructor
  · intro all
    have here := writes.at_key
    rw [all key, found] at here
    exact (Option.some.inj here).symm
  · rintro rfl at_
    by_cases same : at_ = key
    · rw [same, writes.at_key, found]
    · exact writes.elsewhere same

/-- A statement that writes a row it finds puts it in the place of the old one. -/
theorem Rewrites.rows_eq {before after : Table ρ} {key : Int} {old new : ρ}
    (writes : before.Rewrites after key (some new)) (found : before.rowAt key = some old) :
    after.rows = before.rows.map fun row => if Record.id row = key then new else row := by
  have number : Record.id new = key := rowAt_id writes.at_key
  have sorted : (before.rows.map fun row => if Record.id row = key then new else row).Pairwise
      fun left right => Record.id left < Record.id right := by
    refine List.pairwise_map.mpr (before.sorted.imp fun {left right} below => ?_)
    have keeps : ∀ row : ρ, Record.id (if Record.id row = key then new else row) = Record.id row := by
      intro row
      split_ifs with same
      · exact number.trans same.symm
      · rfl
    rwa [keeps, keeps]
  have nodup : ∀ {rows : List ρ}, rows.Pairwise (fun left right => Record.id left < Record.id right) →
      rows.Nodup := by
    intro rows ordered
    refine ordered.imp ?_
    rintro left right below rfl
    exact Int.lt_irrefl _ below
  refine List.Perm.eq_of_pairwise (fun left right _ _ below above =>
    absurd (Int.lt_trans below above) (Int.lt_irrefl _)) after.sorted sorted
    ((List.perm_ext_iff_of_nodup (nodup after.sorted) (nodup sorted)).mpr fun row => ?_)
  simp only [List.mem_map]
  constructor
  · intro member
    have there := rowAt_of_mem member
    by_cases same : Record.id row = key
    · rw [same, writes.at_key] at there
      exact ⟨old, rowAt_mem found, by rw [if_pos (rowAt_id found), Option.some.inj there]⟩
    · rw [writes.elsewhere same] at there
      exact ⟨row, rowAt_mem there, if_neg same⟩
  · rintro ⟨origin, member, rfl⟩
    split_ifs with same
    · exact rowAt_mem writes.at_key
    · exact rowAt_mem ((writes.elsewhere same).trans (rowAt_of_mem member))

/-- A selection that takes the new row where it took the old one. -/
theorem Rewrites.select_eq {before after : Table ρ} {key : Int} {old new : ρ} {accepts : ρ → Bool}
    (writes : before.Rewrites after key (some new)) (found : before.rowAt key = some old)
    (same : accepts new = accepts old) :
    after.select accepts =
      (before.select accepts).map fun row => if Record.id row = key then new else row := by
  unfold select
  rw [writes.rows_eq found, List.filter_map]
  congr 1
  refine List.filter_congr fun row member => ?_
  simp only [Function.comp_apply]
  split_ifs with here
  · rw [same, before.eq_of_id_eq member (rowAt_mem found) (here.trans (rowAt_id found).symm)]
  · rfl

/-- A deleted row is selected no more. -/
theorem select_delete (table : Table ρ) (key : Int) (accepts : ρ → Bool) :
    (table.delete key).select accepts =
      (table.select accepts).filter fun row => Record.id row ≠ key := by
  simp only [select, delete, List.filter_filter, Bool.and_comm]

/-- Where all rows have a property, a statement keeps that exactly when the row that it writes
has it. -/
theorem Rewrites.forall_rows_iff {before after : Table ρ} {key : Int} {value : Option ρ}
    {property : ρ → Prop} (writes : before.Rewrites after key value)
    (each : ∀ row ∈ before.rows, property row) :
    (∀ row ∈ after.rows, property row) ↔ ∀ row, value = some row → property row := by
  constructor
  · rintro all row rfl
    exact all row (rowAt_mem writes.at_key)
  · intro written row member
    have found := rowAt_of_mem member
    by_cases same : Record.id row = key
    · rw [same, writes.at_key] at found
      exact written row found
    · rw [writes.elsewhere same] at found
      exact each row (rowAt_mem found)

/-- An insertion writes the stored row. -/
theorem rewrites_insert {table next : Table ρ} {row stored : ρ}
    (inserted : table.insert row = some (next, stored)) :
    table.Rewrites next (Record.id stored) (some stored) :=
  fun _ => rowAt_insert inserted

/-- An update writes the changed row. -/
theorem rewrites_update {table next : Table ρ} {key : Int} {change : ρ → ρ} {row : ρ}
    (updated : table.update key change = some next) (found : table.rowAt key = some row) :
    table.Rewrites next key (some (Record.withId key (change row))) := by
  intro at_
  rw [rowAt_update updated, found]
  rfl

/-- A deletion writes no row. -/
theorem rewrites_delete (table : Table ρ) (key : Int) :
    table.Rewrites (table.delete key) key none :=
  fun at_ => rowAt_delete table key at_

/-- An update of a missing row changes nothing. -/
theorem update_missing {table next : Table ρ} {key : Int} {change : ρ → ρ}
    (updated : table.update key change = some next) (missing : table.rowAt key = none) :
    next = table := by
  obtain ⟨rows, counter⟩ := update_rows updated
  refine ext (rows.trans ?_) counter
  have untouched : ∀ row ∈ table.rows,
      (if Record.id row = key then Record.withId key (change row) else row) = row := by
    intro row member
    rw [if_neg (rowAt_eq_none_iff.mp missing row member)]
  simpa [changed] using List.map_congr_left untouched

end Table

end MessagePusher.Store
