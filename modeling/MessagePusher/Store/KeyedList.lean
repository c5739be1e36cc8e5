import Mathlib.Data.List.Perm.Subperm
import Mathlib.Data.List.Nodup
import Mathlib.Tactic.Common

/-!
# Lists whose rows have keys

A list shown to a reader, with its rows told apart by a key: a row replaces the one with its key
or comes in front, and further rows are appended where their keys are new. `assign` and
`assignNew` are the assignments of a dictionary that keeps its insertion order. `DistinctKeys` is
what these operations keep.
-/

namespace MessagePusher.Store.KeyedList

universe u v

variable {α : Type u} {κ : Type v} [DecidableEq κ] (key : α → κ)

/-- A row in the place of the first one with its key, or in front. -/
def upsert (row : α) (rows : List α) : List α :=
  match rows.findIdx? fun other => key other = key row with
  | some index => rows.set index row
  | none => row :: rows

/-- The rows, and behind them those whose keys they do not have. -/
def appendNew (rows more : List α) : List α :=
  rows ++ more.filter fun row => key row ∉ rows.map key

/-- A row in the place of what has its key, or behind the others. -/
def assign (row : α) (rows : List α) : List α :=
  if key row ∈ rows.map key then rows.map fun other => if key other = key row then row else other
  else rows ++ [row]

/-- A row behind the others, unless one has its key. -/
def assignNew (row : α) (rows : List α) : List α :=
  if key row ∈ rows.map key then rows else rows ++ [row]

/-- The row of a key. -/
def rowOf (wanted : κ) (rows : List α) : Option α := rows.find? fun row => key row = wanted

/-- The last row of a key. -/
def lastRowOf (wanted : κ) (rows : List α) : Option α := rowOf key wanted rows.reverse

/-- The rows after a sequence of them came in one after the other. -/
def upsertAll (rows arriving : List α) : List α :=
  arriving.foldl (fun present row => upsert key row present) rows

/-- No key occurs twice. -/
def DistinctKeys (rows : List α) : Prop := (rows.map key).Nodup

variable {key} {row other : α} {rows more arriving : List α}

/-- A row that replaces another one leaves the keys as they are. -/
theorem map_upsert (row : α) (rows : List α) :
    (upsert key row rows).map key =
      if key row ∈ rows.map key then rows.map key else key row :: rows.map key := by
  unfold upsert
  cases found : rows.findIdx? fun other => key other = key row with
  | none =>
      have absent : key row ∉ rows.map key := by
        simpa using List.findIdx?_eq_none_iff.mp found
      rw [if_neg absent]
      rfl
  | some index =>
      obtain ⟨inside, same, -⟩ := List.findIdx?_eq_some_iff_getElem.mp found
      have sameKey : key rows[index] = key row := by simpa using same
      have present : key row ∈ rows.map key :=
        List.mem_map.mpr ⟨rows[index], List.getElem_mem inside, sameKey⟩
      rw [if_pos present, List.map_set, ← sameKey, ← List.getElem_map key, List.set_getElem_self]
      simpa using inside

/-- A row takes the place of the one with its key, or a new one. -/
theorem DistinctKeys.upsert (distinct : DistinctKeys key rows) (row : α) :
    DistinctKeys key (upsert key row rows) := by
  unfold DistinctKeys
  rw [map_upsert]
  split_ifs with present
  · exact distinct
  · exact List.nodup_cons.mpr ⟨present, distinct⟩

/-- Only rows with new keys are appended. -/
theorem DistinctKeys.appendNew (distinct : DistinctKeys key rows)
    (distinctMore : DistinctKeys key more) : DistinctKeys key (appendNew key rows more) := by
  unfold DistinctKeys KeyedList.appendNew
  rw [List.map_append, List.nodup_append]
  refine ⟨distinct, distinctMore.sublist (List.filter_sublist.map key), ?_⟩
  rintro shown present new added rfl
  obtain ⟨row, fresh, rfl⟩ := List.mem_map.mp added
  exact absurd present (by simpa using (List.mem_filter.mp fresh).2)

omit [DecidableEq κ] in
theorem DistinctKeys.filter (distinct : DistinctKeys key rows) (keep : α → Bool) :
    DistinctKeys key (rows.filter keep) :=
  List.Nodup.sublist (List.filter_sublist.map key) distinct

omit [DecidableEq κ] in
/-- The order of the rows does not matter. -/
theorem DistinctKeys.perm (distinct : DistinctKeys key rows) (same : rows.Perm more) :
    DistinctKeys key more :=
  (same.map key).nodup_iff.mp distinct

/-- Rows are put one after the other. -/
theorem DistinctKeys.upsertAll (distinct : DistinctKeys key rows) (arriving : List α) :
    DistinctKeys key (upsertAll key rows arriving) := by
  induction arriving generalizing rows with
  | nil => exact distinct
  | cons row arriving ih => exact ih (distinct.upsert row)

/-- A row that is put is there. -/
theorem mem_upsert_self (row : α) (rows : List α) : row ∈ upsert key row rows := by
  unfold upsert
  cases found : rows.findIdx? fun other => key other = key row with
  | none => exact List.mem_cons_self
  | some index =>
      obtain ⟨inside, -⟩ := List.findIdx?_eq_some_iff_getElem.mp found
      exact List.mem_set inside row

/-- Nothing else comes with it. -/
theorem eq_or_mem_of_mem_upsert (member : other ∈ upsert key row rows) :
    other = row ∨ other ∈ rows := by
  unfold upsert at member
  cases found : rows.findIdx? fun other => key other = key row with
  | none =>
      rw [found] at member
      exact List.mem_cons.mp member
  | some index =>
      rw [found] at member
      exact (List.mem_or_eq_of_mem_set member).symm

/-- Rows with other keys stay. -/
theorem mem_upsert_of_ne (member : other ∈ rows) (different : key other ≠ key row) :
    other ∈ upsert key row rows := by
  unfold upsert
  cases found : rows.findIdx? fun other => key other = key row with
  | none => exact List.mem_cons_of_mem _ member
  | some index =>
      obtain ⟨place, inside, rfl⟩ := List.mem_iff_getElem.mp member
      obtain ⟨_, same, -⟩ := List.findIdx?_eq_some_iff_getElem.mp found
      have apart : index ≠ place := by
        rintro rfl
        exact different (by simpa using same)
      have within : place < (rows.set index row).length := by
        rw [List.length_set]
        exact inside
      have stays : (rows.set index row)[place] = rows[place] := List.getElem_set_of_ne apart _ _
      rw [← stays]
      exact List.getElem_mem _

/-- A row with a key that does not come again stays. -/
theorem mem_upsertAll_of_mem (member : row ∈ rows) (last : key row ∉ arriving.map key) :
    row ∈ upsertAll key rows arriving := by
  induction arriving generalizing rows with
  | nil => exact member
  | cons next arriving ih =>
      rw [List.map_cons, List.mem_cons, not_or] at last
      exact ih (mem_upsert_of_ne member last.1) last.2

/-- Rows with distinct keys are all there after they were put. -/
theorem mem_upsertAll (distinct : DistinctKeys key arriving) (member : row ∈ arriving) :
    row ∈ upsertAll key rows arriving := by
  induction arriving generalizing rows with
  | nil => cases member
  | cons next arriving ih =>
      obtain ⟨fresh, rest⟩ := List.nodup_cons.mp distinct
      rcases List.mem_cons.mp member with rfl | later
      · show row ∈ upsertAll key (upsert key row rows) arriving
        exact mem_upsertAll_of_mem (mem_upsert_self row rows) fresh
      · exact ih rest later

/-- Rows whose keys differ have places of their own. -/
theorem subperm_upsertAll (apart : DistinctKeys key arriving) :
    arriving.Subperm (upsertAll key rows arriving) :=
  List.subperm_of_subset (List.Nodup.of_map key apart) fun _ member => mem_upsertAll apart member

/-- Among rows with distinct keys only rows whose keys differ have places of their own. -/
theorem subperm_upsertAll_iff (distinct : DistinctKeys key rows) :
    arriving.Subperm (upsertAll key rows arriving) ↔ DistinctKeys key arriving := by
  constructor
  · rintro ⟨chosen, same, sublist⟩
    have placed : DistinctKeys key chosen :=
      (distinct.upsertAll arriving).sublist (sublist.map key)
    exact placed.perm same
  · exact subperm_upsertAll

/-! ### Assignments -/

/-- An assignment leaves the keys as they are, or has its own behind them. -/
theorem map_assign (row : α) (rows : List α) :
    (assign key row rows).map key =
      if key row ∈ rows.map key then rows.map key else rows.map key ++ [key row] := by
  unfold assign
  split_ifs with present
  · rw [List.map_map]
    refine List.map_congr_left fun other _ => ?_
    show key (if key other = key row then row else other) = key other
    split_ifs with same
    · exact same.symm
    · rfl
  · rw [List.map_append]
    rfl

omit [DecidableEq κ] in
/-- A row with a new key may be appended. -/
theorem DistinctKeys.append_singleton (distinct : DistinctKeys key rows)
    (absent : key row ∉ rows.map key) : DistinctKeys key (rows ++ [row]) := by
  unfold DistinctKeys
  rw [List.map_append]
  refine List.nodup_append.mpr ⟨distinct, List.nodup_singleton _, ?_⟩
  rintro shown listed new added rfl
  exact absent (List.mem_singleton.mp added ▸ listed)

/-- A row is assigned to its key. -/
theorem DistinctKeys.assign (distinct : DistinctKeys key rows) (row : α) :
    DistinctKeys key (assign key row rows) := by
  by_cases present : key row ∈ rows.map key
  · unfold DistinctKeys
    rw [map_assign, if_pos present]
    exact distinct
  · unfold KeyedList.assign
    rw [if_neg present]
    exact distinct.append_singleton present

/-- A row is assigned to its key, if that is new. -/
theorem DistinctKeys.assignNew (distinct : DistinctKeys key rows) (row : α) :
    DistinctKeys key (assignNew key row rows) := by
  unfold KeyedList.assignNew
  split_ifs with present
  · exact distinct
  · exact distinct.append_singleton present

/-- Rows are assigned one after the other. -/
theorem DistinctKeys.assignAll (distinct : DistinctKeys key rows) (arriving : List α) :
    DistinctKeys key
      (arriving.foldl (fun present row => KeyedList.assign key row present) rows) := by
  induction arriving generalizing rows with
  | nil => exact distinct
  | cons row arriving ih => exact ih (distinct.assign row)

/-- Rows are assigned one after the other, if their keys are new. -/
theorem DistinctKeys.assignNewAll (distinct : DistinctKeys key rows) (arriving : List α) :
    DistinctKeys key
      (arriving.foldl (fun present row => KeyedList.assignNew key row present) rows) := by
  induction arriving generalizing rows with
  | nil => exact distinct
  | cons row arriving ih => exact ih (distinct.assignNew row)

theorem rowOf_cons (wanted : κ) (row : α) (rows : List α) :
    rowOf key wanted (row :: rows) =
      if key row = wanted then some row else rowOf key wanted rows := by
  unfold rowOf
  rw [List.find?_cons]
  split_ifs with same
  · rw [decide_eq_true same]
  · rw [decide_eq_false same]

/-- The first row with a key is in front, if there is one. -/
theorem rowOf_append (wanted : κ) (rows more : List α) :
    rowOf key wanted (rows ++ more) = (rowOf key wanted rows).or (rowOf key wanted more) :=
  List.find?_append

/-- No row is found for a key that none has. -/
theorem rowOf_eq_none_iff {wanted : κ} : rowOf key wanted rows = none ↔ wanted ∉ rows.map key := by
  simp [rowOf, List.find?_eq_none]

/-- The last row with a key is behind, if there is one. -/
theorem lastRowOf_append (wanted : κ) (rows more : List α) :
    lastRowOf key wanted (rows ++ more) =
      (lastRowOf key wanted more).or (lastRowOf key wanted rows) := by
  unfold lastRowOf
  rw [List.reverse_append, rowOf_append]

/-- No last row is found for a key that none has. -/
theorem lastRowOf_eq_none_iff {wanted : κ} :
    lastRowOf key wanted rows = none ↔ wanted ∉ rows.map key := by
  unfold lastRowOf
  rw [rowOf_eq_none_iff, List.map_reverse, List.mem_reverse]

/-- The last row of a key does not depend on the rows that are kept of other keys. -/
theorem lastRowOf_filter {wanted : κ} {keep : α → Bool}
    (kept : ∀ row, key row = wanted → keep row = true) :
    lastRowOf key wanted (rows.filter keep) = lastRowOf key wanted rows := by
  unfold lastRowOf rowOf
  rw [← List.filter_reverse, List.find?_filter]
  congr 1
  funext row
  by_cases same : key row = wanted
  · simp [same, kept row same]
  · simp [same]

/-- Replacing the rows of one key leaves the row of any other. -/
theorem rowOf_replace (wanted : κ) (row : α) (rows : List α) :
    rowOf key wanted (rows.map fun other => if key other = key row then row else other) =
      if key row = wanted then (rowOf key wanted rows).map fun _ => row
      else rowOf key wanted rows := by
  induction rows with
  | nil => split_ifs <;> rfl
  | cons first rest ih =>
      rw [List.map_cons, rowOf_cons, rowOf_cons, ih]
      by_cases replaced : key first = key row
      · rw [if_pos replaced, replaced]
        split_ifs <;> rfl
      · rw [if_neg replaced]
        by_cases here : key first = wanted
        · rw [if_pos here, if_pos here, if_neg fun same => replaced (here.trans same.symm)]
        · rw [if_neg here, if_neg here]

/-- An assignment is read back, and leaves the other keys. -/
theorem rowOf_assign (wanted : κ) (row : α) (rows : List α) :
    rowOf key wanted (assign key row rows) =
      if key row = wanted then some row else rowOf key wanted rows := by
  unfold assign
  by_cases present : key row ∈ rows.map key
  · rw [if_pos present, rowOf_replace]
    by_cases same : key row = wanted
    · rw [if_pos same, if_pos same]
      obtain ⟨found, named⟩ := Option.ne_none_iff_exists'.mp
        fun absent => rowOf_eq_none_iff.mp absent (same ▸ present)
      rw [named]
      rfl
    · rw [if_neg same, if_neg same]
  · rw [if_neg present, rowOf_append, rowOf_cons]
    by_cases same : key row = wanted
    · rw [if_pos same, if_pos same, rowOf_eq_none_iff.mpr (same ▸ present)]
      rfl
    · rw [if_neg same, if_neg same]
      exact Option.or_none

/-- Of a sequence of assignments the last one to a key counts, and where there is none the row
that was there before. -/
theorem rowOf_assignAll (wanted : κ) (arriving rows : List α) :
    rowOf key wanted (arriving.foldl (fun present row => assign key row present) rows) =
      (lastRowOf key wanted arriving).or (rowOf key wanted rows) := by
  induction arriving generalizing rows with
  | nil => rfl
  | cons row arriving ih =>
      have last : lastRowOf key wanted (row :: arriving) =
          (lastRowOf key wanted arriving).or (if key row = wanted then some row else none) := by
        unfold lastRowOf
        rw [List.reverse_cons, rowOf_append, rowOf_cons]
        rfl
      rw [List.foldl_cons, ih, rowOf_assign, last, Option.or_assoc]
      congr 1
      split_ifs <;> rfl

/-- Of a sequence of further rows the first one to a key counts, where the key is new. -/
theorem rowOf_assignNewAll (wanted : κ) (arriving rows : List α) :
    rowOf key wanted (arriving.foldl (fun present row => assignNew key row present) rows) =
      (rowOf key wanted rows).or (rowOf key wanted arriving) := by
  induction arriving generalizing rows with
  | nil => exact Option.or_none.symm
  | cons row arriving ih =>
      rw [List.foldl_cons, ih, rowOf_cons]
      unfold assignNew
      by_cases present : key row ∈ rows.map key
      · rw [if_pos present]
        by_cases same : key row = wanted
        · obtain ⟨found, named⟩ := Option.ne_none_iff_exists'.mp
            fun absent => rowOf_eq_none_iff.mp absent (same ▸ present)
          rw [named]
          rfl
        · rw [if_neg same]
      · rw [if_neg present, rowOf_append, rowOf_cons, Option.or_assoc]
        congr 1
        split_ifs <;> rfl

/-- Where keys are distinct, the rows of a key are the one that is found. -/
theorem DistinctKeys.filter_eq (distinct : DistinctKeys key rows) (wanted : κ) :
    (rows.filter fun row => key row = wanted) = (rowOf key wanted rows).toList := by
  induction rows with
  | nil => rfl
  | cons row rest ih =>
      obtain ⟨fresh, apart⟩ := List.nodup_cons.mp distinct
      rw [List.filter_cons, rowOf_cons, ih apart]
      by_cases same : key row = wanted
      · rw [if_pos same, if_pos (decide_eq_true same),
          rowOf_eq_none_iff.mpr (same ▸ fresh)]
        rfl
      · rw [if_neg same, if_neg (by simpa using same)]

/-- Where keys are distinct, the first row of a key is the last one. -/
theorem DistinctKeys.rowOf_eq (distinct : DistinctKeys key rows) (wanted : κ) :
    rowOf key wanted rows = lastRowOf key wanted rows := by
  have reversed : DistinctKeys key rows.reverse := distinct.perm rows.reverse_perm.symm
  have single : ∀ found : Option α, found.toList.reverse = found.toList := by
    intro found
    cases found <;> rfl
  have same := reversed.filter_eq wanted
  rw [List.filter_reverse, distinct.filter_eq, single] at same
  simpa [lastRowOf] using congrArg List.head? same

end MessagePusher.Store.KeyedList
