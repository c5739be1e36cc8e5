import Mathlib.Data.List.Nodup

/-!
# Entries looked up by key

Lists of keys with values, read by `List.lookup`: the entries filtered, changed, or made from
their keys, and lists in which each key has one entry.
-/

namespace MessagePusher.Store.Entries

universe u v w

variable {κ : Type u} {ν : Type v} {μ : Type w} [BEq κ] [LawfulBEq κ] {entries : List (κ × ν)}

/-- Entries chosen by their keys. -/
theorem lookup_filter_key (entries : List (κ × ν)) (keep : κ → Bool) (key : κ) :
    (entries.filter fun entry => keep entry.1).lookup key =
      if keep key then entries.lookup key else none := by
  induction entries with
  | nil => simp
  | cons first rest ih =>
      rw [List.filter_cons]
      by_cases here : key = first.1
      · subst here
        split_ifs with kept
        · rw [List.lookup_cons, List.lookup_cons, beq_self_eq_true]
        · rw [ih, if_neg kept]
      · have skip : ∀ others : List (κ × ν), (first :: others).lookup key = others.lookup key := by
          intro others
          rw [List.lookup_cons, beq_false_of_ne here]
        rw [skip rest, ← ih]
        split_ifs
        · exact skip _
        · rfl

/-- Entries with other values. -/
theorem lookup_map (entries : List (κ × ν)) (change : κ → ν → μ) (key : κ) :
    (entries.map fun entry => (entry.1, change entry.1 entry.2)).lookup key =
      (entries.lookup key).map (change key) := by
  induction entries with
  | nil => rfl
  | cons first rest ih =>
      rw [List.map_cons, List.lookup_cons, List.lookup_cons]
      by_cases here : key = first.1
      · subst here
        rw [beq_self_eq_true]
        rfl
      · rw [beq_false_of_ne here]
        exact ih

/-- Entries with other values under keys that are spelled in another way. -/
theorem lookup_rename {ι : Type*} [BEq ι] [LawfulBEq ι] {spell : κ → ι} (injective : spell.Injective)
    (entries : List (κ × ν)) (change : ν → μ) (key : κ) :
    (entries.map fun entry => (spell entry.1, change entry.2)).lookup (spell key) =
      (entries.lookup key).map change := by
  induction entries with
  | nil => rfl
  | cons first rest ih =>
      rw [List.map_cons, List.lookup_cons, List.lookup_cons]
      by_cases here : key = first.1
      · subst here
        rw [beq_self_eq_true, beq_self_eq_true]
        rfl
      · rw [beq_false_of_ne here, beq_false_of_ne fun same => here (injective same)]
        exact ih

/-- Entries made from their keys. -/
theorem lookup_graph {keys : List κ} (value : κ → ν) {key : κ} (listed : key ∈ keys) :
    (keys.map fun key => (key, value key)).lookup key = some (value key) := by
  induction keys with
  | nil => cases listed
  | cons first rest ih =>
      rw [List.map_cons, List.lookup_cons]
      by_cases here : key = first
      · rw [here, beq_self_eq_true]
      · rw [beq_false_of_ne here]
        exact ih ((List.mem_cons.mp listed).resolve_left here)

/-! ### One entry for each key -/

theorem lookup_of_mem (distinct : (entries.map Prod.fst).Nodup) {entry : κ × ν}
    (listed : entry ∈ entries) : entries.lookup entry.1 = some entry.2 := by
  induction entries with
  | nil => cases listed
  | cons first rest ih =>
      obtain ⟨fresh, distinct⟩ := List.nodup_cons.mp distinct
      rw [List.lookup_cons]
      rcases List.mem_cons.mp listed with rfl | later
      · rw [beq_self_eq_true]
      · have apart : entry.1 ≠ first.1 := fun same => fresh (same ▸ List.mem_map_of_mem later)
        rw [beq_false_of_ne apart]
        exact ih distinct later

theorem lookup_eq_some_iff_mem (distinct : (entries.map Prod.fst).Nodup) {key : κ} {value : ν} :
    entries.lookup key = some value ↔ (key, value) ∈ entries := by
  constructor
  · intro found
    obtain ⟨before, after, rfl, -⟩ := List.lookup_eq_some_iff.mp found
    simp
  · exact fun listed => lookup_of_mem distinct listed

/-- Entries chosen by their values too. -/
theorem lookup_filter (distinct : (entries.map Prod.fst).Nodup) (keep : κ × ν → Bool) (key : κ) :
    (entries.filter keep).lookup key = (entries.lookup key).filter fun value => keep (key, value) := by
  have fewer : ((entries.filter keep).map Prod.fst).Nodup :=
    distinct.sublist (List.filter_sublist.map Prod.fst)
  ext value
  rw [lookup_eq_some_iff_mem fewer, List.mem_filter, Option.filter_eq_some_iff,
    lookup_eq_some_iff_mem distinct]

end MessagePusher.Store.Entries
