import Mathlib.Tactic.Common
import Mathlib.Logic.Function.Basic

/-!
# An index kept beside a set of items

`Covers` says that an index holds exactly the live items, each under its own key.
An update of the index drops the keys of some items and then puts others. `Fits`
compares what is dropped and put with how the live items change; by `covers_iff_fits`
it is the exact condition for the index to cover the live items afterwards.
-/

namespace MessagePusher.Store

universe u v

variable {κ : Type u} {ι : Type v} {key : ι → κ}

/-- The index holds the live items, each under its key, and nothing else. -/
def Covers (key : ι → κ) (index : κ → Option ι) (live : ι → Prop) : Prop :=
  ∀ at_ item, index at_ = some item ↔ live item ∧ key item = at_

/-- Live items with one key are equal where an index covers them. -/
theorem Covers.unique {index : κ → Option ι} {live : ι → Prop} (covers : Covers key index live)
    {item other : ι} (first : live item) (second : live other) (same : key item = key other) :
    item = other := by
  have left := (covers (key other) item).mpr ⟨first, same⟩
  have right := (covers (key other) other).mpr ⟨second, rfl⟩
  exact Option.some.inj (left.symm.trans right)

variable [DecidableEq κ]

/-- Remove the keys of the items. -/
def dropAll (key : ι → κ) (index : κ → Option ι) (items : List ι) : κ → Option ι :=
  items.foldl (fun index item => Function.update index (key item) none) index

/-- Put the items under their keys, one after the other. -/
def putAll (key : ι → κ) (index : κ → Option ι) (items : List ι) : κ → Option ι :=
  items.foldl (fun index item => Function.update index (key item) (some item)) index

/-- The last of the items with a key. -/
def lastAt (key : ι → κ) (items : List ι) (at_ : κ) : Option ι :=
  items.reverse.find? fun item => key item = at_

theorem lastAt_mem {items : List ι} {at_ : κ} {item : ι} (last : lastAt key items at_ = some item) :
    item ∈ items ∧ key item = at_ :=
  ⟨List.mem_reverse.mp (List.mem_of_find?_eq_some last), by simpa using List.find?_some last⟩

theorem lastAt_eq_none_iff {items : List ι} {at_ : κ} :
    lastAt key items at_ = none ↔ ∀ item ∈ items, key item ≠ at_ := by
  simp [lastAt]

/-- What is kept under a key does not depend on what is stored with it. -/
theorem lastAt_map {ρ : Type*} {key : ρ → κ} (form : ι → ρ) (items : List ι) (at_ : κ) :
    lastAt key (items.map form) at_ = (lastAt (fun item => key (form item)) items at_).map form := by
  rw [lastAt, lastAt, ← List.map_reverse, List.find?_map]
  rfl

@[simp]
theorem lastAt_nil (at_ : κ) : lastAt key [] at_ = none := rfl

theorem lastAt_toList {put : Option ι} {at_ : κ} {item : ι} :
    lastAt key put.toList at_ = some item ↔ put = some item ∧ key item = at_ := by
  cases put with
  | none => simp
  | some first =>
      by_cases same : key first = at_
      · simp only [lastAt, Option.toList_some, List.reverse_singleton, List.find?_cons_of_pos,
          same, decide_true, Option.some.injEq]
        constructor
        · rintro rfl
          exact ⟨rfl, same⟩
        · exact fun both => both.1
      · simp only [lastAt, Option.toList_some, List.reverse_singleton, same, decide_false,
          Bool.false_eq_true, not_false_eq_true, List.find?_cons_of_neg, List.find?_nil,
          reduceCtorEq, Option.some.injEq, false_iff, not_and]
        rintro rfl
        exact same

theorem dropAll_eq_none {index : κ → Option ι} {items : List ι} {at_ : κ}
    (dropped : ∃ item ∈ items, key item = at_) : dropAll key index items at_ = none := by
  have keeps : ∀ (rest : List ι) (index : κ → Option ι), index at_ = none →
      dropAll key index rest at_ = none := by
    intro rest
    induction rest with
    | nil => exact fun _ missing => missing
    | cons item rest ih =>
        intro index missing
        refine ih _ ?_
        dsimp only
        rw [Function.update_apply]
        split_ifs
        · rfl
        · exact missing
  induction items generalizing index with
  | nil => simp at dropped
  | cons first rest ih =>
      obtain ⟨item, member, same⟩ := dropped
      rcases List.mem_cons.mp member with rfl | member
      · refine keeps rest _ ?_
        dsimp only
        rw [same, Function.update_self]
      · exact ih ⟨item, member, same⟩

theorem dropAll_of_not_mem {index : κ → Option ι} {items : List ι} {at_ : κ}
    (kept : ∀ item ∈ items, key item ≠ at_) : dropAll key index items at_ = index at_ := by
  induction items generalizing index with
  | nil => rfl
  | cons first rest ih =>
      have others : ∀ item ∈ rest, key item ≠ at_ :=
        fun item member => kept item (List.mem_cons_of_mem _ member)
      have apart : at_ ≠ key first := (kept first List.mem_cons_self).symm
      exact (ih others).trans (Function.update_of_ne apart _ _)

theorem putAll_apply (index : κ → Option ι) (items : List ι) (at_ : κ) :
    putAll key index items at_ = (lastAt key items at_).or (index at_) := by
  induction items generalizing index with
  | nil => rfl
  | cons first rest ih =>
      refine (ih _).trans ?_
      have split : lastAt key (first :: rest) at_ =
          (lastAt key rest at_).or (if key first = at_ then some first else none) := by
        simp only [lastAt, List.reverse_cons, List.find?_append]
        by_cases same : key first = at_ <;> simp [same]
      dsimp only
      rw [split, Option.or_assoc, Function.update_apply]
      by_cases same : at_ = key first
      · simp [same]
      · simp [same, Ne.symm same]

/-- Dropping changes nothing where none of the keys holds an item. -/
theorem dropAll_eq_self_iff {index : κ → Option ι} {items : List ι} :
    dropAll key index items = index ↔ ∀ item ∈ items, index (key item) = none := by
  constructor
  · intro same item member
    rw [← same]
    exact dropAll_eq_none ⟨item, member, rfl⟩
  · intro missing
    funext at_
    by_cases dropped : ∃ item ∈ items, key item = at_
    · obtain ⟨item, member, rfl⟩ := dropped
      rw [missing item member]
      exact dropAll_eq_none ⟨item, member, rfl⟩
    · push Not at dropped
      exact dropAll_of_not_mem dropped

/-- Putting changes nothing where the last of the items with a key is there already. -/
theorem putAll_eq_self_iff {index : κ → Option ι} {items : List ι} :
    putAll key index items = index ↔
      ∀ at_ item, lastAt key items at_ = some item → index at_ = some item := by
  constructor
  · intro same at_ item last
    rw [← same, putAll_apply, last]
    rfl
  · intro present
    funext at_
    rw [putAll_apply]
    cases last : lastAt key items at_ with
    | none => rfl
    | some item => exact (present at_ item last).symm

/-- How an update must relate to the change of the live items from `live` to `after`. -/
structure Fits (key : ι → κ) (drops puts : List ι) (live after : ι → Prop) : Prop where
  /-- What is put last under a key is live, and the only live item with it. -/
  stored : ∀ at_ item, lastAt key puts at_ = some item →
    after item ∧ ∀ other, after other → key other = at_ → other = item
  /-- No live item has a key that is dropped for good. -/
  removed : ∀ item ∈ drops, lastAt key puts (key item) = none →
    ∀ other, after other → key other ≠ key item
  /-- The key of an item that ceases to be live is touched. -/
  leaves : ∀ item, live item → ¬ after item →
    lastAt key puts (key item) ≠ none ∨ ∃ dropped ∈ drops, key dropped = key item
  /-- What becomes live is put. -/
  enters : ∀ item, after item → live item ∨ lastAt key puts (key item) = some item

/-- An index that covers the live items covers them after an update exactly when the update
fits their change. -/
theorem covers_iff_fits {index : κ → Option ι} {drops puts : List ι} {live after : ι → Prop}
    (covers : Covers key index live) :
    Covers key (putAll key (dropAll key index drops) puts) after ↔
      Fits key drops puts live after := by
  have put : ∀ {at_ item}, lastAt key puts at_ = some item →
      putAll key (dropAll key index drops) puts at_ = some item := by
    intro at_ item last
    rw [putAll_apply, last]
    rfl
  have notPut : ∀ {at_}, lastAt key puts at_ = none →
      putAll key (dropAll key index drops) puts at_ = dropAll key index drops at_ := by
    intro at_ none_
    rw [putAll_apply, none_]
    rfl
  constructor
  · intro covered
    constructor
    · intro at_ item last
      refine ⟨((covered at_ item).mp (put last)).1, ?_⟩
      intro other live same
      exact Option.some.inj (((covered at_ other).mpr ⟨live, same⟩).symm.trans (put last))
    · intro item dropped none_ other live same
      have found := (covered _ other).mpr ⟨live, same⟩
      rw [notPut none_, dropAll_eq_none ⟨item, dropped, rfl⟩] at found
      cases found
    · intro item before gone
      by_contra untouched
      push Not at untouched
      obtain ⟨none_, kept⟩ := untouched
      refine gone ((covered (key item) item).mp ?_).1
      rw [notPut none_, dropAll_of_not_mem kept]
      exact (covers (key item) item).mpr ⟨before, rfl⟩
    · intro item live
      have found := (covered (key item) item).mpr ⟨live, rfl⟩
      cases last : lastAt key puts (key item) with
      | some other =>
          rw [put last] at found
          exact .inr found
      | none =>
          rw [notPut last] at found
          by_cases dropped : ∃ other ∈ drops, key other = key item
          · rw [dropAll_eq_none dropped] at found
            cases found
          · push Not at dropped
            rw [dropAll_of_not_mem dropped] at found
            exact .inl ((covers (key item) item).mp found).1
  · intro fits at_ item
    cases last : lastAt key puts at_ with
    | some other =>
        rw [put last]
        obtain ⟨live, unique⟩ := fits.stored at_ other last
        constructor
        · rintro ⟨⟩
          exact ⟨live, (lastAt_mem last).2⟩
        · rintro ⟨alive, same⟩
          rw [unique item alive same]
    | none =>
        rw [notPut last]
        by_cases dropped : ∃ other ∈ drops, key other = at_
        · rw [dropAll_eq_none dropped]
          obtain ⟨other, member, rfl⟩ := dropped
          simp only [reduceCtorEq, false_iff, not_and]
          exact fits.removed other member last item
        · push Not at dropped
          rw [dropAll_of_not_mem dropped, covers at_ item]
          constructor
          · rintro ⟨before, rfl⟩
            refine ⟨?_, rfl⟩
            by_contra gone
            rcases fits.leaves item before gone with touched | ⟨other, member, same⟩
            · exact touched last
            · exact dropped other member same
          · rintro ⟨live, rfl⟩
            refine ⟨?_, rfl⟩
            rcases fits.enters item live with before | entered
            · exact before
            · rw [last] at entered
              cases entered

/-- `Fits` for an update that drops at most one item and puts at most one. -/
theorem fits_option_iff {drop put : Option ι} {live after : ι → Prop} :
    Fits key drop.toList put.toList live after ↔
      (∀ item, put = some item →
        after item ∧ ∀ other, after other → key other = key item → other = item) ∧
      (∀ item, drop = some item → (∀ new, put = some new → key new ≠ key item) →
        ∀ other, after other → key other ≠ key item) ∧
      (∀ item, live item → ¬ after item →
        ∃ touched, (put = some touched ∨ drop = some touched) ∧ key touched = key item) ∧
      ∀ item, after item → live item ∨ put = some item := by
  constructor
  · intro fits
    refine ⟨?_, ?_, ?_, ?_⟩
    · intro item puts
      exact fits.stored (key item) item (lastAt_toList.mpr ⟨puts, rfl⟩)
    · intro item drops kept
      refine fits.removed item (by simp [drops]) (lastAt_eq_none_iff.mpr ?_)
      intro new member
      exact kept new (by simpa using member)
    · intro item before gone
      rcases fits.leaves item before gone with touched | ⟨dropped, member, same⟩
      · obtain ⟨new, last⟩ := Option.ne_none_iff_exists'.mp touched
        obtain ⟨puts, same⟩ := lastAt_toList.mp last
        exact ⟨new, .inl puts, same⟩
      · exact ⟨dropped, .inr (by simpa using member), same⟩
    · intro item live
      exact (fits.enters item live).imp_right fun last => (lastAt_toList.mp last).1
  · rintro ⟨stored, removed, leaves, enters⟩
    constructor
    · intro at_ item last
      obtain ⟨puts, rfl⟩ := lastAt_toList.mp last
      exact stored item puts
    · intro item member none_
      refine removed item (by simpa using member) ?_
      intro new puts
      exact lastAt_eq_none_iff.mp none_ new (by simp [puts])
    · intro item before gone
      obtain ⟨touched, puts | drops, same⟩ := leaves item before gone
      · refine .inl ?_
        rw [lastAt_toList.mpr ⟨puts, same⟩]
        exact Option.some_ne_none _
      · exact .inr ⟨touched, by simp [drops], same⟩
    · intro item live
      exact (enters item live).imp_right fun puts => lastAt_toList.mpr ⟨puts, rfl⟩

/-- `Fits` for an update that only drops. -/
theorem fits_drops_iff {drops : List ι} {live after : ι → Prop} :
    Fits key drops [] live after ↔
      (∀ item ∈ drops, ∀ other, after other → key other ≠ key item) ∧
      (∀ item, live item → ¬ after item → ∃ dropped ∈ drops, key dropped = key item) ∧
      ∀ item, after item → live item := by
  constructor
  · intro fits
    refine ⟨fun item member => fits.removed item member rfl, ?_, ?_⟩
    · intro item before gone
      exact (fits.leaves item before gone).resolve_left fun touched => touched rfl
    · intro item live
      exact (fits.enters item live).resolve_right (by simp)
  · rintro ⟨removed, leaves, enters⟩
    exact ⟨by simp, fun item member _ => removed item member,
      fun item before gone => .inr (leaves item before gone), fun item live => .inl (enters item live)⟩

/-- `Fits` for an update that only puts, where what was live stays so. -/
theorem fits_puts_iff {puts : List ι} {live after : ι → Prop}
    (stays : ∀ item, live item → after item) :
    Fits key [] puts live after ↔
      (∀ at_ item, lastAt key puts at_ = some item →
        after item ∧ ∀ other, after other → key other = at_ → other = item) ∧
      ∀ item, after item → live item ∨ lastAt key puts (key item) = some item :=
  ⟨fun fits => ⟨fits.stored, fits.enters⟩, fun ⟨stored, enters⟩ =>
    ⟨stored, by simp, fun item before gone => absurd (stays item before) gone, enters⟩⟩

end MessagePusher.Store
