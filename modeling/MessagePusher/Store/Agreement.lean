import MessagePusher.Store.Table

/-!
# Tables that agree on a scope

Two tables agree on a scope when they hold the same rows of it. A query that is
confined to the scope cannot tell them apart; for one that is not, only the rows
outside the scope count.
-/

namespace MessagePusher.Store.Table

universe u v

variable {ρ : Type u} [Record ρ] {scope accepts : ρ → Bool} {left right : Table ρ}

/-- The tables hold the same rows of the scope. -/
def AgreesOn (scope : ρ → Bool) (left right : Table ρ) : Prop :=
  ∀ row, scope row = true → (row ∈ left.rows ↔ row ∈ right.rows)

theorem AgreesOn.refl (scope : ρ → Bool) (table : Table ρ) : AgreesOn scope table table :=
  fun _ _ => Iff.rfl

theorem AgreesOn.symm (agree : AgreesOn scope left right) : AgreesOn scope right left :=
  fun row inside => (agree row inside).symm

theorem AgreesOn.trans {middle : Table ρ} (first : AgreesOn scope left middle)
    (second : AgreesOn scope middle right) : AgreesOn scope left right :=
  fun row inside => (first row inside).trans (second row inside)

/-- A row of the scope that is under a key in one table is under it in the other. -/
theorem AgreesOn.rowAt {key : Int} {row : ρ} (agree : AgreesOn scope left right)
    (found : right.rowAt key = some row) (inside : scope row = true) :
    left.rowAt key = some row := by
  obtain ⟨member, same⟩ := rowAt_eq_some_iff.mp found
  exact rowAt_eq_some_iff.mpr ⟨(agree row inside).mpr member, same⟩

/-- A statement leaves a scope alone exactly when it writes what it found there. -/
theorem Rewrites.agreesOn_iff {key : Int} {value : Option ρ}
    (writes : left.Rewrites right key value) :
    AgreesOn scope left right ↔ (left.rowAt key).filter scope = value.filter scope := by
  rw [← writes.at_key]
  constructor
  · intro agree
    ext row
    simp only [Option.filter_eq_some_iff]
    constructor
    · rintro ⟨found, inside⟩
      exact ⟨agree.symm.rowAt found inside, inside⟩
    · rintro ⟨found, inside⟩
      exact ⟨agree.rowAt found inside, inside⟩
  · intro same row inside
    have member (table : Table ρ) : row ∈ table.rows ↔ table.rowAt (Record.id row) = some row := by
      rw [rowAt_eq_some_iff, and_iff_left rfl]
    rw [member, member]
    by_cases here : Record.id row = key
    · rw [here]
      have kept := congrArg (fun found => found = some row) same
      simpa only [Option.filter_eq_some_iff, inside, and_true, eq_iff_iff] using kept
    · rw [writes.elsewhere here]

/-- A statement that finds and writes a row outside a scope leaves the scope alone. -/
theorem Rewrites.agreesOn {key : Int} {value : Option ρ} (writes : left.Rewrites right key value)
    (old : ∀ row, left.rowAt key = some row → scope row = false)
    (new : ∀ row, value = some row → scope row = false) : AgreesOn scope left right := by
  have dropped : ∀ found : Option ρ, (∀ row, found = some row → scope row = false) →
      found.filter scope = none := by
    intro found outside
    rw [Option.filter_eq_none_iff]
    intro row here
    simp [outside row here]
  rw [writes.agreesOn_iff, dropped _ old, dropped _ new]

theorem agreesOn_insert {row stored : ρ} (inserted : left.insert row = some (right, stored))
    (outside : scope stored = false) : AgreesOn scope left right := by
  refine (rewrites_insert inserted).agreesOn ?_ fun row same => Option.some.inj same ▸ outside
  intro row found
  rw [insert_fresh inserted] at found
  cases found

/-- Selections are in key order without repetitions, so their members determine them. -/
theorem map_select_eq_iff {β : Type v} {view : ρ → β} {key : β → Int}
    (keyed : ∀ row, key (view row) = Record.id row) :
    (left.select accepts).map view = (right.select accepts).map view ↔
      ∀ shown, shown ∈ (left.select accepts).map view ↔
        shown ∈ (right.select accepts).map view := by
  have sorted : ∀ table : Table ρ,
      ((table.select accepts).map view).Pairwise fun a b => key a < key b := by
    intro table
    refine List.pairwise_map.mpr ((table.sorted.filter _).imp ?_)
    intro a b below
    rwa [keyed, keyed]
  constructor
  · intro same shown
    rw [same]
  · intro same
    have nodup : ∀ table : Table ρ, ((table.select accepts).map view).Nodup := by
      intro table
      refine (sorted table).imp ?_
      rintro a b below rfl
      exact Int.lt_irrefl _ below
    refine List.Perm.eq_of_pairwise ?_ (sorted left) (sorted right)
      ((List.perm_ext_iff_of_nodup (nodup left) (nodup right)).mpr fun shown => same shown)
    intro a b _ _ below above
    exact absurd (Int.lt_trans below above) (Int.lt_irrefl _)

/-- A selection within the scope is the same in both tables. -/
theorem AgreesOn.select (agree : AgreesOn scope left right)
    (within : ∀ row, accepts row = true → scope row = true) :
    left.select accepts = right.select accepts := by
  have keyed : ∀ row : ρ, Record.id (id row) = Record.id row := fun _ => rfl
  have same : (left.select accepts).map id = (right.select accepts).map id := by
    refine (Table.map_select_eq_iff keyed).mpr fun shown => ?_
    simp only [List.map_id, mem_select]
    constructor
    · rintro ⟨member, accepted⟩
      exact ⟨(agree shown (within shown accepted)).mp member, accepted⟩
    · rintro ⟨member, accepted⟩
      exact ⟨(agree shown (within shown accepted)).mpr member, accepted⟩
  simpa using same

/-- The first row within the scope is the same in both tables. -/
theorem AgreesOn.first (agree : AgreesOn scope left right)
    (within : ∀ row, accepts row = true → scope row = true) :
    left.first accepts = right.first accepts := by
  rw [first_eq_head, first_eq_head, agree.select within]

/-- A selection of the rows of an owner that meet a further condition. -/
theorem AgreesOn.select_and {owned more : ρ → Prop} [DecidablePred owned] [DecidablePred more]
    (agree : AgreesOn (fun row => owned row) left right) :
    left.select (fun row => owned row ∧ more row) =
      right.select fun row => owned row ∧ more row :=
  agree.select fun _ accepted => by simpa using (of_decide_eq_true accepted).1

/-- The first row that meets a condition and belongs to an owner. -/
theorem AgreesOn.first_and {owned more : ρ → Prop} [DecidablePred owned] [DecidablePred more]
    (agree : AgreesOn (fun row => owned row) left right) :
    left.first (fun row => more row ∧ owned row) =
      right.first fun row => more row ∧ owned row :=
  agree.first fun _ accepted => by simpa using (of_decide_eq_true accepted).2

/-- The views of the selected rows outside the scope. -/
def ShownOutside {β : Type v} (scope accepts : ρ → Bool) (view : ρ → β) (table : Table ρ)
    (shown : β) : Prop :=
  ∃ row ∈ table.rows, scope row = false ∧ accepts row = true ∧ view row = shown

/-- A selection over the whole table tells the tables apart exactly by the views of its
rows outside the scope. -/
theorem AgreesOn.map_select_eq_iff {β : Type v} {view : ρ → β} {key : β → Int}
    (agree : AgreesOn scope left right) (keyed : ∀ row, key (view row) = Record.id row) :
    (left.select accepts).map view = (right.select accepts).map view ↔
      ∀ shown, ShownOutside scope accepts view left shown ↔
        ShownOutside scope accepts view right shown := by
  rw [Table.map_select_eq_iff keyed]
  simp only [List.mem_map, mem_select]
  constructor
  · intro same
    have outside : ∀ {one other : Table ρ}, AgreesOn scope one other →
        (∀ shown, (∃ row, (row ∈ one.rows ∧ accepts row = true) ∧ view row = shown) →
          ∃ row, (row ∈ other.rows ∧ accepts row = true) ∧ view row = shown) →
        ∀ shown, ShownOutside scope accepts view one shown →
          ShownOutside scope accepts view other shown := by
      rintro one other agree included shown ⟨row, member, out, accepted, shows⟩
      obtain ⟨twin, ⟨twinMember, twinAccepted⟩, twinShows⟩ :=
        included shown ⟨row, ⟨member, accepted⟩, shows⟩
      refine ⟨twin, twinMember, ?_, twinAccepted, twinShows⟩
      -- A twin inside the scope is in both tables, hence the row itself.
      by_contra inside
      have inOne : twin ∈ one.rows := (agree twin (by simpa using inside)).mpr twinMember
      have sameKey : Record.id row = Record.id twin := by rw [← keyed, ← keyed, shows, twinShows]
      rw [one.eq_of_id_eq member inOne sameKey] at out
      exact inside out
    exact fun shown => ⟨outside agree (fun shown => (same shown).mp) shown,
      outside agree.symm (fun shown => (same shown).mpr) shown⟩
  · intro same
    have all : ∀ {one other : Table ρ}, AgreesOn scope one other →
        (∀ shown, ShownOutside scope accepts view one shown →
          ShownOutside scope accepts view other shown) →
        ∀ shown, (∃ row, (row ∈ one.rows ∧ accepts row = true) ∧ view row = shown) →
          ∃ row, (row ∈ other.rows ∧ accepts row = true) ∧ view row = shown := by
      rintro one other agree included shown ⟨row, ⟨member, accepted⟩, shows⟩
      cases inside : scope row with
      | true => exact ⟨row, ⟨(agree row inside).mp member, accepted⟩, shows⟩
      | false =>
          obtain ⟨twin, twinMember, -, twinAccepted, twinShows⟩ :=
            included shown ⟨row, member, inside, accepted, shows⟩
          exact ⟨twin, ⟨twinMember, twinAccepted⟩, twinShows⟩
    exact fun shown => ⟨all agree (fun shown => (same shown).mp) shown,
      all agree.symm (fun shown => (same shown).mpr) shown⟩

/-! ### Tables that differ in hidden columns -/

/-- The tables are the same but for what `hide` hides of their rows. -/
structure SameBut (hide : ρ → ρ) (left right : Table ρ) : Prop where
  rows : left.rows.map hide = right.rows.map hide
  counter : left.counter = right.counter

namespace SameBut

variable {hide : ρ → ρ} (same : SameBut hide left right)

include same

/-- A selection by visible columns is the same but for the hidden ones. -/
theorem select (blind : ∀ row, accepts (hide row) = accepts row) :
    (left.select accepts).map hide = (right.select accepts).map hide := by
  have hidden (table : Table ρ) :
      (table.select accepts).map hide = (table.rows.map hide).filter accepts := by
    rw [List.filter_map, show accepts ∘ hide = accepts from funext blind]
    rfl
  rw [hidden, hidden, same.rows]

/-- What a view without the hidden columns shows of a selection. -/
theorem map_select {β : Type v} {view : ρ → β} (blind : ∀ row, accepts (hide row) = accepts row)
    (unseen : ∀ row, view (hide row) = view row) :
    (left.select accepts).map view = (right.select accepts).map view := by
  have seen (table : Table ρ) :
      (table.select accepts).map view = ((table.select accepts).map hide).map view := by
    rw [List.map_map, show view ∘ hide = view from funext unseen]
  rw [seen, seen, same.select blind]

theorem first (blind : ∀ row, accepts (hide row) = accepts row) :
    (left.first accepts).map hide = (right.first accepts).map hide := by
  rw [first_eq_head, first_eq_head, ← List.head?_map, ← List.head?_map, same.select blind]

theorem first_isSome (blind : ∀ row, accepts (hide row) = accepts row) :
    (left.first accepts).isSome = (right.first accepts).isSome := by
  have hidden := congrArg Option.isSome (same.first blind)
  simpa using hidden

/-- A condition on visible columns holds of all rows of both tables or of neither. -/
theorem forall_rows_iff {property : ρ → Prop} (blind : ∀ row, property (hide row) ↔ property row) :
    (∀ row ∈ left.rows, property row) ↔ ∀ row ∈ right.rows, property row := by
  have hidden (table : Table ρ) :
      (∀ row ∈ table.rows, property row) ↔ ∀ row ∈ table.rows.map hide, property row := by
    simp only [List.forall_mem_map, blind]
  rw [hidden, hidden, same.rows]

/-- Neither the key nor a unique index is hidden. -/
theorem insertable_iff {row : ρ} (key : ∀ row, Record.id (hide row) = Record.id row)
    (index : ∀ left right, clash left (hide right) = clash left right) :
    left.Insertable row ↔ right.Insertable row := by
  unfold Insertable keyFor
  rw [same.counter]
  refine and_congr (same.forall_rows_iff fun other => ?_) (same.forall_rows_iff fun other => ?_)
  · rw [key]
  · rw [index]

end SameBut

end MessagePusher.Store.Table
