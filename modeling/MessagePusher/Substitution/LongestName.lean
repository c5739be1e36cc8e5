import MessagePusher.Substitution.Pieces

/-!
# The longest name first

The names are in an order in which each one comes in front of those that it begins with. Then the
first name that fits is the longest one.
-/

namespace MessagePusher.Substitution

variable {α : Type} {mark : α} {names : List (List α)} {name rest text : List α}

/-- No name comes behind one that is a beginning of it, or the same. -/
def LongestFirst (names : List (List α)) : Prop :=
  names.Pairwise fun first second => ¬ first <+: second

theorem LongestFirst.nodup (order : LongestFirst names) : names.Nodup :=
  order.imp fun {first second} apart same => by
    rw [same] at apart
    exact apart List.prefix_rfl

/-- No other name is a beginning of the last one. -/
theorem LongestFirst.eq_last {last : List α} (order : LongestFirst names)
    (final : names.getLast? = some last) (listed : name ∈ names) (fits : name <+: last) :
    name = last := by
  obtain ⟨front, rfl⟩ := List.getLast?_eq_some_iff.mp final
  rcases List.mem_append.mp listed with inFront | atEnd
  · exact absurd fits ((List.pairwise_append.mp order).2.2 name inFront last (by simp))
  · exact List.mem_singleton.mp atEnd

/-- A run is not longer for a text behind it that does not go on with the run. -/
theorem takeWhile_append {within : α → Bool} {after : List α}
    (stops : ∀ symbol ∈ after.head?, within symbol = false) (text : List α) :
    (text ++ after).takeWhile within = text.takeWhile within := by
  have nothing : after.takeWhile within = [] := by
    cases after with
    | nil => rfl
    | cons symbol after =>
        rw [List.takeWhile_cons, stops symbol rfl]
        rfl
  rw [List.takeWhile_append, nothing, List.append_nil]
  split_ifs with whole
  · exact ((List.takeWhile_prefix _).eq_of_length whole).symm
  · rfl

variable [DecidableEq α]

/-- The first name that the text begins with. -/
def firstName (names : List (List α)) (rest : List α) : Option (List α) :=
  names.find? fun name => name.isPrefixOf rest

theorem mem_of_firstName (found : firstName names rest = some name) : name ∈ names :=
  List.mem_of_find?_eq_some found

theorem chooses_firstName (alone : ∀ name ∈ names, mark ∉ name) :
    Chooses mark (firstName names) := by
  intro rest name found
  have fits : name.isPrefixOf rest :=
    @List.find?_some _ (fun name : List α => name.isPrefixOf rest) _ _ found
  exact ⟨List.isPrefixOf_iff_prefix.mp fits, alone name (mem_of_firstName found)⟩

/-- Where the text begins with an entry, the first one that it begins with is at least as long, in
any order that puts none in front of a longer one. -/
theorem find?_longest {β : Type} {spelled : β → List α} {before : β → β → Prop} {entries : List β}
    {entry : β} (sorted : entries.Pairwise before)
    (longerFirst : ∀ short long, before short long → spelled short <+: spelled long →
      spelled short = spelled long)
    (listed : entry ∈ entries) (fits : spelled entry <+: rest) :
    ∃ chosen ∈ entries, (entries.find? fun entry => (spelled entry).isPrefixOf rest) = some chosen ∧
      spelled chosen <+: rest ∧ spelled entry <+: spelled chosen := by
  cases found : entries.find? fun entry => (spelled entry).isPrefixOf rest with
  | none =>
      have misses := List.find?_eq_none.mp found entry listed
      exact absurd (List.isPrefixOf_iff_prefix.mpr fits) misses
  | some chosen =>
      obtain ⟨isPrefix, front, back, split, earlier⟩ := List.find?_eq_some_iff_append.mp found
      have fitsChosen := List.isPrefixOf_iff_prefix.mp isPrefix
      refine ⟨chosen, List.mem_of_find?_eq_some found, rfl, fitsChosen, ?_⟩
      rcases List.prefix_or_prefix_of_prefix fits fitsChosen with longer | shorter
      · exact longer
      · rw [split] at listed sorted
        rcases List.mem_append.mp listed with inFront | behind
        · have misses := earlier entry inFront
          rw [List.isPrefixOf_iff_prefix.mpr fits] at misses
          cases misses
        · rcases List.mem_cons.mp behind with rfl | behind
          · exact List.prefix_rfl
          · have after := List.rel_of_pairwise_cons (List.pairwise_append.mp sorted).2.1 behind
            exact (longerFirst chosen entry after shorter) ▸ List.prefix_rfl

/-- Where a name fits, one at least as long is found. -/
theorem LongestFirst.firstName (order : LongestFirst names) (listed : name ∈ names)
    (fits : name <+: rest) : ∃ chosen, firstName names rest = some chosen ∧ name <+: chosen := by
  obtain ⟨chosen, -, found, -, longer⟩ := @find?_longest _ rest _ _ id _ names name order
    (fun _ _ apart shorter => absurd shorter apart) listed fits
  exact ⟨chosen, found, longer⟩

/-- In any order that puts no name in front of a longer one, the longest name that fits is found. -/
theorem firstName_longest {before : List α → List α → Prop} (sorted : names.Pairwise before)
    (longerFirst : ∀ short long, before short long → short <+: long → short = long)
    (listed : name ∈ names) (fits : name <+: rest)
    (longest : ∀ other ∈ names, other <+: rest → other.length ≤ name.length) :
    firstName names rest = some name := by
  obtain ⟨chosen, member, found, fitsChosen, longer⟩ :=
    @find?_longest _ rest _ _ id _ names name sorted longerFirst listed fits
  have same : name = chosen := longer.eq_of_length_le (longest chosen member fitsChosen)
  exact same ▸ found

/-! ### A text in front of another one -/

/-- What follows does not matter to a name that does not have its first symbol. -/
theorem isPrefixOf_append {after : List α} (apart : ∀ symbol ∈ after.head?, symbol ∉ name)
    (text : List α) : name.isPrefixOf (text ++ after) = name.isPrefixOf text := by
  rw [Bool.eq_iff_iff, List.isPrefixOf_iff_prefix, List.isPrefixOf_iff_prefix]
  refine ⟨fun fits => ?_, fun fits => fits.trans (List.prefix_append _ _)⟩
  rcases List.prefix_or_prefix_of_prefix fits (List.prefix_append text after) with
    inside | ⟨more, rfl⟩
  · exact inside
  · rw [List.prefix_append_right_inj] at fits
    cases more with
    | nil => exact (List.append_nil text).symm ▸ List.prefix_rfl
    | cons symbol more =>
        obtain ⟨beyond, rfl⟩ := fits
        exact absurd (by simp) (apart symbol rfl)

theorem find?_append {β : Type} {spelled : β → List α} {entries : List β} {after : List α}
    (apart : ∀ entry ∈ entries, ∀ symbol ∈ after.head?, symbol ∉ spelled entry) (text : List α) :
    (entries.find? fun entry => (spelled entry).isPrefixOf (text ++ after)) =
      entries.find? fun entry => (spelled entry).isPrefixOf text := by
  rw [← List.head?_filter, ← List.head?_filter]
  congr 1
  apply List.filter_congr
  intro entry listed
  exact isPrefixOf_append (apart entry listed) text

/-- The names in the slots of a template are among those that are looked for. -/
theorem mem_of_slot (alone : ∀ name ∈ names, mark ∉ name)
    (listed : .slot name ∈ pieces mark (firstName names) 0 text) : name ∈ names := by
  obtain ⟨rest, found⟩ := exists_of_slot (chooses_firstName alone) listed
  exact mem_of_firstName found

/-- An occurrence of a name in a template is a slot with a name at least as long. -/
theorem slot_of_occurrence (order : LongestFirst names) (alone : ∀ name ∈ names, mark ∉ name)
    (listed : name ∈ names) {front back : List α} (occurs : text = front ++ mark :: (name ++ back)) :
    ∃ before chosen after, name <+: chosen ∧
      pieces mark (firstName names) 0 text = before ++ .slot chosen :: after ∧
      render mark (fun _ => none) before = front := by
  obtain ⟨before, split, same⟩ :=
    pieces_append_mark (chooses_firstName alone) front (name ++ back)
  obtain ⟨chosen, found, longer⟩ := order.firstName listed (List.prefix_append name back)
  obtain ⟨⟨after, whole⟩, -⟩ := chooses_firstName alone _ _ found
  rw [← whole] at found split
  rw [pieces_slot found] at split
  refine ⟨before, chosen, pieces mark (firstName names) 0 after, longer, ?_, same⟩
  rw [occurs, ← whole, split]

/-! ### Which templates are safe for all values -/

/-- Where every slot has the last name, no step finds anything but slots. -/
theorem unmixed_of_last (order : LongestFirst names) (alone : ∀ name ∈ names, mark ∉ name)
    (value : List α → List α)
    (last : ∀ name, .slot name ∈ pieces mark (firstName names) 0 text → names.getLast? = some name) :
    Unmixed mark names value (pieces mark (firstName names) 0 text) := by
  intro done name later split front back occurs
  -- the last name is not done before its own step, so the text is the template
  have unknown : ∀ other, .slot other ∈ pieces mark (firstName names) 0 text →
      known done value other = none := by
    intro other listed
    have atEnd := last other listed
    have distinct := order.nodup
    rw [split] at atEnd distinct
    have final : (name :: later).getLast? = some other := by
      simpa [List.getLast?_append, List.getLast?_cons] using atEnd
    exact if_neg fun member =>
      (List.nodup_append.mp distinct).2.2 other member other (List.mem_of_getLast? final) rfl
  have whole : render mark (known done value) (pieces mark (firstName names) 0 text) = text :=
    (render_congr unknown).trans (render_pieces (chooses_firstName alone) text)
  rw [whole] at occurs
  have listed : name ∈ names := by
    rw [split]
    simp
  obtain ⟨before, chosen, after, longer, slots, same⟩ :=
    slot_of_occurrence order alone listed occurs
  have inFront : render mark (known done value) before = front := by
    refine (render_congr fun other member => unknown other ?_).trans same
    rw [slots]
    exact List.mem_append_left _ member
  refine ⟨before, after, ?_, inFront.symm⟩
  have final := last chosen (by rw [slots]; simp)
  rw [slots, order.eq_last final listed longer]

/-- Where a slot has another name, some values make the two substitutions differ. -/
theorem last_of_all_values {fresh : α} (absent : ∀ name ∈ names, fresh ∉ mark :: name)
    (alone : ∀ name ∈ names, mark ∉ name)
    (agree : ∀ value : List α → List α,
      sequential mark names value text = simultaneous mark (firstName names) value text)
    (slot : .slot name ∈ pieces mark (firstName names) 0 text) : names.getLast? = some name := by
  have listed := mem_of_slot alone slot
  obtain ⟨front, last, rfl⟩ := (List.eq_nil_or_concat' names).resolve_left
    (List.ne_nil_of_mem listed)
  rw [List.getLast?_concat]
  by_contra differs
  have other : name ≠ last := fun same => differs (same ▸ rfl)
  -- the value of the name is the last one with its mark
  let value : List α → List α := fun asked => if asked = name then mark :: last else [fresh]
  have gone : ¬ mark :: last <:+: sequential mark (front ++ [last]) value text := by
    have step : sequential mark (front ++ [last]) value text =
        replace (mark :: last) [fresh] 0 (sequential mark front value text) := by
      have unlike : value last = [fresh] := if_neg other.symm
      rw [sequential, List.foldl_concat, ← sequential, unlike]
    rw [step]
    exact not_infix_replace (absent last (by simp)) _
  obtain ⟨before, after, split⟩ := List.append_of_mem slot
  have there : mark :: last <:+: simultaneous mark (firstName (front ++ [last])) value text := by
    rw [simultaneous, split, render_append, render_cons]
    refine ⟨render mark (fun name => some (value name)) before,
      render mark (fun name => some (value name)) after, ?_⟩
    rw [Piece.put, Option.getD_some, List.append_assoc]
    exact congrArg (_ ++ ·) (congrArg (· ++ _) (if_pos rfl).symm)
  rw [← agree value] at there
  exact gone there

end MessagePusher.Substitution
