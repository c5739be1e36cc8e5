import MessagePusher.Substitution.LongestName

/-!
# Names that end where their run ends

A scanner may read the whole run of name symbols behind a mark and replace it only if all of it is
a name. With values that have no mark, the sequential substitution does the same for all values if
and only if no name is cut out of a longer run, and none is put together by an inserted value.
-/

namespace MessagePusher.Substitution

variable {α : Type}

/-- A run of name symbols that does not go on. -/
structure IsRun (ident : α → Bool) (run after : List α) : Prop where
  symbols : ∀ symbol ∈ run, ident symbol
  stops : ∀ symbol ∈ after.head?, ident symbol = false

variable {mark : α} {ident : α → Bool} {run after rest name : List α}
  {names done later : List (List α)}

/-- What is taken is a run in front of the rest. -/
theorem isRun_takeWhile (ident : α → Bool) (rest : List α) :
    IsRun ident (rest.takeWhile ident) (rest.dropWhile ident) where
  symbols := List.all_eq_true.mp List.all_takeWhile
  stops := by
    intro symbol first
    have stopped := List.head?_dropWhile_not ident rest
    rw [first] at stopped
    exact stopped

/-- A run is taken whole. -/
theorem IsRun.takeWhile (isRun : IsRun ident run after) : (run ++ after).takeWhile ident = run := by
  rw [List.takeWhile_append_of_pos isRun.symbols]
  cases after with
  | nil => rw [List.takeWhile_nil, List.append_nil]
  | cons symbol after =>
      rw [List.takeWhile_cons_of_neg (by simp [isRun.stops symbol rfl]), List.append_nil]

/-- What is behind a run is left. -/
theorem IsRun.dropWhile (isRun : IsRun ident run after) :
    (run ++ after).dropWhile ident = after := by
  rw [List.dropWhile_append_of_pos isRun.symbols]
  cases after with
  | nil => rfl
  | cons symbol after => rw [List.dropWhile_cons_of_neg (by simp [isRun.stops symbol rfl])]

/-- Name symbols at the beginning are within the run. -/
theorem IsRun.prefix_run (isRun : IsRun ident run after) (symbols : ∀ symbol ∈ name, ident symbol)
    (fits : name <+: run ++ after) : name <+: run := by
  rcases List.prefix_or_prefix_of_prefix fits (List.prefix_append run after) with
    inside | ⟨more, rfl⟩
  · exact inside
  · cases more with
    | nil => exact (List.append_nil run).symm ▸ List.prefix_rfl
    | cons symbol more =>
        rw [List.prefix_append_right_inj] at fits
        obtain ⟨beyond, whole⟩ := fits
        have goesOn := symbols symbol (by simp)
        rw [isRun.stops symbol (by rw [← whole]; rfl)] at goesOn
        cases goesOn

/-- What a group of lemmas is about: names of name symbols, longest first, and a mark that is
none of these. -/
structure Setting (mark : α) (ident : α → Bool) (names : List (List α)) : Prop where
  order : LongestFirst names
  symbols : ∀ name ∈ names, ∀ symbol ∈ name, ident symbol
  markApart : ident mark = false

/-- No name holds the mark. -/
theorem Setting.alone (setting : Setting mark ident names) : ∀ name ∈ names, mark ∉ name := by
  intro name listed member
  have symbol := setting.symbols name listed mark member
  rw [setting.markApart] at symbol
  cases symbol

/-- A name is not among those that are done, nor among the later ones. -/
theorem Setting.apart_of_split (setting : Setting mark ident names)
    (split : names = done ++ name :: later) : name ∉ done ∧ name ∉ later := by
  have distinct := setting.order.nodup
  rw [split] at distinct
  refine ⟨fun member => ?_, (List.nodup_cons.mp (List.nodup_append.mp distinct).2.1).1⟩
  exact (List.nodup_append.mp distinct).2.2 name member name (by simp) rfl

/-- A symbol that is no name symbol, to tell values apart. -/
structure IsFresh (mark : α) (ident : α → Bool) (fresh : α) : Prop where
  apart : ident fresh = false
  noMark : fresh ≠ mark

/-- A fresh symbol is in no name. -/
theorem IsFresh.absent {fresh : α} (isFresh : IsFresh mark ident fresh)
    (setting : Setting mark ident names) : ∀ name ∈ names, fresh ∉ mark :: name := by
  intro name listed member
  rcases List.mem_cons.mp member with same | inside
  · exact isFresh.noMark same
  · have symbol := setting.symbols name listed fresh inside
    rw [isFresh.apart] at symbol
    cases symbol

/-- A mark is behind a part without marks. -/
theorem append_eq_append_mark {part back : List α} {front : List α} (free : mark ∉ part)
    (same : part ++ rest = front ++ mark :: back) :
    ∃ later, front = part ++ later ∧ rest = later ++ mark :: back := by
  rcases List.append_eq_append_iff.mp same with ⟨later, whole, split⟩ | ⟨more, whole, split⟩
  · exact ⟨later, whole, split⟩
  · cases more with
    | nil => exact ⟨[], by rw [whole]; simp, by rw [split]; rfl⟩
    | cons symbol more =>
        obtain ⟨rfl, -⟩ := List.cons.inj split
        exact absurd (by rw [whole]; simp) free

variable [DecidableEq α]

/-- The run behind a mark, if all of it is a name. -/
def wholeName (ident : α → Bool) (names : List (List α)) (rest : List α) : Option (List α) :=
  known names id (rest.takeWhile ident)

theorem wholeName_eq (ident : α → Bool) (names : List (List α)) (rest : List α) :
    wholeName ident names rest =
      if rest.takeWhile ident ∈ names then some (rest.takeWhile ident) else none := rfl

/-- Behind each mark of the text that a name follows, the whole run is a name. -/
def WholeRuns (mark : α) (ident : α → Bool) (names : List (List α)) (text : List α) : Prop :=
  ∀ front rest, text = front ++ mark :: rest → ∀ name ∈ names, name <+: rest →
    rest.takeWhile ident ∈ names

/-- A slot that is done directly behind a mark and the beginning of a name. -/
def Forms (mark : α) (ident : α → Bool) (done : List (List α)) (name text : List α) : Prop :=
  ∃ front part inserted back more,
    text = front ++ mark :: (part ++ mark :: (inserted ++ back)) ∧
    (∀ symbol ∈ part, ident symbol) ∧ inserted ∈ done ∧ IsRun ident inserted back ∧ more ≠ [] ∧
    name = part ++ more

/-- No name can be put together by the value of one that is replaced before. -/
def NoForms (mark : α) (ident : α → Bool) (names : List (List α)) (text : List α) : Prop :=
  ∀ done name later, names = done ++ name :: later → ¬ Forms mark ident done name text

/-- A value that is put together with the beginning of a name in front of it to the name. -/
def GoesOn (mark : α) (ident : α → Bool) (names : List (List α)) (value : List α → List α)
    (done : List (List α)) (name text : List α) : Prop :=
  ∃ front part inserted back more,
    text = front ++ mark :: (part ++ mark :: (inserted ++ back)) ∧
    (∀ symbol ∈ part, ident symbol) ∧ inserted ∈ done ∧
    firstName names (inserted ++ back) = some inserted ∧ more ≠ [] ∧ name = part ++ more ∧
    more <+: value inserted ++
      render mark (known done value) (pieces mark (firstName names) 0 back)

variable {value : List α → List α} {text : List α}

/-- A text in front changes nothing about what follows a value. -/
theorem GoesOn.append (front : List α) (goes : GoesOn mark ident names value done name text) :
    GoesOn mark ident names value done name (front ++ text) := by
  obtain ⟨before, part, inserted, back, more, rfl, found⟩ := goes
  exact ⟨front ++ before, part, inserted, back, more, by simp, found⟩

/-! ### What a mark is followed by -/

/-- Only names are found. -/
theorem mem_of_wholeName (found : wholeName ident names rest = some name) : name ∈ names := by
  rw [wholeName_eq] at found
  split_ifs at found with listed
  exact Option.some.inj found ▸ listed

namespace Setting

/-- The first name that is in front holds no mark. -/
theorem chooses (setting : Setting mark ident names) : Chooses mark (firstName names) :=
  chooses_firstName setting.alone

/-- The run in front holds no mark, if it is a name. -/
theorem chooses_wholeName (setting : Setting mark ident names) :
    Chooses mark (wholeName ident names) := by
  intro rest name found
  refine ⟨?_, setting.alone _ (mem_of_wholeName found)⟩
  rw [wholeName_eq] at found
  split_ifs at found
  exact Option.some.inj found ▸ List.takeWhile_prefix ident

end Setting

/-- A part without marks has only pieces of one symbol. -/
theorem render_pieces_append {choose : List α → Option (List α)}
    {known : List α → Option (List α)} {part : List α} (free : mark ∉ part) (rest : List α) :
    render mark known (pieces mark choose 0 (part ++ rest)) =
      part ++ render mark known (pieces mark choose 0 rest) := by
  induction part with
  | nil => rfl
  | cons symbol part ih =>
      rw [List.mem_cons, not_or] at free
      rw [List.cons_append, pieces_plain fun same => absurd same.symm free.1, render_cons, ih free.2]
      rfl

/-- A mark whose slot is not filled stays, with its whole run. -/
theorem Setting.render_unfilled (setting : Setting mark ident names)
    {known : List α → Option (List α)} (isRun : IsRun ident run after)
    (unfilled : ∀ name, firstName names (run ++ after) = some name → known name = none) :
    render mark known (pieces mark (firstName names) 0 (mark :: (run ++ after))) =
      mark :: (run ++ render mark known (pieces mark (firstName names) 0 after)) := by
  have free : mark ∉ run := by
    intro member
    have symbol := isRun.symbols mark member
    rw [setting.markApart] at symbol
    cases symbol
  cases chosen : firstName names (run ++ after) with
  | none =>
      rw [pieces_plain fun _ => chosen, render_cons, render_pieces_append free]
      rfl
  | some name =>
      have symbols := setting.symbols name (mem_of_firstName chosen)
      obtain ⟨more, rfl⟩ := isRun.prefix_run symbols (setting.chooses _ _ chosen).1
      rw [List.append_assoc] at chosen ⊢
      have freeMore : mark ∉ more := fun member => free (List.mem_append_right _ member)
      rw [pieces_slot chosen, render_cons, render_pieces_append freeMore, Piece.put]
      rw [unfilled name (by rw [List.append_assoc, chosen]), Option.getD_none]
      simp

/-- Name symbols behind the end of a run come from the value of a slot. -/
theorem Setting.filled_of_prefix (setting : Setting mark ident names)
    {more : List α} (some_ : more ≠ []) (symbols : ∀ symbol ∈ more, ident symbol)
    (stops : ∀ symbol ∈ after.head?, ident symbol = false)
    (fits : more <+: render mark (known done value) (pieces mark (firstName names) 0 after)) :
    ∃ inserted back, after = mark :: (inserted ++ back) ∧ inserted ∈ done ∧
      firstName names (inserted ++ back) = some inserted ∧
      more <+: value inserted ++
        render mark (known done value) (pieces mark (firstName names) 0 back) := by
  obtain ⟨first, more, rfl⟩ := List.exists_cons_of_ne_nil some_
  have ident_ := symbols first (by simp)
  cases after with
  | nil => cases List.prefix_nil.mp fits
  | cons symbol rest =>
      have stop := stops symbol rfl
      have apart : first ≠ symbol := by
        rintro rfl
        rw [stop] at ident_
        cases ident_
      by_cases free : symbol = mark → firstName names rest = none
      · rw [pieces_plain free, render_cons] at fits
        exact absurd (List.cons_prefix_cons.mp fits).1 apart
      · obtain ⟨rfl, chosen⟩ := Classical.not_imp.mp free
        obtain ⟨inserted, chosen⟩ := Option.ne_none_iff_exists'.mp chosen
        obtain ⟨⟨back, rfl⟩, -⟩ := setting.chooses _ _ chosen
        rw [pieces_slot chosen, render_cons, Piece.put, known] at fits
        split_ifs at fits with isDone
        · exact ⟨inserted, back, rfl, isDone, chosen, fits⟩
        · exact absurd (List.cons_prefix_cons.mp fits).1 apart

/-! ### Occurrences at each step -/

/-- Where the name starts at a mark that is not filled, it is the name of the slot there. -/
theorem Setting.chosen_of_starts (setting : Setting mark ident names)
    (split : names = done ++ name :: later)
    (apart : ¬ GoesOn mark ident names value done name (mark :: rest))
    (unfilled : ∀ chosen, firstName names rest = some chosen → chosen ∉ done)
    (fits : mark :: name <+: render mark (known done value)
      (pieces mark (firstName names) 0 (mark :: rest))) : firstName names rest = some name := by
  have listed : name ∈ names := by
    rw [split]
    simp
  have isRun := isRun_takeWhile ident rest
  have whole : rest.takeWhile ident ++ rest.dropWhile ident = rest :=
    List.takeWhile_append_dropWhile
  have inRun : name <+: rest.takeWhile ident → firstName names rest = some name := by
    intro inside
    obtain ⟨chosen, found, longer⟩ :=
      setting.order.firstName listed (inside.trans (List.takeWhile_prefix ident))
    have notDone := unfilled chosen found
    have order := setting.order
    have among := mem_of_firstName found
    rw [split] at among order
    rcases List.mem_cons.mp ((List.mem_append.mp among).resolve_left notDone) with same | behind
    · rw [found, same]
    · exact absurd longer (List.rel_of_pairwise_cons (List.pairwise_append.mp order).2.1 behind)
  have unknown : ∀ chosen, firstName names (rest.takeWhile ident ++ rest.dropWhile ident) =
      some chosen → known done value chosen = none :=
    fun chosen found => if_neg (unfilled chosen (whole ▸ found))
  rw [← whole, setting.render_unfilled isRun unknown] at fits
  obtain ⟨-, fits⟩ := List.cons_prefix_cons.mp fits
  rcases List.prefix_or_prefix_of_prefix fits (List.prefix_append _ _) with inside | ⟨more, longer⟩
  · exact inRun inside
  · by_cases nothing : more = []
    · exact inRun (by rw [← longer, nothing, List.append_nil])
    · have symbols : ∀ symbol ∈ more, ident symbol := fun symbol member =>
        setting.symbols name listed symbol (longer ▸ List.mem_append_right _ member)
      rw [← longer, List.prefix_append_right_inj] at fits
      obtain ⟨inserted, back, rest_, isDone, found, goes⟩ :=
        setting.filled_of_prefix nothing symbols isRun.stops fits
      refine absurd ⟨[], _, inserted, back, more, ?_, isRun.symbols, isDone, found, nothing,
        longer.symm, goes⟩ apart
      rw [List.nil_append, ← rest_, whole]

/-- A step finds only slots where no value goes on with its name. -/
theorem Setting.onlyPieces (setting : Setting mark ident names)
    (split : names = done ++ name :: later) (plain : ∀ name ∈ names, mark ∉ value name)
    (apart : ¬ GoesOn mark ident names value done name text) :
    OnlyPieces mark (known done value) name (pieces mark (firstName names) 0 text) := by
  induction text using pieces_induction setting.chooses with
  | nil =>
      intro front back occurs
      cases front <;> cases occurs
  | plain symbol rest free ih =>
      intro front back occurs
      have further := ih fun goes => apart (goes.append [symbol])
      have pieces_ : pieces mark (firstName names) 0 (symbol :: rest) =
          .plain symbol :: pieces mark (firstName names) 0 rest := pieces_plain free
      cases front with
      | nil =>
          have starts : mark :: name <+: render mark (known done value)
              (pieces mark (firstName names) 0 (symbol :: rest)) := ⟨back, occurs.symm⟩
          rw [pieces_, render_cons] at occurs
          obtain rfl : symbol = mark := (List.cons.inj occurs).1
          have none_ := free rfl
          have found := setting.chosen_of_starts split apart (by simp [none_]) starts
          cases none_.symm.trans found
      | cons first front =>
          rw [pieces_, render_cons] at occurs
          obtain ⟨rfl, tail⟩ := List.cons.inj occurs
          obtain ⟨before, after, slots, same⟩ := further front back tail
          refine ⟨.plain symbol :: before, after, ?_, ?_⟩
          · rw [pieces_, slots, List.cons_append]
          · rw [render_cons, ← same]
            rfl
  | slot chosen rest found alone ih =>
      intro front back occurs
      have further := ih fun goes => apart (by simpa using goes.append (mark :: chosen))
      have pieces_ : pieces mark (firstName names) 0 (mark :: (chosen ++ rest)) =
          .slot chosen :: pieces mark (firstName names) 0 rest := pieces_slot found
      -- behind the slot the occurrence is one of the rest
      have behind : ∀ front, render mark (known done value)
          (pieces mark (firstName names) 0 rest) = front ++ mark :: (name ++ back) →
          ∃ before after, pieces mark (firstName names) 0 (mark :: (chosen ++ rest)) =
              before ++ .slot name :: after ∧
            (Piece.slot chosen).put mark (known done value) ++ front =
              render mark (known done value) before := by
        intro front occurs
        obtain ⟨before, after, slots, same⟩ := further front back occurs
        refine ⟨.slot chosen :: before, after, ?_, ?_⟩
        · rw [pieces_, slots, List.cons_append]
        · rw [render_cons, ← same]
      by_cases isDone : chosen ∈ done
      · have filled : (Piece.slot chosen).put mark (known done value) = value chosen := by
          rw [Piece.put, known, if_pos isDone, Option.getD_some]
        rw [pieces_, render_cons, filled] at occurs
        obtain ⟨front, rfl, tail⟩ :=
          append_eq_append_mark (plain chosen (mem_of_firstName found)) occurs
        rw [← filled]
        exact behind front tail
      · have stays : (Piece.slot chosen).put mark (known done value) = mark :: chosen := by
          rw [Piece.put, known, if_neg isDone, Option.getD_none]
        cases front with
        | nil =>
            have starts : mark :: name <+: render mark (known done value)
                (pieces mark (firstName names) 0 (mark :: (chosen ++ rest))) := ⟨back, occurs.symm⟩
            have again := setting.chosen_of_starts split apart
              (fun other same => Option.some.inj (found.symm.trans same) ▸ isDone) starts
            obtain rfl := Option.some.inj (found.symm.trans again)
            exact ⟨[], _, pieces_, rfl⟩
        | cons first front =>
            rw [pieces_, render_cons, stays] at occurs
            obtain ⟨rfl, tail⟩ := List.cons.inj occurs
            obtain ⟨front, rfl, later⟩ := append_eq_append_mark alone tail
            have found := behind front later
            rw [stays] at found
            exact found

/-! ### The scanner of whole runs -/

/-- Two choices that agree behind each mark have the same pieces. -/
theorem pieces_congr {choose other : List α → Option (List α)}
    (same : ∀ front rest, text = front ++ mark :: rest → choose rest = other rest) (skip : Nat) :
    pieces mark choose skip text = pieces mark other skip text := by
  induction text generalizing skip with
  | nil => cases skip <;> rfl
  | cons symbol text ih =>
      have later := ih fun front rest split => same (symbol :: front) rest (by rw [split]; rfl)
      cases skip with
      | succ skip => exact later skip
      | zero =>
          rw [pieces, pieces]
          split_ifs with marked
          · rw [same [] text (by rw [marked]; rfl)]
            cases other text with
            | none => exact congrArg _ (later 0)
            | some name => exact congrArg _ (later name.length)
          · exact congrArg _ (later 0)

/-- Both choices agree where every name in front means the whole run. -/
theorem Setting.firstName_eq_wholeName (setting : Setting mark ident names)
    (whole : ∀ name ∈ names, name <+: rest → rest.takeWhile ident ∈ names) :
    firstName names rest = wholeName ident names rest := by
  rw [wholeName_eq]
  split_ifs with listed
  · obtain ⟨chosen, found, longer⟩ := setting.order.firstName listed (List.takeWhile_prefix ident)
    have symbols := setting.symbols chosen (mem_of_firstName found)
    have fits := (setting.chooses _ _ found).1
    have isRun := isRun_takeWhile ident rest
    have split : rest.takeWhile ident ++ rest.dropWhile ident = rest :=
      List.takeWhile_append_dropWhile
    have inside := isRun.prefix_run symbols (split.symm ▸ fits)
    rw [found, inside.eq_of_length_le longer.length_le]
  · cases found : firstName names rest with
    | none => rfl
    | some chosen =>
        exact absurd (whole chosen (mem_of_firstName found) (setting.chooses _ _ found).1) listed

/-- Both choices cut a text alike where all its runs are whole. -/
theorem Setting.pieces_eq (setting : Setting mark ident names)
    (whole : WholeRuns mark ident names text) :
    pieces mark (firstName names) 0 text = pieces mark (wholeName ident names) 0 text :=
  pieces_congr (fun front rest split => setting.firstName_eq_wholeName (whole front rest split)) 0

/-- Where the runs are whole, a value goes on only where a name can be put together. -/
theorem Setting.forms_of_goesOn (setting : Setting mark ident names)
    (whole : WholeRuns mark ident names text)
    (goes : GoesOn mark ident names value done name text) : Forms mark ident done name text := by
  obtain ⟨front, part, inserted, back, more, split, symbols, isDone, found, some_, joined, -⟩ := goes
  refine ⟨front, part, inserted, back, more, split, symbols, isDone, ?_, some_, joined⟩
  have at_ : text = (front ++ mark :: part) ++ mark :: (inserted ++ back) := by
    rw [split, List.append_assoc]
    rfl
  have run := setting.firstName_eq_wholeName (whole _ _ at_)
  rw [found, wholeName_eq] at run
  split_ifs at run
  have same := Option.some.inj run
  have isRun := isRun_takeWhile ident (inserted ++ back)
  have parts : (inserted ++ back).takeWhile ident ++ (inserted ++ back).dropWhile ident =
      inserted ++ back := List.takeWhile_append_dropWhile
  rw [← same] at isRun parts
  rw [List.append_cancel_left parts] at isRun
  exact isRun

/-- Without values that go on, every step finds only slots. -/
theorem Setting.sequential_eq (setting : Setting mark ident names)
    (plain : ∀ name ∈ names, mark ∉ value name)
    (apart : ∀ done name later, names = done ++ name :: later →
      ¬ GoesOn mark ident names value done name text) :
    sequential mark names value text = simultaneous mark (firstName names) value text :=
  sequential_eq_simultaneous setting.chooses setting.order.nodup
    (fun _ listed => mem_of_slot setting.alone listed)
    fun done name later split => setting.onlyPieces split plain (apart done name later split)

/-! ### Counting -/

/-- The marks of a text at which nothing is chosen. -/
def unchosen (mark : α) (choose : List α → Option (List α)) : List α → Nat
  | [] => 0
  | symbol :: rest =>
      (if symbol = mark ∧ choose rest = none then 1 else 0) + unchosen mark choose rest

/-- A part without the mark has no unchosen mark. -/
theorem unchosen_append {choose : List α → Option (List α)} {part : List α} (free : mark ∉ part)
    (rest : List α) : unchosen mark choose (part ++ rest) = unchosen mark choose rest := by
  induction part with
  | nil => rfl
  | cons symbol part ih =>
      rw [List.mem_cons, not_or] at free
      rw [List.cons_append, unchosen, if_neg fun both => free.1 both.1.symm, ih free.2, Nat.zero_add]

/-- With values without a mark, the marks that stay are those at which nothing is chosen. -/
theorem count_mark_simultaneous {choose : List α → Option (List α)}
    (chooses : Chooses mark choose) (plain : ∀ name, mark ∉ value name) (text : List α) :
    (simultaneous mark choose value text).count mark = unchosen mark choose text := by
  unfold simultaneous
  induction text using pieces_induction chooses with
  | nil => rfl
  | slot name rest found alone ih =>
      rw [pieces_slot found, render_cons, List.count_append, ih, Piece.put, Option.getD_some,
        List.count_eq_zero.mpr (plain name), Nat.zero_add, unchosen, if_neg (by simp [found]),
        Nat.zero_add, unchosen_append alone]
  | plain symbol rest free ih =>
      rw [pieces_plain free, render_cons, List.count_append, ih, Piece.put, unchosen,
        List.count_singleton]
      by_cases marked : symbol = mark
      · simp [marked, free marked]
      · simp [marked]

/-- If one choice chooses wherever another does, and as many marks stay, then they choose at the
same marks. -/
theorem unchosen_eq {choose other : List α → Option (List α)}
    (more : ∀ rest, choose rest = none → other rest = none) (text : List α) :
    unchosen mark choose text ≤ unchosen mark other text ∧
      (unchosen mark choose text = unchosen mark other text →
        ∀ front rest, text = front ++ mark :: rest → other rest = none → choose rest = none) := by
  induction text with
  | nil =>
      refine ⟨Nat.le_refl _, fun _ front rest split => ?_⟩
      cases front <;> cases split
  | cons symbol text ih =>
      have here : (if symbol = mark ∧ choose text = none then 1 else 0) ≤
          if symbol = mark ∧ other text = none then 1 else 0 := by
        split_ifs with one two
        · exact Nat.le_refl _
        · exact absurd ⟨one.1, more text one.2⟩ two
        · exact Nat.zero_le _
        · exact Nat.le_refl _
      refine ⟨Nat.add_le_add here ih.1, fun same => ?_⟩
      rw [unchosen, unchosen] at same
      have later := ih.2 (by have := ih.1; omega)
      rintro (_ | ⟨first, front⟩) rest split none_
      · obtain ⟨rfl, rfl⟩ := List.cons.inj split
        by_contra some_
        rw [if_neg fun both => some_ both.2, if_pos ⟨rfl, none_⟩] at same
        have := ih.1
        omega
      · obtain ⟨rfl, rfl⟩ := List.cons.inj split
        exact later front rest rfl none_

/-- Values without a symbol leave its number as it is. -/
theorem count_sequential {counted : α} (alone : ∀ name ∈ names, mark ∉ name)
    (absent : ∀ name ∈ names, counted ∉ mark :: name)
    (free : ∀ name ∈ names, counted ∉ value name) (text : List α) :
    (sequential mark names value text).count counted = text.count counted := by
  induction names generalizing text with
  | nil => rfl
  | cons name names ih =>
      rw [List.forall_mem_cons] at alone absent free
      rw [sequential, List.foldl_cons, ← sequential, ih alone.2 absent.2 free.2,
        count_replace alone.1 absent.1, List.count_eq_zero.mpr free.1, Nat.mul_zero, Nat.add_zero]

/-- What filling the slots of one name adds. -/
theorem count_render_add {known other : List α → Option (List α)} {counted : α} {name : List α}
    {pieces : List (Piece α)}
    (adds : ∀ slot, .slot slot ∈ pieces → ((Piece.slot slot).put mark other).count counted =
      ((Piece.slot slot).put mark known).count counted + if slot = name then 1 else 0) :
    (render mark other pieces).count counted =
      (render mark known pieces).count counted + pieces.count (.slot name) := by
  induction pieces with
  | nil => rfl
  | cons piece pieces ih =>
      have later := ih fun slot listed => adds slot (List.mem_cons_of_mem _ listed)
      rw [render_cons, render_cons, List.count_append, List.count_append, later, List.count_cons]
      cases piece with
      | plain symbol =>
          rw [beq_false_of_ne (by simp)]
          simp only [Piece.put, Bool.false_eq_true, if_false]
          omega
      | slot slot =>
          rw [adds slot List.mem_cons_self]
          by_cases same : slot = name
          · simp only [same, if_true, beq_self_eq_true]
            omega
          · rw [if_neg same, beq_false_of_ne (by simp [same])]
            simp only [Bool.false_eq_true, if_false]
            omega

/-- Each slot of a name that has no value yet is an occurrence. -/
theorem count_slot_le_starts {known : List α → Option (List α)} (unknown : known name = none)
    (pieces : List (Piece α)) :
    pieces.count (.slot name) ≤ starts (mark :: name) (render mark known pieces) := by
  induction pieces with
  | nil => exact Nat.le_refl _
  | cons piece pieces ih =>
      by_cases same : piece = .slot name
      · subst same
        have fits : mark :: name <+: mark :: (name ++ render mark known pieces) :=
          List.prefix_append _ _
        have rest := starts_le_append (mark :: name) name (render mark known pieces)
        rw [List.count_cons_self, render_cons, Piece.put, unknown, Option.getD_none, List.cons_append,
          starts_occurrence fits]
        omega
      · rw [List.count_cons_of_ne same, render_cons]
        exact ih.trans (starts_le_append _ _ _)

/-- Another piece at which the name starts is one more occurrence. -/
theorem count_slot_lt_starts {known : List α → Option (List α)} (unknown : known name = none)
    {before after : List (Piece α)} {piece : Piece α} (other : piece ≠ .slot name)
    {more : List α} (put : piece.put mark known = mark :: more)
    (fits : mark :: name <+: render mark known (piece :: after)) :
    (before ++ piece :: after).count (.slot name) <
      starts (mark :: name) (render mark known (before ++ piece :: after)) := by
  induction before with
  | nil =>
      have behind : after.count (.slot name) ≤ starts (mark :: name) (render mark known after) :=
        count_slot_le_starts unknown after
      rw [render_cons, put, List.cons_append] at fits
      have rest := starts_le_append (mark :: name) more (render mark known after)
      rw [List.nil_append, List.count_cons_of_ne other, render_cons, put, List.cons_append,
        starts_occurrence fits]
      omega
  | cons first before ih =>
      rw [List.cons_append, render_cons]
      by_cases same : first = .slot name
      · subst same
        have starts_ : mark :: name <+:
            mark :: (name ++ render mark known (before ++ piece :: after)) :=
          List.prefix_append _ _
        have rest := starts_le_append (mark :: name) name
          (render mark known (before ++ piece :: after))
        rw [List.count_cons_self, Piece.put, unknown, Option.getD_none, List.cons_append,
          starts_occurrence starts_]
        omega
      · rw [List.count_cons_of_ne same]
        exact Nat.lt_of_lt_of_le ih (starts_le_append _ _ _)

/-! ### Which templates are safe for all values -/

/-- One fresh value tells whether both ways agree for all. -/
theorem Setting.wholeRuns_of_all_values (setting : Setting mark ident names) {fresh : α}
    (isFresh : IsFresh mark ident fresh)
    (agree : sequential mark names (fun _ => [fresh]) text =
      simultaneous mark (wholeName ident names) (fun _ => [fresh]) text) :
    WholeRuns mark ident names text := by
  have noMark : mark ∉ [fresh] := fun member =>
    isFresh.noMark (List.mem_singleton.mp member).symm
  -- no name goes on with the fresh symbol
  have apart : ∀ done name later, names = done ++ name :: later →
      ¬ GoesOn mark ident names (fun _ => [fresh]) done name text := by
    rintro done name later split ⟨_, part, _, _, more, -, -, -, -, some_, joined, fits⟩
    obtain ⟨first, more, rfl⟩ := List.exists_cons_of_ne_nil some_
    obtain rfl : first = fresh := (List.cons_prefix_cons.mp fits).1
    exact isFresh.absent setting name (by rw [split]; simp) (by rw [joined]; simp)
  rw [setting.sequential_eq (fun _ _ => noMark) apart] at agree
  have counts := congrArg (List.count mark) agree
  rw [count_mark_simultaneous setting.chooses fun _ => noMark,
    count_mark_simultaneous setting.chooses_wholeName fun _ => noMark] at counts
  have more : ∀ rest, firstName names rest = none → wholeName ident names rest = none := by
    intro rest none_
    rw [wholeName_eq]
    split_ifs with listed
    · obtain ⟨chosen, found, -⟩ :=
        setting.order.firstName listed (List.takeWhile_prefix ident)
      cases none_.symm.trans found
    · rfl
  intro front rest split name listed fits
  by_contra noName
  have none_ := (unchosen_eq more text).2 counts front rest split (if_neg noName)
  obtain ⟨chosen, found, -⟩ := setting.order.firstName listed fits
  cases none_.symm.trans found

/-- The values for which a name that can be put together is. -/
def joining (inserted more name : List α) (fresh : α) (asked : List α) : List α :=
  if asked = inserted then more else if asked = name then [fresh] else []

theorem mark_not_mem_joining {inserted more : List α} {fresh : α} (noMore : mark ∉ more)
    (noMark : fresh ≠ mark) (asked : List α) : mark ∉ joining inserted more name fresh asked := by
  unfold joining
  split_ifs
  · exact noMore
  · exact fun member => noMark (List.mem_singleton.mp member).symm
  · exact List.not_mem_nil

theorem fresh_not_mem_joining {inserted more asked : List α} {fresh : α} (noMore : fresh ∉ more)
    (other : asked ≠ name) : fresh ∉ joining inserted more name fresh asked := by
  unfold joining
  split_ifs
  · exact noMore
  · exact List.not_mem_nil

/-- With these values the step of the name finds an occurrence that is no slot. -/
theorem Setting.count_lt_of_forms (setting : Setting mark ident names)
    (whole : WholeRuns mark ident names text) (split : names = done ++ name :: later)
    {front part inserted back more : List α} {fresh : α}
    (at_ : text = front ++ mark :: (part ++ mark :: (inserted ++ back)))
    (symbols : ∀ symbol ∈ part, ident symbol) (isDone : inserted ∈ done)
    (isRun : IsRun ident inserted back) (some_ : more ≠ []) (joined : name = part ++ more) :
    (pieces mark (firstName names) 0 text).count (.slot name) <
      starts (mark :: name) (render mark (known done (joining inserted more name fresh))
        (pieces mark (firstName names) 0 text)) := by
  have order := setting.order
  have distinct := setting.order.nodup
  rw [split] at order distinct
  have notDone : ∀ other, other <+: name → other ∉ done := fun other inFront member =>
    (List.pairwise_append.mp order).2.2 other member name (by simp) inFront
  have unknown : known done (joining inserted more name fresh) name = none :=
    if_neg (notDone name List.prefix_rfl)
  have filled : firstName names (inserted ++ back) = some inserted := by
    have behind : text = (front ++ mark :: part) ++ mark :: (inserted ++ back) := by
      rw [at_, List.append_assoc]
      rfl
    have listed : inserted ∈ names := by
      rw [split]
      exact List.mem_append_left _ isDone
    rw [setting.firstName_eq_wholeName (whole _ _ behind), wholeName_eq, isRun.takeWhile,
      if_pos listed]
  -- the mark in front of the part is not filled
  have isPart : IsRun ident part (mark :: (inserted ++ back)) :=
    ⟨symbols, by rintro _ ⟨⟩; exact setting.markApart⟩
  have unfilled : ∀ other, firstName names (part ++ mark :: (inserted ++ back)) = some other →
      known done (joining inserted more name fresh) other = none := by
    intro other found
    have inside := isPart.prefix_run (setting.symbols other (mem_of_firstName found))
      (setting.chooses _ _ found).1
    exact if_neg (notDone other (inside.trans (joined ▸ List.prefix_append _ _)))
  have rendered := setting.render_unfilled isPart unfilled
  have value_ : known done (joining inserted more name fresh) inserted = some more :=
    (if_pos isDone).trans (congrArg some (if_pos rfl))
  rw [pieces_slot filled, render_cons, Piece.put, value_, Option.getD_some] at rendered
  have starts_ : mark :: name <+: render mark (known done (joining inserted more name fresh))
      (pieces mark (firstName names) 0 (mark :: (part ++ mark :: (inserted ++ back)))) := by
    rw [rendered, joined, ← List.append_assoc]
    exact List.prefix_append _ _
  obtain ⟨before, slots, -⟩ := pieces_append_mark setting.chooses front
    (part ++ mark :: (inserted ++ back))
  rw [at_, slots]
  cases found : firstName names (part ++ mark :: (inserted ++ back)) with
  | none =>
      rw [pieces_plain fun _ => found] at starts_ ⊢
      exact count_slot_lt_starts unknown (by simp) rfl starts_
  | some other =>
      have inside := isPart.prefix_run (setting.symbols other (mem_of_firstName found))
        (setting.chooses _ _ found).1
      have differs : other ≠ name := by
        intro same
        rw [same, joined] at inside
        exact some_ (List.append_right_eq_self.mp (inside.eq_of_length_le (by simp)))
      have stays := unfilled other found
      obtain ⟨⟨rest, same⟩, -⟩ := setting.chooses _ _ found
      rw [← same] at found starts_ ⊢
      rw [pieces_slot found] at starts_ ⊢
      have put_ : (Piece.slot other).put mark (known done (joining inserted more name fresh)) =
          mark :: other := by
        rw [Piece.put, stays, Option.getD_none]
      exact count_slot_lt_starts unknown (by simp [differs]) put_ starts_

theorem joining_self {inserted more : List α} {fresh : α} (other : name ≠ inserted) :
    joining inserted more name fresh name = [fresh] := by
  rw [joining, if_neg other, if_pos rfl]

/-- The fresh symbol counts the slots of the name in the simultaneous substitution. -/
theorem Setting.count_filled (setting : Setting mark ident names) {fresh : α}
    (isFresh : IsFresh mark ident fresh) (split : names = done ++ name :: later)
    {inserted more : List α} (isDone : inserted ∈ done) (noMore : fresh ∉ more) (text : List α) :
    (render mark (fun asked => some (joining inserted more name fresh asked))
        (pieces mark (firstName names) 0 text)).count fresh =
      (render mark (known done (joining inserted more name fresh))
        (pieces mark (firstName names) 0 text)).count fresh +
        (pieces mark (firstName names) 0 text).count (.slot name) := by
  have notDone := (setting.apart_of_split split).1
  have own : joining inserted more name fresh name = [fresh] :=
    joining_self fun same => notDone (same ▸ isDone)
  refine count_render_add fun slot among => ?_
  have freshSlot := isFresh.absent setting slot (mem_of_slot setting.alone among)
  simp only [Piece.put, Option.getD_some, known]
  split_ifs with slotDone equal equal
  · exact absurd (equal ▸ slotDone) notDone
  · rfl
  · rw [equal] at freshSlot ⊢
    rw [own, Option.getD_none, List.count_eq_zero.mpr freshSlot, List.count_singleton_self]
  · rw [Option.getD_none, List.count_eq_zero.mpr freshSlot,
      List.count_eq_zero.mpr (fresh_not_mem_joining noMore equal)]

/-- The fresh symbol counts the occurrences of the name in the sequential substitution. -/
theorem Setting.count_replaced (setting : Setting mark ident names) {fresh : α}
    (isFresh : IsFresh mark ident fresh) (split : names = done ++ name :: later)
    {inserted more : List α} (isDone : inserted ∈ done) (noMore : fresh ∉ more) (text : List α) :
    (sequential mark names (joining inserted more name fresh) text).count fresh =
      (sequential mark done (joining inserted more name fresh) text).count fresh +
        starts (mark :: name) (sequential mark done (joining inserted more name fresh) text) := by
  obtain ⟨notDone, notLater⟩ := setting.apart_of_split split
  have own : joining inserted more name fresh name = [fresh] :=
    joining_self fun same => notDone (same ▸ isDone)
  have steps : sequential mark names (joining inserted more name fresh) text =
      sequential mark later (joining inserted more name fresh)
        (replace (mark :: name) (joining inserted more name fresh name) 0
          (sequential mark done (joining inserted more name fresh) text)) := by
    rw [split, sequential, List.foldl_append, List.foldl_cons]
    rfl
  have listed : name ∈ names := by
    rw [split]
    simp
  have behind : ∀ other ∈ later, other ∈ names := by
    intro other member
    rw [split]
    simp [member]
  have alone := setting.alone
  have absent := isFresh.absent setting
  have others : ∀ other ∈ later, fresh ∉ joining inserted more name fresh other := by
    intro other member
    refine fresh_not_mem_joining noMore ?_
    rintro rfl
    exact notLater member
  rw [steps, count_sequential (fun other member => alone other (behind other member))
      (fun other member => absent other (behind other member)) others,
    count_replace (alone name listed) (absent name listed), own, List.count_singleton_self,
    Nat.mul_one]

/-- If the substitutions agree for all values, no value completes a name: at the first one that it
could complete, more occurrences would be replaced than there are slots. -/
theorem Setting.noForms_of_all_values (setting : Setting mark ident names) {fresh : α}
    (isFresh : IsFresh mark ident fresh) (whole : WholeRuns mark ident names text)
    (agree : ∀ value : List α → List α, (∀ name ∈ names, mark ∉ value name) →
      sequential mark names value text =
        simultaneous mark (wholeName ident names) value text) :
    NoForms mark ident names text := by
  intro done
  induction size : done.length using Nat.strong_induction_on generalizing done with
  | _ length ih =>
    rintro name later split ⟨front, part, inserted, back, more, at_, symbols, isDone, isRun, some_,
      joined⟩
    have listed : name ∈ names := by
      rw [split]
      simp
    have noMore : mark ∉ more := fun member =>
      setting.alone name listed (joined ▸ List.mem_append_right _ member)
    have freshMore : fresh ∉ more := fun member => isFresh.absent setting name listed
      (List.mem_cons_of_mem _ (joined ▸ List.mem_append_right _ member))
    have plain : ∀ other ∈ names, mark ∉ joining inserted more name fresh other :=
      fun other _ => mark_not_mem_joining noMore isFresh.noMark other
    -- up to the step of the name only slots are found
    have earlier : ∀ before other after, done = before ++ other :: after →
        OnlyPieces mark (known before (joining inserted more name fresh)) other
          (pieces mark (firstName names) 0 text) := by
      intro before other after inside
      have front_ : names = before ++ other :: (after ++ name :: later) := by
        rw [split, inside, List.append_assoc]
        rfl
      refine setting.onlyPieces front_ plain fun goes => ?_
      have shorter : before.length < length := by
        rw [← size, inside, List.length_append, List.length_cons]
        omega
      exact ih before.length shorter before rfl other _ front_ (setting.forms_of_goesOn whole goes)
    have reached := sequential_done setting.order.nodup split earlier
    rw [render_pieces setting.chooses] at reached
    have same := agree (joining inserted more name fresh) plain
    rw [simultaneous, ← setting.pieces_eq whole] at same
    -- the fresh symbol counts the occurrences on the one side and the slots on the other
    have counts := congrArg (List.count fresh) same
    rw [setting.count_replaced isFresh split isDone freshMore, reached,
      setting.count_filled isFresh split isDone freshMore] at counts
    have less : (pieces mark (firstName names) 0 text).count (.slot name) <
        starts (mark :: name) (render mark (known done (joining inserted more name fresh))
          (pieces mark (firstName names) 0 text)) :=
      setting.count_lt_of_forms whole split at_ symbols isDone isRun some_ joined
    omega

/-- The two substitutions agree for all values without a mark if and only if the text has no name
cut out of a longer run and none that an inserted value can complete. -/
theorem Setting.sequential_eq_wholeName_iff (setting : Setting mark ident names) {fresh : α}
    (isFresh : IsFresh mark ident fresh) :
    (∀ value : List α → List α, (∀ name ∈ names, mark ∉ value name) →
      sequential mark names value text = simultaneous mark (wholeName ident names) value text) ↔
      WholeRuns mark ident names text ∧ NoForms mark ident names text := by
  constructor
  · intro agree
    have noMark : mark ∉ [fresh] := fun member =>
      isFresh.noMark (List.mem_singleton.mp member).symm
    have whole := setting.wholeRuns_of_all_values isFresh (agree _ fun _ _ => noMark)
    exact ⟨whole, setting.noForms_of_all_values isFresh whole agree⟩
  · rintro ⟨whole, noForms⟩ value plain
    have apart := setting.sequential_eq plain fun done name later split goes =>
      noForms done name later split (setting.forms_of_goesOn whole goes)
    rw [apart, simultaneous, simultaneous, setting.pieces_eq whole]

end MessagePusher.Substitution
