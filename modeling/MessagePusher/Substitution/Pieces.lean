import MessagePusher.Substitution.Replacement

/-!
# Substitution in pieces

A template falls into pieces: single symbols, and slots that are a mark with a name. The
simultaneous substitution fills each slot. The sequential one replaces all occurrences of one name
after the other in a growing text. They agree where every occurrence that it finds is a slot of
the template.
-/

namespace MessagePusher.Substitution

variable {α : Type} {mark : α}

inductive Piece (α : Type) where
  | plain (symbol : α)
  | slot (name : List α)
deriving DecidableEq

/-- A piece with the values that are known; a slot without one stays. -/
def Piece.put (mark : α) (known : List α → Option (List α)) : Piece α → List α
  | plain symbol => [symbol]
  | slot name => (known name).getD (mark :: name)

def render (mark : α) (known : List α → Option (List α)) (pieces : List (Piece α)) : List α :=
  pieces.flatMap (Piece.put mark known)

/-- `choose` finds names that the text behind a mark begins with. -/
def Chooses (mark : α) (choose : List α → Option (List α)) : Prop :=
  ∀ rest name, choose rest = some name → name <+: rest ∧ mark ∉ name

theorem render_cons (mark : α) (known : List α → Option (List α)) (piece : Piece α)
    (pieces : List (Piece α)) :
    render mark known (piece :: pieces) = piece.put mark known ++ render mark known pieces := rfl

theorem render_append (mark : α) (known : List α → Option (List α)) (pieces more : List (Piece α)) :
    render mark known (pieces ++ more) = render mark known pieces ++ render mark known more :=
  List.flatMap_append

/-- Only the values of the names in slots matter. -/
theorem render_congr {known other : List α → Option (List α)} {pieces : List (Piece α)}
    (same : ∀ name, .slot name ∈ pieces → known name = other name) :
    render mark known pieces = render mark other pieces := by
  refine List.flatMap_congr fun piece listed => ?_
  cases piece with
  | plain symbol => rfl
  | slot name => rw [Piece.put, Piece.put, same name listed]

/-- Every occurrence of the name is a slot. -/
def OnlyPieces (mark : α) (known : List α → Option (List α)) (name : List α)
    (pieces : List (Piece α)) : Prop :=
  ∀ front back, render mark known pieces = front ++ mark :: (name ++ back) →
    ∃ before after, pieces = before ++ .slot name :: after ∧ front = render mark known before

theorem OnlyPieces.tail {known : List α → Option (List α)} {name : List α} {piece : Piece α}
    {rest : List (Piece α)} (unknown : known name = none)
    (only : OnlyPieces mark known name (piece :: rest)) : OnlyPieces mark known name rest := by
  intro front back occurs
  have whole : render mark known (piece :: rest) =
      (piece.put mark known ++ front) ++ mark :: (name ++ back) := by
    rw [render_cons, occurs, List.append_assoc]
  obtain ⟨before, after, split, same⟩ := only _ _ whole
  cases before with
  | nil =>
      obtain ⟨rfl, rfl⟩ := List.cons.inj split
      rw [Piece.put, unknown] at same
      cases same
  | cons first before =>
      obtain ⟨rfl, rfl⟩ := List.cons.inj split
      exact ⟨before, after, rfl, List.append_cancel_left same⟩

variable [DecidableEq α]

/-- The pieces of a template, after leaving out the symbols that are used up. -/
def pieces (mark : α) (choose : List α → Option (List α)) : Nat → List α → List (Piece α)
  | _, [] => []
  | skip + 1, _ :: rest => pieces mark choose skip rest
  | 0, symbol :: rest =>
      if symbol = mark then
        match choose rest with
        | some name => .slot name :: pieces mark choose name.length rest
        | none => .plain symbol :: pieces mark choose 0 rest
      else .plain symbol :: pieces mark choose 0 rest

/-- All slots filled at once. -/
def simultaneous (mark : α) (choose : List α → Option (List α)) (value : List α → List α)
    (text : List α) : List α :=
  render mark (fun name => some (value name)) (pieces mark choose 0 text)

/-- One name replaced after the other. -/
def sequential (mark : α) (names : List (List α)) (value : List α → List α) (text : List α) :
    List α :=
  names.foldl (fun text name => replace (mark :: name) (value name) 0 text) text

/-- The values of the names that are done. -/
def known (done : List (List α)) (value : List α → List α) (name : List α) : Option (List α) :=
  if name ∈ done then some (value name) else none

variable {choose : List α → Option (List α)} {names : List (List α)}
  {value : List α → List α}

/-! ### The pieces of a template -/

theorem pieces_skip (skip : Nat) (text : List α) :
    pieces mark choose skip text = pieces mark choose 0 (text.drop skip) := by
  induction text generalizing skip with
  | nil => cases skip <;> rfl
  | cons symbol rest ih =>
      cases skip with
      | zero => rfl
      | succ skip => exact ih skip

theorem pieces_slot {name rest : List α} (chosen : choose (name ++ rest) = some name) :
    pieces mark choose 0 (mark :: (name ++ rest)) = .slot name :: pieces mark choose 0 rest := by
  rw [pieces, if_pos rfl, chosen]
  dsimp only
  rw [pieces_skip, List.drop_left]

theorem pieces_plain {symbol : α} {rest : List α} (free : symbol = mark → choose rest = none) :
    pieces mark choose 0 (symbol :: rest) = .plain symbol :: pieces mark choose 0 rest := by
  rw [pieces]
  split_ifs with marked
  · rw [free marked]
  · rfl

/-- A template is read piece by piece. -/
theorem pieces_induction (chooses : Chooses mark choose) {motive : List α → Prop} (nil : motive [])
    (slot : ∀ name rest, choose (name ++ rest) = some name → mark ∉ name → motive rest →
      motive (mark :: (name ++ rest)))
    (plain : ∀ symbol rest, (symbol = mark → choose rest = none) → motive rest →
      motive (symbol :: rest)) (text : List α) : motive text := by
  induction length : text.length using Nat.strong_induction_on generalizing text with
  | _ length ih =>
    cases text with
    | nil => exact nil
    | cons symbol rest =>
        rw [List.length_cons] at length
        by_cases marked : symbol = mark
        · cases chosen : choose rest with
          | none => exact plain symbol rest (fun _ => chosen) (ih _ (by omega) rest rfl)
          | some name =>
              obtain ⟨⟨after, rfl⟩, alone⟩ := chooses rest name chosen
              rw [List.length_append] at length
              rw [marked]
              exact slot name after chosen alone (ih _ (by omega) after rfl)
        · exact plain symbol rest (fun same => absurd same marked) (ih _ (by omega) rest rfl)

/-- The pieces without values are the template. -/
theorem render_pieces (chooses : Chooses mark choose) (text : List α) :
    render mark (fun _ => none) (pieces mark choose 0 text) = text := by
  induction text using pieces_induction chooses with
  | nil => rfl
  | slot name rest chosen _ ih =>
      rw [pieces_slot chosen, render_cons, ih]
      rfl
  | plain symbol rest free ih =>
      rw [pieces_plain free, render_cons, ih]
      rfl

/-- The name in a slot was chosen. -/
theorem exists_of_slot (chooses : Chooses mark choose) {text name : List α}
    (listed : .slot name ∈ pieces mark choose 0 text) : ∃ rest, choose rest = some name := by
  induction text using pieces_induction chooses with
  | nil => cases listed
  | slot other rest chosen _ ih =>
      rw [pieces_slot chosen] at listed
      rcases List.mem_cons.mp listed with same | later
      · cases same
        exact ⟨_, chosen⟩
      · exact ih later
  | plain symbol rest free ih =>
      rw [pieces_plain free] at listed
      rcases List.mem_cons.mp listed with same | later
      · cases same
      · exact ih later

/-- Only the values of the names that are chosen matter. -/
theorem simultaneous_congr (chooses : Chooses mark choose) {value other : List α → List α}
    (same : ∀ rest name, choose rest = some name → value name = other name) (text : List α) :
    simultaneous mark choose value text = simultaneous mark choose other text := by
  refine render_congr fun name listed => congrArg some ?_
  obtain ⟨rest, chosen⟩ := exists_of_slot chooses listed
  exact same rest name chosen

/-- Every mark of a template starts a piece. -/
theorem pieces_append_mark (chooses : Chooses mark choose) (front rest : List α) :
    ∃ before, pieces mark choose 0 (front ++ mark :: rest) =
        before ++ pieces mark choose 0 (mark :: rest) ∧
      render mark (fun _ => none) before = front := by
  induction length : front.length using Nat.strong_induction_on generalizing front with
  | _ length ih =>
    cases front with
    | nil => exact ⟨[], rfl, rfl⟩
    | cons symbol front =>
        rw [List.length_cons] at length
        by_cases free : symbol = mark → choose (front ++ mark :: rest) = none
        · obtain ⟨before, split, same⟩ := ih front.length (by omega) front rfl
          refine ⟨.plain symbol :: before, ?_, ?_⟩
          · rw [List.cons_append, pieces_plain free, split, List.cons_append]
          · rw [render_cons, same]
            rfl
        · obtain ⟨rfl, some_⟩ := Classical.not_imp.mp free
          obtain ⟨name, chosen⟩ := Option.ne_none_iff_exists'.mp some_
          obtain ⟨fits, alone⟩ := chooses _ _ chosen
          -- the name ends in front of the mark
          have inside : name <+: front := by
            rcases List.prefix_or_prefix_of_prefix fits (List.prefix_append front _) with
              inside | ⟨more, rfl⟩
            · exact inside
            · cases more with
              | nil => exact (List.append_nil front).symm ▸ List.prefix_rfl
              | cons first more =>
                  obtain ⟨beyond, same⟩ := fits
                  rw [List.append_assoc, List.append_cancel_left_eq] at same
                  exact absurd ((List.cons.inj same).1 ▸ by simp) alone
          obtain ⟨later, rfl⟩ := inside
          rw [List.length_append] at length
          obtain ⟨before, split, same⟩ := ih later.length (by omega) later rfl
          refine ⟨.slot name :: before, ?_, ?_⟩
          · rw [List.append_assoc] at chosen
            rw [List.cons_append, List.append_assoc, pieces_slot chosen, split, List.cons_append]
          · rw [render_cons, same]
            rfl

/-! ### The sequential substitution -/

/-- Each step of the sequential substitution finds only slots of the template. -/
def Unmixed (mark : α) (names : List (List α)) (value : List α → List α)
    (pieces : List (Piece α)) : Prop :=
  ∀ done name later, names = done ++ name :: later →
    OnlyPieces mark (known done value) name pieces

/-- A step that finds only pieces replaces just these. -/
theorem replace_render {known next : List α → Option (List α)} {name new : List α}
    {pieces : List (Piece α)} (unknown : known name = none) (named : next name = some new)
    (others : ∀ other, other ≠ name → next other = known other)
    (only : OnlyPieces mark known name pieces) :
    replace (mark :: name) new 0 (render mark known pieces) = render mark next pieces := by
  induction pieces with
  | nil => rfl
  | cons piece rest ih =>
      have later := ih (only.tail unknown)
      rw [render_cons, render_cons]
      by_cases same : piece = .slot name
      · subst same
        rw [Piece.put, unknown, Piece.put, named, Option.getD_none, Option.getD_some,
          List.cons_append, replace_occurrence, later]
      · have unchanged : piece.put mark next = piece.put mark known := by
          cases piece with
          | plain symbol => rfl
          | slot other =>
              rw [Piece.put, Piece.put, others other fun equal => same (equal ▸ rfl)]
        rw [unchanged, replace_append, later]
        -- an occurrence that starts within the piece would be another piece
        rintro front back inside some_ ⟨more, occurs⟩
        have whole : render mark known (piece :: rest) = front ++ mark :: (name ++ more) := by
          rw [render_cons, inside, List.append_assoc, ← occurs]
          rfl
        obtain ⟨before, after, split, reached⟩ := only _ _ whole
        cases before with
        | nil => exact same (List.cons.inj split).1
        | cons first before =>
            obtain ⟨rfl, rfl⟩ := List.cons.inj split
            rw [render_cons, inside, List.append_assoc, List.self_eq_append_right] at reached
            exact some_ (List.append_eq_nil_iff.mp reached).1

/-- Only the values of the names matter. -/
theorem sequential_congr {other : List α → List α} (same : ∀ name ∈ names, value name = other name)
    (text : List α) : sequential mark names value text = sequential mark names other text := by
  induction names generalizing text with
  | nil => rfl
  | cons name names ih =>
      rw [List.forall_mem_cons] at same
      rw [sequential, List.foldl_cons, same.1]
      exact ih same.2 _

theorem known_nil (value : List α → List α) : known [] value = fun _ => none :=
  funext fun _ => if_neg List.not_mem_nil

theorem known_concat_self (done : List (List α)) (name : List α) (value : List α → List α) :
    known (done ++ [name]) value name = some (value name) := if_pos (by simp)

theorem known_concat_of_ne {done : List (List α)} {name other : List α} (differs : other ≠ name)
    (value : List α → List α) : known (done ++ [name]) value other = known done value other := by
  simp [known, differs]

/-- The text after some steps that found only pieces. -/
theorem sequential_done (distinct : names.Nodup) {pieces : List (Piece α)} {done later : List (List α)}
    (split : names = done ++ later)
    (only : ∀ before name after, done = before ++ name :: after →
      OnlyPieces mark (known before value) name pieces) :
    sequential mark done value (render mark (fun _ => none) pieces) =
      render mark (known done value) pieces := by
  induction done using List.reverseRecOn generalizing later with
  | nil => rw [sequential, List.foldl_nil, known_nil]
  | append_singleton done name ih =>
      rw [List.append_assoc] at split
      have before := ih split fun before other after inside =>
        only before other (after ++ [name]) (by rw [inside]; simp)
      have fresh : name ∉ done := by
        rw [split] at distinct
        exact fun member => (List.nodup_append.mp distinct).2.2 _ member _ (by simp) rfl
      have step : sequential mark (done ++ [name]) value (render mark (fun _ => none) pieces) =
          replace (mark :: name) (value name) 0
            (sequential mark done value (render mark (fun _ => none) pieces)) := List.foldl_concat _ _ _ _
      rw [step, before]
      exact replace_render (if_neg fresh) (known_concat_self done name value)
        (fun other differs => known_concat_of_ne differs value) (only done name [] rfl)

/-- The sequential substitution is the simultaneous one where it finds only pieces. -/
theorem sequential_eq_simultaneous (chooses : Chooses mark choose) (distinct : names.Nodup)
    {text : List α} (among : ∀ name, .slot name ∈ pieces mark choose 0 text → name ∈ names)
    (unmixed : Unmixed mark names value (pieces mark choose 0 text)) :
    sequential mark names value text = simultaneous mark choose value text := by
  have whole := sequential_done distinct (List.append_nil names).symm
    fun before name after split => unmixed before name after split
  rw [render_pieces chooses] at whole
  rw [whole]
  exact render_congr fun name listed => if_pos (among name listed)

end MessagePusher.Substitution
