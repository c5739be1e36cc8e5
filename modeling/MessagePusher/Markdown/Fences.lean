import Mathlib.Tactic.Common

/-!
# Fenced code blocks of CommonMark

The lines of a text and the fenced code blocks among them. A line outside a fence stands for
itself here: containers and the other kinds of blocks are left out.
-/

namespace MessagePusher.Markdown

/-! ### Lines -/

/-- A character in front of the first line. -/
def addFirst (char : Char) : List (List Char) → List (List Char)
  | [] => [[char]]
  | line :: more => (char :: line) :: more

/-- The lines of a text, given whether a carriage return stands before it: they end in a line
feed, in a carriage return, or in both in a row. -/
def linesFrom : Bool → List Char → List (List Char)
  | _, [] => [[]]
  | returned, char :: rest =>
      if char = '\n' then
        if returned then linesFrom false rest else [] :: linesFrom false rest
      else if char = '\r' then [] :: linesFrom true rest
      else addFirst char (linesFrom false rest)

def lines (text : List Char) : List (List Char) := linesFrom false text

/-- The text ends in a carriage return. -/
def endsInReturn (returned : Bool) (text : List Char) : Bool :=
  (text.getLast?.map fun char => decide (char = '\r')).getD returned

theorem addFirst_ne_nil (char : Char) (more : List (List Char)) : addFirst char more ≠ [] := by
  cases more with
  | nil => exact List.cons_ne_nil _ _
  | cons line more => exact List.cons_ne_nil _ _

theorem length_addFirst {char : Char} {more : List (List Char)} (some_ : more ≠ []) :
    (addFirst char more).length = more.length := by
  cases more with
  | nil => exact absurd rfl some_
  | cons line more => rfl

theorem addFirst_append {char : Char} {more behind : List (List Char)} (some_ : more ≠ []) :
    addFirst char (more ++ behind) = addFirst char more ++ behind := by
  cases more with
  | nil => exact absurd rfl some_
  | cons line more => rfl

theorem linesFrom_ne_nil (returned : Bool) (text : List Char) : linesFrom returned text ≠ [] := by
  induction text generalizing returned with
  | nil => exact List.cons_ne_nil _ _
  | cons char rest ih =>
      unfold linesFrom
      split_ifs
      · exact ih false
      · exact List.cons_ne_nil _ _
      · exact List.cons_ne_nil _ _
      · exact addFirst_ne_nil char _

theorem endsInReturn_cons (returned : Bool) (char : Char) (rest : List Char) :
    endsInReturn returned (char :: rest) = endsInReturn (decide (char = '\r')) rest := by
  cases rest with
  | nil => rfl
  | cons second rest =>
      unfold endsInReturn
      rw [List.getLast?_cons_cons]
      cases found : (second :: rest).getLast? with
      | none => cases List.getLast?_eq_none_iff.mp found
      | some last => rfl

/-- A line feed after a text that does not end in a carriage return starts a new line. -/
theorem linesFrom_newline {returned : Bool} {text : List Char} (rest : List Char)
    (apart : endsInReturn returned text = false) :
    linesFrom returned (text ++ '\n' :: rest) =
      linesFrom returned text ++ linesFrom false rest := by
  induction text generalizing returned with
  | nil =>
      cases returned with
      | false => rfl
      | true => cases apart
  | cons char text ih =>
      rw [endsInReturn_cons] at apart
      rw [List.cons_append, linesFrom, linesFrom]
      split_ifs with feed after return_
      · subst feed
        exact ih apart
      · subst feed
        have apart' : endsInReturn false text = false := apart
        rw [ih apart']
        rfl
      · subst return_
        have apart' : endsInReturn true text = false := apart
        rw [ih apart']
        rfl
      · rw [ih (by simpa [return_] using apart), addFirst_append (linesFrom_ne_nil _ _)]

/-- After a carriage return it only completes the end of the last line. -/
theorem linesFrom_newline_joined {returned : Bool} {text : List Char} (rest : List Char)
    (joined : endsInReturn returned text = true) :
    ∃ before, (returned = false → before ≠ []) ∧
      before.length + 1 = (linesFrom returned text).length ∧
      linesFrom returned (text ++ '\n' :: rest) = before ++ linesFrom false rest := by
  induction text generalizing returned with
  | nil =>
      cases returned with
      | false => cases joined
      | true =>
          refine ⟨[], ?_, rfl, rfl⟩
          intro off
          cases off
  | cons char text ih =>
      rw [endsInReturn_cons] at joined
      rw [List.cons_append, linesFrom, linesFrom]
      split_ifs with feed after return_
      · subst feed
        obtain ⟨before, -, count, read⟩ := ih joined
        exact ⟨before, fun off => by simp [off] at after, count, read⟩
      · subst feed
        have joined' : endsInReturn false text = true := joined
        obtain ⟨before, -, count, read⟩ := ih joined'
        refine ⟨[] :: before, fun _ => List.cons_ne_nil _ _, ?_, by rw [read]; rfl⟩
        rw [List.length_cons, List.length_cons, count]
      · subst return_
        have joined' : endsInReturn true text = true := joined
        obtain ⟨before, -, count, read⟩ := ih joined'
        refine ⟨[] :: before, fun _ => List.cons_ne_nil _ _, ?_, by rw [read]; rfl⟩
        rw [List.length_cons, List.length_cons, count]
      · have joined' : endsInReturn false text = true := by simpa [return_] using joined
        obtain ⟨before, some_, count, read⟩ := ih joined'
        refine ⟨addFirst char before, fun _ => addFirst_ne_nil _ _, ?_, ?_⟩
        · rw [length_addFirst (some_ rfl), length_addFirst (linesFrom_ne_nil _ _), count]
        · rw [read, addFirst_append (some_ rfl)]

/-- A text without line ends is one line. -/
theorem linesFrom_plain {text : List Char} (plain : ∀ char ∈ text, char ≠ '\n' ∧ char ≠ '\r')
    (returned : Bool) : linesFrom returned text = [text] := by
  induction text generalizing returned with
  | nil => rfl
  | cons char rest ih =>
      rw [List.forall_mem_cons] at plain
      rw [linesFrom, if_neg plain.1.1, if_neg plain.1.2, ih plain.2]
      rfl

/-! ### Fences -/

/-- An opening code fence. The indentation is taken away from the lines of the block too. -/
structure Fence where
  indent : Nat
  char : Char
  length : Nat
deriving DecidableEq

/-- The spaces in front of a line. -/
def indentation (line : List Char) : Nat := (line.takeWhile (· = ' ')).length

def isBlank (char : Char) : Bool := char = ' ' || char = '\t'

/-- The fence and the info string of a line that opens a block: at most three spaces, three or
more backticks or tildes and, with backticks, none in the info string. -/
def opening? (line : List Char) : Option (Fence × List Char) :=
  match line.dropWhile (· = ' ') with
  | [] => none
  | char :: rest =>
      let run := (char :: rest).takeWhile (· = char)
      let behind := (char :: rest).dropWhile (· = char)
      let info := ((behind.dropWhile isBlank).reverse.dropWhile isBlank).reverse
      if indentation line ≤ 3 ∧ (char = '`' ∨ char = '~') ∧ 3 ≤ run.length ∧
          (char = '`' → '`' ∉ info) then some (⟨indentation line, char, run.length⟩, info)
      else none

/-- A line closes a block: at most three spaces, at least as many marks as opened it, and then
spaces and tabs alone. -/
def Fence.closes (fence : Fence) (line : List Char) : Bool :=
  let body := line.dropWhile (· = ' ')
  indentation line ≤ 3 && fence.length ≤ (body.takeWhile (· = fence.char)).length &&
    (body.dropWhile (· = fence.char)).all isBlank

/-- A line of a block, with as much of its indentation as the fence has taken away. -/
def Fence.strip (fence : Fence) (line : List Char) : List Char :=
  line.drop (min fence.indent (indentation line))

/-- A fenced code block, or a line outside one. -/
inductive Block where
  | code (info : List Char) (content : List (List Char))
  | line (text : List Char)
deriving DecidableEq

/-- The block that is read: its fence, its info string and its lines so far. -/
structure OpenBlock where
  fence : Fence
  info : List Char
  content : List (List Char) := []

/-- The blocks of the remaining lines. A block that is not closed ends with the document. -/
def blocksFrom : Option OpenBlock → List (List Char) → List Block
  | none, [] => []
  | some block, [] => [.code block.info block.content]
  | none, line :: rest =>
      match opening? line with
      | some (fence, info) => blocksFrom (some { fence, info }) rest
      | none =>
          if line.all isBlank then blocksFrom none rest else .line line :: blocksFrom none rest
  | some block, line :: rest =>
      if block.fence.closes line then .code block.info block.content :: blocksFrom none rest
      else
        blocksFrom (some { block with content := block.content ++ [block.fence.strip line] }) rest

/-- The blocks of a document. -/
def blocks (text : List Char) : List Block := blocksFrom none (lines text)

/-- A block ends at the first line that closes it. -/
theorem blocksFrom_closed {fence : Fence} {info last : List Char} {body rest : List (List Char)}
    (open_ : ∀ line ∈ body, fence.closes line = false) (closed : fence.closes last = true)
    (before : List (List Char)) :
    blocksFrom (some ⟨fence, info, before⟩) (body ++ last :: rest) =
      .code info (before ++ body.map fence.strip) :: blocksFrom none rest := by
  induction body generalizing before with
  | nil => rw [List.nil_append, blocksFrom, if_pos closed, List.map_nil, List.append_nil]
  | cons line body ih =>
      rw [List.forall_mem_cons] at open_
      have still : ¬ fence.closes line = true := by
        rw [open_.1]
        exact Bool.false_ne_true
      rw [List.cons_append, blocksFrom, if_neg still, ih open_.2, List.map_cons, List.append_assoc]
      rfl

/-- A line among them that closes the block takes it away from the lines behind. -/
theorem blocksFrom_closed_early {fence : Fence} {info line : List Char}
    {body : List (List Char)} (rest : List (List Char)) (inside : line ∈ body)
    (closed : fence.closes line = true) (before : List (List Char)) :
    ∃ shown others, shown.length < before.length + body.length ∧
      blocksFrom (some ⟨fence, info, before⟩) (body ++ rest) = .code info shown :: others := by
  induction body generalizing before with
  | nil => cases inside
  | cons first body ih =>
      rw [List.cons_append, blocksFrom, List.length_cons]
      split_ifs with here
      · exact ⟨before, _, by omega, rfl⟩
      · have behind : line ∈ body := by
          rcases List.mem_cons.mp inside with rfl | behind
          · exact absurd closed here
          · exact behind
        obtain ⟨shown, others, shorter, read⟩ := ih behind (before ++ [fence.strip first])
        rw [List.length_append, List.length_singleton] at shorter
        exact ⟨shown, others, by omega, read⟩

/-! ### A text between two equal markers -/

/-- A fence of backticks at the start of its line. -/
def backticks (count : Nat) : Fence := ⟨0, '`', count⟩

def Fence.marker (fence : Fence) : List Char := List.replicate fence.length fence.char

/-- The text on the lines between two markers. -/
def fenced (fence : Fence) (content : List Char) : List Char :=
  fence.marker ++ '\n' :: (content ++ '\n' :: fence.marker)

theorem backticks_strip (count : Nat) (line : List Char) : (backticks count).strip line = line := by
  unfold Fence.strip backticks
  rw [Nat.zero_min, List.drop_zero]

theorem opening_marker {count : Nat} (enough : 3 ≤ count) :
    opening? (backticks count).marker = some (backticks count, []) := by
  obtain ⟨more, rfl⟩ := Nat.exists_eq_add_of_le' enough
  simp [opening?, Fence.marker, backticks, List.replicate_succ, indentation]

theorem closes_marker {count : Nat} (enough : 3 ≤ count) :
    (backticks count).closes (backticks count).marker = true := by
  obtain ⟨more, rfl⟩ := Nat.exists_eq_add_of_le' enough
  simp [Fence.closes, Fence.marker, backticks, List.replicate_succ, indentation]

theorem marker_plain (count : Nat) :
    ∀ char ∈ (backticks count).marker, char ≠ '\n' ∧ char ≠ '\r' := by
  intro char member
  have mark : char = '`' := List.eq_of_mem_replicate member
  rw [mark]
  decide

theorem marker_not_return (count : Nat) :
    endsInReturn false (backticks count).marker = false := by
  unfold endsInReturn
  cases found : (backticks count).marker.getLast? with
  | none => rfl
  | some last =>
      have mark := (marker_plain count last (List.mem_of_getLast? found)).2
      simpa using mark

theorem lines_fenced {count : Nat} (content : List Char) :
    lines (fenced (backticks count) content) =
      (backticks count).marker :: linesFrom false (content ++ '\n' :: (backticks count).marker) := by
  rw [fenced, lines, linesFrom_newline _ (marker_not_return count),
    linesFrom_plain (marker_plain count)]
  rfl

/-- The text between two markers is one code block of its lines exactly when no line of it
closes the block and the line feed behind it is not half of its own last line end. -/
theorem blocks_fenced_iff {count : Nat} (enough : 3 ≤ count) (content : List Char) :
    blocks (fenced (backticks count) content) = [.code [] (lines content)] ↔
      (∀ line ∈ lines content, (backticks count).closes line = false) ∧
        endsInReturn false content = false := by
  have closed := closes_marker enough
  have opened : blocks (fenced (backticks count) content) =
      blocksFrom (some ⟨backticks count, [], []⟩)
        (linesFrom false (content ++ '\n' :: (backticks count).marker)) := by
    rw [blocks, lines_fenced, blocksFrom, opening_marker enough]
  have last : linesFrom false (backticks count).marker = [(backticks count).marker] :=
    linesFrom_plain (marker_plain count) false
  have whole : (lines content).map (backticks count).strip = lines content := by
    rw [funext (backticks_strip count), List.map_id']
  -- A block with too few lines is not the content.
  have fewer : ∀ {all : List (List Char)} {shown : List (List Char)} {others : List Block},
      shown.length < (lines content).length →
        blocksFrom (some ⟨backticks count, [], []⟩) all = .code [] shown :: others →
          blocksFrom (some ⟨backticks count, [], []⟩) all ≠ [.code [] (lines content)] := by
    intro all shown others shorter read same
    rw [read] at same
    obtain ⟨rfl, -⟩ : shown = lines content ∧ others = [] := by simpa using same
    exact Nat.lt_irrefl _ shorter
  rw [opened]
  cases ending : endsInReturn false content with
  | false =>
      rw [linesFrom_newline _ ending, last]
      by_cases open_ : ∀ line ∈ lines content, (backticks count).closes line = false
      · refine iff_of_true ?_ ⟨open_, rfl⟩
        rw [← lines, blocksFrom_closed open_ closed, whole]
        rfl
      · refine iff_of_false ?_ fun both => open_ both.1
        push Not at open_
        obtain ⟨line, inside, early⟩ := open_
        obtain ⟨shown, others, shorter, read⟩ :=
          blocksFrom_closed_early [(backticks count).marker] inside (by simpa using early) []
        exact fewer (by simpa using shorter) read
  | true =>
      obtain ⟨before, -, shorter, read⟩ := linesFrom_newline_joined (backticks count).marker ending
      rw [read, last]
      refine iff_of_false ?_ fun both => by cases both.2
      obtain ⟨shown, others, less, first⟩ :=
        blocksFrom_closed_early [] (List.mem_append_right before (List.mem_singleton_self _))
          closed []
      rw [List.append_nil] at first
      refine fewer ?_ first
      rw [lines, ← shorter]
      simpa using less

end MessagePusher.Markdown
