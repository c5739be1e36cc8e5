import MessagePusher.JsonText.Leading

/-!
# Indented text

The text that `JSON.stringify` writes with an indentation of two blanks, and the spelling of its
string literals. A text that is written so is read back as the tree it was written of.
-/

namespace MessagePusher.JsonText

open Common

/-! ### Quoting -/

/-- The code units of a literal, with a character for each surrogate pair. -/
def joinPairs : List Piece → List Piece
  | [] => []
  | .char value :: rest => .char value :: joinPairs rest
  | .surrogate high :: .surrogate low :: rest =>
      if isHighSurrogate high && isLowSurrogate low then .char (pairChar high low) :: joinPairs rest
      else .surrogate high :: joinPairs (.surrogate low :: rest)
  | .surrogate code :: rest => .surrogate code :: joinPairs rest

/-- `QuoteJSONString`, which leaves the characters alone that `json.Marshal` escapes for HTML. -/
def quoteChar (char : Char) : List Char :=
  if char = '<' ∨ char = '>' ∨ char = '&' ∨ char.toNat = 0x2028 ∨ char.toNat = 0x2029 then [char]
  else escapeChar char

/-- A piece as `JSON.stringify` spells it. -/
def quotePiece : Piece → List Char
  | .char value => quoteChar value
  | .surrogate code => '\\' :: 'u' :: hexFour code

/-- The literal as `JSON.stringify` spells it. -/
def quoteLiteral (raw : List Char) : List Char :=
  (joinPairs ((pieces? raw).getD [])).flatMap quotePiece

/-- What an escape can stand for. -/
def Piece.Valid : Piece → Prop
  | char _ => True
  | surrogate code => isHighSurrogate code || isLowSurrogate code

/-- The piece of a code unit is valid. -/
theorem Piece.valid_ofCode (code : Nat) : (ofCode code).Valid := by
  unfold ofCode
  split_ifs with surrogate
  · exact surrogate
  · trivial

/-- The pieces that are read are valid. -/
theorem valid_of_pieces? {raw : List Char} {pieces : List Piece} (read : pieces? raw = some pieces) :
    ∀ piece ∈ pieces, piece.Valid := by
  induction pieces?_eq_some_iff.mp read with
  | nil => exact fun _ => nofun
  | cons spells content ih =>
      rw [List.forall_mem_cons]
      refine ⟨?_, ih (pieces?_eq_some_iff.mpr content)⟩
      cases spells with
      | plain | short => trivial
      | unicode => exact Piece.valid_ofCode _

/-- What is spelled is read as the piece. -/
theorem spells_quotePiece {piece : Piece} (valid : piece.Valid) : Spells (quotePiece piece) piece := by
  cases piece with
  | char value =>
      rw [quotePiece, quoteChar]
      split_ifs with special
      · have same {char : Char} {code : Nat} (is : char.toNat = code) : char = Char.ofNat code := by
          rw [← is, Char.ofNat_toNat]
        refine .plain ?_
        rcases special with rfl | rfl | rfl | is | is
        · rfl
        · rfl
        · rfl
        · rw [same is]
          rfl
        · rw [same is]
          rfl
      · exact spells_escapeChar value
  | surrogate code =>
      have surrogate : isHighSurrogate code || isLowSurrogate code := valid
      have short : code < 65536 := by
        simp only [isHighSurrogate, isLowSurrogate, Bool.or_eq_true, Bool.and_eq_true,
          decide_eq_true_eq] at surrogate
        omega
      have read : Piece.ofCode code = .surrogate code := if_pos surrogate
      have spells : Spells (quotePiece (.surrogate code)) (Piece.ofCode code) :=
        .unicode (hexCode_hexFour short)
      rwa [read] at spells

/-- What is quoted is read back. -/
theorem pieces?_quoted {pieces : List Piece} (valid : ∀ piece ∈ pieces, piece.Valid) :
    pieces? (pieces.flatMap quotePiece) = some pieces := by
  induction pieces with
  | nil => rfl
  | cons piece pieces ih =>
      rw [List.forall_mem_cons] at valid
      rw [List.flatMap_cons, (spells_quotePiece valid.1).pieces?, ih valid.2, Option.map_some]

/-- A pair that is joined is a character. -/
theorem valid_joinPairs {pieces : List Piece} (valid : ∀ piece ∈ pieces, piece.Valid) :
    ∀ piece ∈ joinPairs pieces, piece.Valid := by
  fun_induction joinPairs pieces with
  | case1 => exact valid
  | case2 value rest ih =>
      rw [List.forall_mem_cons] at valid ⊢
      exact ⟨valid.1, ih valid.2⟩
  | case3 high low rest pair ih =>
      simp only [List.forall_mem_cons] at valid ⊢
      exact ⟨trivial, ih valid.2.2⟩
  | case4 high low rest lone ih =>
      rw [List.forall_mem_cons] at valid ⊢
      exact ⟨valid.1, ih valid.2⟩
  | case5 code rest single ih =>
      rw [List.forall_mem_cons] at valid ⊢
      exact ⟨valid.1, ih valid.2⟩

/-- A surrogate that is not the first of a pair stays. -/
theorem joinPairs_lone {code : Nat} {rest : List Piece}
    (lone : isHighSurrogate code = false ∨ startsLow rest = false) :
    joinPairs (.surrogate code :: rest) = .surrogate code :: joinPairs rest := by
  cases rest with
  | nil => rfl
  | cons next rest =>
      cases next with
      | char value => rfl
      | surrogate low =>
          have apart : ¬ (isHighSurrogate code && isLowSurrogate low) = true := by
            rcases lone with first | second
            · simp [first]
            · simp only [startsLow] at second
              simp [second]
          rw [joinPairs, if_neg apart]

theorem startsLow_joinPairs {pieces : List Piece} (low : startsLow (joinPairs pieces)) :
    startsLow pieces := by
  fun_cases joinPairs pieces with
  | case1 => cases low
  | case2 => cases low
  | case3 high other rest pair =>
      rw [joinPairs, if_pos pair] at low
      cases low
  | case4 high other rest lone =>
      rw [joinPairs, if_neg lone] at low
      exact low
  | case5 code rest single =>
      rw [joinPairs] at low
      · exact low
      · exact single

/-- Pairs are joined at once. -/
theorem joinPairs_joinPairs (pieces : List Piece) : joinPairs (joinPairs pieces) = joinPairs pieces := by
  fun_induction joinPairs pieces with
  | case1 => rfl
  | case2 value rest ih => rw [joinPairs, ih]
  | case3 high low rest pair ih => rw [joinPairs, ih]
  | case4 high low rest lone ih =>
      have apart : isHighSurrogate high = false ∨
          startsLow (joinPairs (.surrogate low :: rest)) = false := by
        rw [Bool.and_eq_true, not_and_or, Bool.not_eq_true, Bool.not_eq_true] at lone
        refine lone.imp_right fun notLow => ?_
        exact Bool.eq_false_iff.mpr fun starts => by
          have low : startsLow (.surrogate low :: rest) = true := startsLow_joinPairs starts
          exact absurd (low.symm.trans notLow) (by decide)
      rw [joinPairs_lone apart, ih]
  | case5 code rest single ih =>
      have apart : startsLow (joinPairs rest) = false := by
        refine Bool.eq_false_iff.mpr fun starts => ?_
        have low := startsLow_joinPairs starts
        cases rest with
        | nil => cases low
        | cons next rest =>
            cases next with
            | char value => cases low
            | surrogate other => exact single other rest rfl
      rw [joinPairs_lone (.inr apart), ih]

/-- A quoted literal is read as the code units it was quoted of. -/
theorem pieces?_quoteLiteral (raw : List Char) :
    pieces? (quoteLiteral raw) = some (joinPairs ((pieces? raw).getD [])) := by
  refine pieces?_quoted (valid_joinPairs ?_)
  cases read : pieces? raw with
  | none => exact fun _ => nofun
  | some pieces => exact valid_of_pieces? read

/-- A literal that was spelled so is spelled so again. -/
@[simp]
theorem quoteLiteral_quoteLiteral (raw : List Char) :
    quoteLiteral (quoteLiteral raw) = quoteLiteral raw := by
  conv_lhs => rw [quoteLiteral, pieces?_quoteLiteral, Option.getD_some, joinPairs_joinPairs]
  rfl

/-- The tree with its literals spelled as `JSON.stringify` spells them. -/
def quoteTree (tree : Json) : Json := mapStrings (overChars quoteLiteral) tree

/-- Literals that were spelled so are valid. -/
theorem literalsValid_of_quoted {tree : Json}
    (quoted : ∀ raw ∈ strings tree, ∃ source : String, raw = overChars quoteLiteral source) :
    LiteralsValid tree := by
  intro raw inside
  obtain ⟨source, rfl⟩ := quoted raw inside
  rw [overChars_toList, pieces?_quoteLiteral]
  rfl

/-- A tree whose literals were spelled so stays. -/
theorem quoteTree_of_quoted {tree : Json}
    (quoted : ∀ raw ∈ strings tree, ∃ source : String, raw = overChars quoteLiteral source) :
    quoteTree tree = tree := by
  refine mapStrings_id fun raw inside => ?_
  obtain ⟨source, rfl⟩ := quoted raw inside
  rw [overChars, overChars_toList, quoteLiteral_quoteLiteral]
  rfl

/-! ### Layout -/

/-- A new line, with so many blanks. -/
def lineBreak (indent : Nat) : List Char := '\n' :: List.replicate indent ' '

mutual

/-- `JSON.stringify` with two blanks, of a tree of raw literals. -/
def prettyText (indent : Nat) : Json → List Char
  | .null => ['n', 'u', 'l', 'l']
  | .bool value => if value then ['t', 'r', 'u', 'e'] else ['f', 'a', 'l', 's', 'e']
  | .number literal => literal.toList
  | .string raw => '"' :: (raw.toList ++ ['"'])
  | .array items =>
      if items.isEmpty then ['[', ']']
      else '[' :: (prettyItems (indent + 2) items ++ (lineBreak indent ++ [']']))
  | .object members =>
      if members.isEmpty then ['{', '}']
      else '{' :: (prettyMembers (indent + 2) members ++ (lineBreak indent ++ ['}']))

/-- Each item on a line of its own. -/
def prettyItems (indent : Nat) : List Json → List Char
  | [] => []
  | [item] => lineBreak indent ++ prettyText indent item
  | item :: next :: items =>
      lineBreak indent ++ (prettyText indent item ++ ',' :: prettyItems indent (next :: items))

/-- Each member on a line of its own. -/
def prettyMembers (indent : Nat) : List (String × Json) → List Char
  | [] => []
  | [(key, value)] =>
      lineBreak indent ++ '"' :: (key.toList ++ '"' :: ':' :: ' ' :: prettyText indent value)
  | (key, value) :: next :: members =>
      lineBreak indent ++ '"' :: (key.toList ++ '"' :: ':' :: ' ' ::
        (prettyText indent value ++ ',' :: prettyMembers indent (next :: members)))

end

/-- Whitespace between tokens is left out. -/
theorem lexFrom_blank {char : Char} (blank : isWhitespace char) (rest : List Char) :
    lexFrom .idle (char :: rest) = lexFrom .idle rest := by
  have stays : Mode.idle.step char = ([], some .idle) := if_pos blank
  rw [lexFrom_cons stays, List.nil_append]

/-- So is a line break with its indentation. -/
@[simp]
theorem lexFrom_lineBreak (indent : Nat) (rest : List Char) :
    lexFrom .idle (lineBreak indent ++ rest) = lexFrom .idle rest := by
  rw [lineBreak, List.cons_append, lexFrom_blank rfl]
  induction indent with
  | zero => rfl
  | succ indent ih => rw [List.replicate_succ, List.cons_append, lexFrom_blank rfl, ih]

/-- A number stops before a character that goes on with none. -/
theorem stops_cons {char : Char} (ends : ∀ phase : NumberPhase, phase.next char = none)
    (rest : List Char) : Stops (char :: rest) := by
  rintro first ⟨⟩
  exact ends

theorem stops_comma (rest : List Char) : Stops (',' :: rest) :=
  stops_cons (NumberPhase.next_of_follows (.inl rfl)) rest

theorem stops_lineBreak (indent : Nat) (rest : List Char) : Stops (lineBreak indent ++ rest) :=
  stops_cons (fun phase => by cases phase <;> rfl) _

/-- The indented text of a tree is read back as its tokens. -/
def ReadsPretty (tree : Json) : Prop := ∀ indent rest, Stops rest →
  lexFrom .idle (prettyText indent tree ++ rest) = tokens tree ++ lexFrom .idle rest

/-- Items on lines of their own are read as the same tokens. -/
theorem lexFrom_prettyItems {items : List Json} (each : ∀ item ∈ items, ReadsPretty item)
    (indent : Nat) {rest : List Char} (stops : Stops rest) :
    lexFrom .idle (prettyItems indent items ++ rest) = itemTokens items ++ lexFrom .idle rest := by
  have comma (more : List Char) : lexFrom .idle (',' :: more) = .comma :: lexFrom .idle more := rfl
  induction items with
  | nil => rfl
  | cons item items ih =>
      rw [List.forall_mem_cons] at each
      cases items with
      | nil =>
          rw [prettyItems, itemTokens, List.append_assoc, lexFrom_lineBreak, each.1 _ _ stops]
      | cons next items =>
          rw [prettyItems, itemTokens, List.append_assoc, lexFrom_lineBreak, List.append_assoc,
            List.cons_append, each.1 _ _ (stops_comma _), comma, ih each.2, List.append_assoc,
            List.cons_append]

/-- Members on lines of their own are read as the same tokens. -/
theorem lexFrom_prettyMembers {members : List (String × Json)}
    (each : ∀ member ∈ members, Enclosed member.1.toList ∧ ReadsPretty member.2) (indent : Nat)
    {rest : List Char} (stops : Stops rest) :
    lexFrom .idle (prettyMembers indent members ++ rest) =
      memberTokens members ++ lexFrom .idle rest := by
  have comma (more : List Char) : lexFrom .idle (',' :: more) = .comma :: lexFrom .idle more := rfl
  have colon (more : List Char) :
      lexFrom .idle (':' :: ' ' :: more) = .colon :: lexFrom .idle more := rfl
  induction members with
  | nil => rfl
  | cons member members ih =>
      obtain ⟨key, value⟩ := member
      rw [List.forall_mem_cons] at each
      obtain ⟨⟨enclosed, readsPretty⟩, others⟩ := each
      cases members with
      | nil =>
          rw [prettyMembers, memberTokens, List.append_assoc, lexFrom_lineBreak, List.cons_append,
            List.append_assoc, List.cons_append, List.cons_append, List.cons_append,
            lexFrom_literal enclosed, colon, readsPretty _ _ stops]
          rfl
      | cons next members =>
          rw [prettyMembers, memberTokens, List.append_assoc, lexFrom_lineBreak, List.cons_append,
            List.append_assoc, List.cons_append, List.cons_append, List.cons_append,
            List.append_assoc, List.cons_append, lexFrom_literal enclosed, colon,
            readsPretty _ _ (stops_comma _), comma, ih others]
          simp only [List.cons_append, List.append_assoc]

theorem readsPretty_array {items : List Json} (each : ∀ item ∈ items, ReadsPretty item) :
    ReadsPretty (.array items) := by
  intro indent rest _
  have begin_ (more : List Char) :
      lexFrom .idle ('[' :: more) = .beginArray :: lexFrom .idle more := rfl
  have end_ (more : List Char) :
      lexFrom .idle (']' :: more) = .endArray :: lexFrom .idle more := rfl
  rw [prettyText, tokens]
  split_ifs with empty
  · rw [List.isEmpty_iff.mp empty]
    rfl
  · rw [List.cons_append, List.append_assoc, List.append_assoc, List.singleton_append, begin_,
      lexFrom_prettyItems each _ (stops_lineBreak _ _), lexFrom_lineBreak, end_]
    simp

theorem readsPretty_object {members : List (String × Json)}
    (each : ∀ member ∈ members, Enclosed member.1.toList ∧ ReadsPretty member.2) :
    ReadsPretty (.object members) := by
  intro indent rest _
  have begin_ (more : List Char) :
      lexFrom .idle ('{' :: more) = .beginObject :: lexFrom .idle more := rfl
  have end_ (more : List Char) :
      lexFrom .idle ('}' :: more) = .endObject :: lexFrom .idle more := rfl
  rw [prettyText, tokens]
  split_ifs with empty
  · rw [List.isEmpty_iff.mp empty]
    rfl
  · rw [List.cons_append, List.append_assoc, List.append_assoc, List.singleton_append, begin_,
      lexFrom_prettyMembers each _ (stops_lineBreak _ _), lexFrom_lineBreak, end_]
    simp

/-- A tree with valid numbers and enclosed literals reads back from its lines. -/
theorem readsPretty_of_valid {tree : Json} (numbers : NumbersValid tree)
    (literals : ∀ raw ∈ strings tree, Enclosed raw.toList) : ReadsPretty tree := by
  induction tree using treeInduction with
  | null => exact fun _ _ _ => rfl
  | bool value =>
      intro indent rest _
      cases value
      · rfl
      · rfl
  | number literal =>
      intro indent rest stops
      exact lexFrom_isNumber (numbers literal .self) stops
  | string raw =>
      intro indent rest _
      rw [prettyText, List.cons_append, List.append_assoc, List.singleton_append,
        lexFrom_literal (literals raw (by simp [strings]))]
      rfl
  | array items ih =>
      refine readsPretty_array fun item listed => ?_
      refine ih item listed (fun literal within => numbers literal (.item listed within)) ?_
      exact fun raw inside => literals raw (mem_strings_item listed inside)
  | object members ih =>
      refine readsPretty_object fun member listed => ?_
      have inLiterals : ∀ raw ∈ member.1 :: strings member.2, Enclosed raw.toList :=
        fun raw inside => literals raw (mem_strings_member listed inside)
      obtain ⟨key, inner⟩ := List.forall_mem_cons.mp inLiterals
      exact ⟨key, ih member listed (fun literal within => numbers literal (.member listed within))
        inner⟩

/-- An indented text is read back as the tree it was written of. -/
theorem syntaxTree_prettyText {limit : Nat} {tree : Json} (numbers : NumbersValid tree)
    (literals : LiteralsValid tree) (shallow : depth tree ≤ limit) :
    syntaxTree limit (String.ofList (prettyText 0 tree)) = some tree := by
  have enclosed : ∀ raw ∈ strings tree, Enclosed raw.toList := by
    intro raw inside
    obtain ⟨pieces, read⟩ := Option.isSome_iff_exists.mp (literals raw inside)
    exact enclosed_of_pieces? read
  have back := readsPretty_of_valid numbers enclosed 0 [] (by rintro char ⟨⟩)
  have read : lex (prettyText 0 tree) = tokens tree := by
    simpa [lex, lexFrom, Mode.finish] using back
  rw [syntaxTree, checked_eq_some_iff, String.toList_ofList, read]
  exact ⟨parseTree_tokens shallow, literals⟩

end MessagePusher.JsonText
