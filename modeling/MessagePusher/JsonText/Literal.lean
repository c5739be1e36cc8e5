import Mathlib.Tactic.Common
import Mathlib.Data.List.Basic

/-!
# The content of JSON string literals

A literal is kept raw, as the characters between its quotes. `pieces?` splits it into
characters and surrogate escapes and refuses what is no content of a literal. `joinPieces`
makes text of the pieces: a high surrogate with a low one after it is one character, any other
surrogate the replacement character.
-/

namespace MessagePusher.JsonText

/-! ### Hexadecimal digits -/

/-- The value of a hexadecimal digit. -/
def hexValue (char : Char) : Option Nat :=
  if '0' ≤ char ∧ char ≤ '9' then some (char.toNat - '0'.toNat)
  else if 'a' ≤ char ∧ char ≤ 'f' then some (char.toNat - 'a'.toNat + 10)
  else if 'A' ≤ char ∧ char ≤ 'F' then some (char.toNat - 'A'.toNat + 10)
  else none

/-- The lower-case digit. -/
def hexDigit (value : Nat) : Char :=
  if value < 10 then Char.ofNat ('0'.toNat + value) else Char.ofNat ('a'.toNat + value - 10)

/-- The four digits of a code unit. -/
def hexFour (code : Nat) : List Char :=
  [hexDigit (code / 4096 % 16), hexDigit (code / 256 % 16), hexDigit (code / 16 % 16),
    hexDigit (code % 16)]

/-- The code of four digits. -/
def hexCode (first second third fourth : Char) : Option Nat := do
  let a ← hexValue first
  let b ← hexValue second
  let c ← hexValue third
  let d ← hexValue fourth
  return ((a * 16 + b) * 16 + c) * 16 + d

/-- A digit is read as it was written. -/
theorem hexValue_hexDigit : ∀ value < 16, hexValue (hexDigit value) = some value := by decide

/-- A code unit is read as it was written. -/
theorem hexCode_hexFour {code : Nat} (short : code < 65536) :
    hexCode (hexDigit (code / 4096 % 16)) (hexDigit (code / 256 % 16))
      (hexDigit (code / 16 % 16)) (hexDigit (code % 16)) = some code := by
  have digit : ∀ value, hexValue (hexDigit (value % 16)) = some (value % 16) := by
    intro value
    exact hexValue_hexDigit _ (Nat.mod_lt _ (by omega))
  simp only [hexCode, digit, Option.bind_eq_bind, Option.bind_some, Option.pure_def]
  congr 1
  omega

/-- What is read is made of digits. -/
theorem isSome_of_hexCode {first second third fourth : Char} {code : Nat}
    (read : hexCode first second third fourth = some code) :
    ∀ digit ∈ [first, second, third, fourth], (hexValue digit).isSome := by
  simp only [hexCode, Option.bind_eq_bind, Option.bind_eq_some_iff] at read
  obtain ⟨a, one, b, two, c, three, d, four, -⟩ := read
  simp [one, two, three, four]

/-! ### Pieces -/

/-- What an escape or a plain character of a literal stands for. -/
inductive Piece where
  | char (value : Char)
  | surrogate (code : Nat)
deriving DecidableEq

/-- The first code unit of a pair. -/
def isHighSurrogate (code : Nat) : Bool := 0xd800 ≤ code && code < 0xdc00

/-- The second code unit of a pair. -/
def isLowSurrogate (code : Nat) : Bool := 0xdc00 ≤ code && code < 0xe000

/-- The piece of a code unit: a character, unless it is half of a pair. -/
def Piece.ofCode (code : Nat) : Piece :=
  if isHighSurrogate code || isLowSurrogate code then .surrogate code else .char (Char.ofNat code)

/-- No character is a surrogate. -/
theorem Piece.ofCode_toNat {char : Char} : Piece.ofCode char.toNat = .char char := by
  have valid : char.toNat < 0xd800 ∨ (0xdfff < char.toNat ∧ char.toNat < 0x110000) := char.valid
  have noSurrogate : (isHighSurrogate char.toNat || isLowSurrogate char.toNat) = false := by
    simp only [isHighSurrogate, isLowSurrogate, Bool.or_eq_false_iff, Bool.and_eq_false_iff,
      decide_eq_false_iff_not]
    omega
  rw [Piece.ofCode, noSurrogate, if_neg (by simp), Char.ofNat_toNat]

/-- The character of an escape with one letter. -/
def shortEscape (letter : Char) : Option Char :=
  if letter = '"' ∨ letter = '\\' ∨ letter = '/' then some letter
  else if letter = 'b' then some (Char.ofNat 0x08)
  else if letter = 'f' then some (Char.ofNat 0x0c)
  else if letter = 'n' then some '\n'
  else if letter = 'r' then some '\r'
  else if letter = 't' then some '\t'
  else none

/-- A character that stands for itself. -/
def isPlain (char : Char) : Bool := 0x20 ≤ char.toNat && char ≠ '"' && char ≠ '\\'

/-- The pieces of a literal, `none` for what is no content of one. -/
def pieces? : List Char → Option (List Piece)
  | [] => some []
  | '\\' :: 'u' :: first :: second :: third :: fourth :: rest => do
      let code ← hexCode first second third fourth
      return Piece.ofCode code :: (← pieces? rest)
  | '\\' :: letter :: rest => do
      let value ← shortEscape letter
      return .char value :: (← pieces? rest)
  | char :: rest => if isPlain char then (pieces? rest).map (.char char :: ·) else none

theorem pieces?_plain {char : Char} (plain : isPlain char) (rest : List Char) :
    pieces? (char :: rest) = (pieces? rest).map (.char char :: ·) := by
  have noEscape : char ≠ '\\' := by
    rintro rfl
    exact absurd plain (by decide)
  rw [pieces?]
  · rw [if_pos plain]
  · intros
    exact noEscape ‹_›
  · intros
    exact noEscape ‹_›

theorem pieces?_short {letter value : Char} (escape : shortEscape letter = some value)
    (rest : List Char) :
    pieces? ('\\' :: letter :: rest) = (pieces? rest).map (.char value :: ·) := by
  have noUnicode : letter ≠ 'u' := by
    rintro rfl
    cases escape
  rw [pieces?]
  · rw [escape]
    cases pieces? rest <;> rfl
  · intros
    exact noUnicode ‹_›

theorem pieces?_unicode {first second third fourth : Char} {code : Nat}
    (read : hexCode first second third fourth = some code) (rest : List Char) :
    pieces? ('\\' :: 'u' :: first :: second :: third :: fourth :: rest) =
      (pieces? rest).map (Piece.ofCode code :: ·) := by
  rw [pieces?, read]
  cases pieces? rest <;> rfl

/-- The spellings of one piece. -/
inductive Spells : List Char → Piece → Prop where
  | plain {char} (plain : isPlain char) : Spells [char] (.char char)
  | short {letter value} (escape : shortEscape letter = some value) :
      Spells ['\\', letter] (.char value)
  | unicode {first second third fourth code} (read : hexCode first second third fourth = some code) :
      Spells ['\\', 'u', first, second, third, fourth] (Piece.ofCode code)

/-- What spells a piece is read as it, whatever follows. -/
theorem Spells.pieces? {unit : List Char} {piece : Piece} (spells : Spells unit piece)
    (rest : List Char) : pieces? (unit ++ rest) = (pieces? rest).map (piece :: ·) := by
  cases spells with
  | plain plain => exact pieces?_plain plain rest
  | short escape => exact pieces?_short escape rest
  | unicode read => exact pieces?_unicode read rest

/-- A literal and its pieces. -/
inductive Content : List Char → List Piece → Prop where
  | nil : Content [] []
  | cons {unit piece rest pieces} (spells : Spells unit piece) (content : Content rest pieces) :
      Content (unit ++ rest) (piece :: pieces)

/-- The reader reads exactly what the grammar spells. -/
theorem pieces?_eq_some_iff {raw : List Char} {pieces : List Piece} :
    pieces? raw = some pieces ↔ Content raw pieces := by
  constructor
  · intro read
    fun_induction pieces? raw generalizing pieces with
    | case1 =>
        cases read
        exact .nil
    | case2 first second third fourth rest ih =>
        cases code : hexCode first second third fourth with
        | none => simp [code] at read
        | some code' =>
            obtain ⟨others, found, rfl⟩ : ∃ others, pieces? rest = some others ∧
                Piece.ofCode code' :: others = pieces := by
                simpa [code, Option.bind_eq_some_iff] using read
            exact .cons (.unicode code) (ih found)
    | case3 letter rest _ ih =>
        cases escape : shortEscape letter with
        | none => simp [escape] at read
        | some value =>
            obtain ⟨others, found, rfl⟩ : ∃ others, pieces? rest = some others ∧
                .char value :: others = pieces := by
                simpa [escape, Option.bind_eq_some_iff] using read
            exact .cons (.short escape) (ih found)
    | case4 char rest _ _ plain ih =>
        obtain ⟨others, found, rfl⟩ := Option.map_eq_some_iff.mp read
        exact .cons (.plain plain) (ih found)
    | case5 => cases read
  · intro content
    induction content with
    | nil => rfl
    | cons spells _ ih => rw [spells.pieces?, ih, Option.map_some]

/-- Contents are put together piece by piece. -/
theorem pieces?_append {left : List Char} {pieces : List Piece} (read : pieces? left = some pieces)
    (right : List Char) : pieces? (left ++ right) = (pieces? right).map (pieces ++ ·) := by
  induction pieces?_eq_some_iff.mp read with
  | nil => simp
  | cons spells content ih =>
      rw [List.append_assoc, spells.pieces?, ih (pieces?_eq_some_iff.mpr content), Option.map_map]
      rfl

/-! ### The text of the pieces -/

/-- The character of a surrogate pair. -/
def pairChar (high low : Nat) : Char :=
  Char.ofNat (0x10000 + (high - 0xd800) * 0x400 + (low - 0xdc00))

/-- The character that stands for half a pair. -/
def replacementChar : Char := Char.ofNat 0xfffd

/-- The text of the pieces, with the pairs joined. -/
def joinPieces : List Piece → List Char
  | [] => []
  | .char value :: rest => value :: joinPieces rest
  | .surrogate high :: .surrogate low :: rest =>
      if isHighSurrogate high && isLowSurrogate low then pairChar high low :: joinPieces rest
      else replacementChar :: joinPieces (.surrogate low :: rest)
  | .surrogate _ :: rest => replacementChar :: joinPieces rest

/-- The text of a literal. -/
def unescape (raw : List Char) : List Char := joinPieces ((pieces? raw).getD [])

@[simp] theorem joinPieces_nil : joinPieces [] = [] := rfl

@[simp]
theorem joinPieces_char (value : Char) (rest : List Piece) :
    joinPieces (.char value :: rest) = value :: joinPieces rest := rfl

/-- Characters stand for themselves. -/
@[simp]
theorem joinPieces_map_char (text : List Char) (rest : List Piece) :
    joinPieces (text.map .char ++ rest) = text ++ joinPieces rest := by
  induction text with
  | nil => rfl
  | cons char text ih => simp [ih]

/-! ### Where putting together joins surrogates -/

/-- The first half of a pair is last. -/
def endsHigh (pieces : List Piece) : Bool :=
  match pieces.getLast? with
  | some (.surrogate code) => isHighSurrogate code
  | _ => false

/-- The second half of a pair is first. -/
def startsLow (pieces : List Piece) : Bool :=
  match pieces with
  | .surrogate code :: _ => isLowSurrogate code
  | _ => false

/-- No code unit is both halves. -/
theorem not_high_of_low {code : Nat} (low : isLowSurrogate code) : isHighSurrogate code = false := by
  simp only [isLowSurrogate, isHighSurrogate, Bool.and_eq_true, decide_eq_true_eq,
    Bool.and_eq_false_iff, decide_eq_false_iff_not] at *
  omega

theorem endsHigh_cons (piece : Piece) {rest : List Piece} (more : rest ≠ []) :
    endsHigh (piece :: rest) = endsHigh rest := by
  obtain ⟨next, others, rfl⟩ := List.exists_cons_of_ne_nil more
  simp [endsHigh, List.getLast?_cons_cons]

/-- A surrogate that is not the first of a pair. -/
theorem joinPieces_lone {code : Nat} {rest : List Piece}
    (lone : isHighSurrogate code = false ∨ startsLow rest = false) :
    joinPieces (.surrogate code :: rest) = replacementChar :: joinPieces rest := by
  cases rest with
  | nil => rfl
  | cons next rest =>
      cases next with
      | char value => rfl
      | surrogate low =>
          have apart : ¬ (isHighSurrogate code && isLowSurrogate low) = true := by
            rcases lone with first | second
            · simp [first]
            · simp only [startsLow] at second
              simp [second]
          rw [joinPieces, if_neg apart]

theorem joinPieces_pair {high low : Nat} (first : isHighSurrogate high) (second : isLowSurrogate low)
    (rest : List Piece) :
    joinPieces (.surrogate high :: .surrogate low :: rest) =
      pairChar high low :: joinPieces rest := by
  rw [joinPieces, first, second]
  rfl

/-- Two lists of pieces put together, where no surrogate pair comes to be. -/
theorem joinPieces_append {left right : List Piece}
    (apart : endsHigh left = false ∨ startsLow right = false) :
    joinPieces (left ++ right) = joinPieces left ++ joinPieces right := by
  fun_induction joinPieces left with
  | case1 => rfl
  | case2 value rest ih =>
      rw [List.cons_append, joinPieces_char, ih ?_, List.cons_append]
      by_cases last : rest = []
      · exact .inl (by rw [last]; rfl)
      · rwa [← endsHigh_cons _ last]
  | case3 high low rest pair ih =>
      rw [Bool.and_eq_true] at pair
      rw [List.cons_append, List.cons_append, joinPieces_pair pair.1 pair.2, ih ?_, List.cons_append]
      by_cases last : rest = []
      · exact .inl (by rw [last]; rfl)
      · rwa [endsHigh_cons _ (List.cons_ne_nil _ _), endsHigh_cons _ last] at apart
  | case4 high low rest lone ih =>
      have notPair : isHighSurrogate high = false ∨
          startsLow (.surrogate low :: rest ++ right) = false := by
        rw [Bool.and_eq_true, not_and_or, Bool.not_eq_true, Bool.not_eq_true] at lone
        exact lone
      rw [endsHigh_cons _ (List.cons_ne_nil _ _)] at apart
      rw [List.cons_append, joinPieces_lone notPair, ih apart, List.cons_append]
  | case5 code rest single ih =>
      cases rest with
      | nil =>
          have notPair : isHighSurrogate code = false ∨ startsLow right = false := apart
          rw [List.cons_append, List.nil_append, joinPieces_lone notPair]
          rfl
      | cons next rest =>
          rw [endsHigh_cons _ (List.cons_ne_nil _ _)] at apart
          cases next with
          | surrogate low => exact absurd rfl (single low rest)
          | char value =>
              rw [List.cons_append, joinPieces_lone (.inr rfl), ih apart, List.cons_append]

/-- Where a surrogate pair comes to be, the text is shorter. -/
theorem joinPieces_append_joined {left right : List Piece} (high : endsHigh left)
    (low : startsLow right) :
    (joinPieces (left ++ right)).length + 1 =
      (joinPieces left).length + (joinPieces right).length := by
  obtain ⟨before, last, rfl⟩ : ∃ before last, left = before ++ [last] := by
    refine ⟨left.dropLast, left.getLast ?_, (List.dropLast_append_getLast _).symm⟩
    rintro rfl
    cases high
  cases right with
  | nil => cases low
  | cons first after =>
      cases last with
      | char value => simp [endsHigh] at high
      | surrogate code =>
          cases first with
          | char value => cases low
          | surrogate code' =>
              have isHigh : isHighSurrogate code := by simpa [endsHigh] using high
              have notLow : ∀ rest, startsLow (.surrogate code :: rest) = false := by
                intro rest
                by_contra both
                rw [Bool.not_eq_false] at both
                rw [not_high_of_low both] at isHigh
                cases isHigh
              have whole : before ++ [.surrogate code] ++ .surrogate code' :: after =
                  before ++ .surrogate code :: .surrogate code' :: after := by simp
              rw [whole, joinPieces_append (.inr (notLow _)), joinPieces_append (.inr (notLow _)),
                joinPieces_pair isHigh low, joinPieces_lone (.inl (not_high_of_low low)),
                joinPieces_lone (.inr rfl)]
              simp only [joinPieces_nil, List.length_append, List.length_cons, List.length_nil]
              omega

/-- Between two parts, with only empty parts in between, a surrogate pair comes to be. -/
def Joins (parts : List (List Piece)) : Prop :=
  ∃ before left gaps right after, parts = before ++ left :: gaps ++ right :: after ∧
    (∀ gap ∈ gaps, gap = []) ∧ endsHigh left ∧ startsLow right

/-- The first piece of parts in a row is that of the first part that is not empty. -/
theorem startsLow_flatten {parts : List (List Piece)} (low : startsLow parts.flatten) :
    ∃ gaps right after, parts = gaps ++ right :: after ∧ (∀ gap ∈ gaps, gap = []) ∧
      startsLow right := by
  induction parts with
  | nil => cases low
  | cons part parts ih =>
      cases part with
      | nil =>
          obtain ⟨gaps, right, after, rfl, empty, starts⟩ := ih low
          exact ⟨[] :: gaps, right, after, rfl, by simpa using empty, starts⟩
      | cons piece part =>
          refine ⟨[], piece :: part, parts, rfl, by simp, ?_⟩
          cases piece with
          | char value => cases low
          | surrogate code => exact low

/-- Empty parts in front change nothing. -/
theorem flatten_startsLow {gaps after : List (List Piece)} {right : List Piece}
    (empty : ∀ gap ∈ gaps, gap = []) (low : startsLow right) :
    startsLow (gaps ++ right :: after).flatten := by
  have nothing : gaps.flatten = [] := by simpa using empty
  rw [List.flatten_append, nothing, List.nil_append, List.flatten_cons]
  cases right with
  | nil => cases low
  | cons piece right =>
      cases piece with
      | char value => cases low
      | surrogate code => exact low

/-- The text of a list of parts is no longer than the texts of the parts. -/
theorem joinPieces_flatten_length (parts : List (List Piece)) :
    (joinPieces parts.flatten).length ≤ (parts.flatMap joinPieces).length := by
  induction parts with
  | nil => simp
  | cons part parts ih =>
      rw [List.flatten_cons, List.flatMap_cons, List.length_append]
      by_cases joined : endsHigh part ∧ startsLow parts.flatten
      · have shorter := joinPieces_append_joined joined.1 joined.2
        omega
      · rw [not_and_or, Bool.not_eq_true, Bool.not_eq_true] at joined
        rw [joinPieces_append joined, List.length_append]
        omega

/-- The text of a list of parts is that of the parts, one after the other, just when no
surrogate pair comes to be between parts. -/
theorem joinPieces_flatten_iff (parts : List (List Piece)) :
    joinPieces parts.flatten = parts.flatMap joinPieces ↔ ¬ Joins parts := by
  induction parts with
  | nil =>
      refine iff_of_true rfl ?_
      rintro ⟨before, left, gaps, right, after, split, -⟩
      simp at split
  | cons part parts ih =>
      have bound := joinPieces_flatten_length parts
      by_cases joined : endsHigh part ∧ startsLow parts.flatten
      · refine iff_of_false ?_ ?_
        · intro equal
          have shorter := joinPieces_append_joined joined.1 joined.2
          have lengths := congrArg List.length equal
          rw [List.flatten_cons, List.flatMap_cons, List.length_append] at lengths
          omega
        · obtain ⟨gaps, right, after, rfl, empty, low⟩ := startsLow_flatten joined.2
          exact not_not.mpr ⟨[], part, gaps, right, after, by simp, empty, joined.1, low⟩
      · have apart := joined
        rw [not_and_or, Bool.not_eq_true, Bool.not_eq_true] at apart
        rw [List.flatten_cons, List.flatMap_cons, joinPieces_append apart,
          List.append_cancel_left_eq, ih, not_iff_not]
        constructor
        · rintro ⟨before, left, gaps, right, after, rfl, rest⟩
          exact ⟨part :: before, left, gaps, right, after, by simp, rest⟩
        · rintro ⟨before, left, gaps, right, after, split, empty, high, low⟩
          cases before with
          | nil =>
              obtain ⟨rfl, rfl⟩ := List.cons.inj split
              exact absurd ⟨high, flatten_startsLow empty low⟩ joined
          | cons first before =>
              obtain ⟨rfl, rfl⟩ := List.cons.inj split
              exact ⟨before, left, gaps, right, after, rfl, empty, high, low⟩

end MessagePusher.JsonText
