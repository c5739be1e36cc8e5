import Mathlib.Data.List.Induction
import MessagePusher.JsonText.Literal

/-!
# JSON tokens

The tokens of a text, read character by character. A number is as long as its characters go
on, and ends the text when it breaks off in the middle. The content of a string literal is
kept as it is and not looked at. Whatever starts no token ends the list with `bad`.
-/

namespace MessagePusher.JsonText

/-- The tokens of JSON; a literal without its quotes, and a character that fits nowhere. -/
inductive Token where
  | beginObject
  | endObject
  | beginArray
  | endArray
  | colon
  | comma
  | null
  | bool (value : Bool)
  | number (literal : List Char)
  | string (raw : List Char)
  | bad
deriving DecidableEq

/-- The four characters that JSON counts as whitespace. -/
def isWhitespace (char : Char) : Bool :=
  char = ' ' || char = '\t' || char = '\n' || char = '\r'

/-! ### Numbers -/

/-- What of a number has been read. -/
inductive NumberPhase where
  | minus
  | zero
  | digits
  | point
  | fraction
  | exponent
  | sign
  | exponentDigits
deriving DecidableEq

namespace NumberPhase

/-- The phase after the first character of a number. -/
def start (char : Char) : Option NumberPhase :=
  if char = '-' then some .minus
  else if char = '0' then some .zero
  else if char.isDigit then some .digits
  else none

/-- The phase after one more character of the number. -/
def next (phase : NumberPhase) (char : Char) : Option NumberPhase :=
  match phase with
  | minus => if char = '0' then some zero else if char.isDigit then some digits else none
  | zero =>
      if char = '.' then some point else if char = 'e' ∨ char = 'E' then some exponent else none
  | digits =>
      if char.isDigit then some digits
      else if char = '.' then some point
      else if char = 'e' ∨ char = 'E' then some exponent
      else none
  | point => if char.isDigit then some fraction else none
  | fraction =>
      if char.isDigit then some fraction
      else if char = 'e' ∨ char = 'E' then some exponent
      else none
  | exponent =>
      if char.isDigit then some exponentDigits
      else if char = '+' ∨ char = '-' then some sign
      else none
  | sign | exponentDigits => if char.isDigit then some exponentDigits else none

/-- A number may end here. -/
def accepting : NumberPhase → Bool
  | zero | digits | fraction | exponentDigits => true
  | minus | point | exponent | sign => false

/-- The phase after the characters of a number. -/
def after : List Char → Option NumberPhase
  | [] => none
  | first :: rest => (start first).bind fun phase => rest.foldlM next phase

end NumberPhase

/-- A number as JSON writes it. -/
def isNumber (literal : List Char) : Bool :=
  (NumberPhase.after literal).any NumberPhase.accepting

/-! ### The lexer -/

/-- What the lexer is in the middle of. -/
inductive Mode where
  | idle
  | number (phase : NumberPhase) (read : List Char)
  | word (token : Token) (left : List Char)
  | string (read : List Char)
  | escape (read : List Char)

/-- The tokens of one character. -/
def punctuation : List (Char × Token) :=
  [('{', .beginObject), ('}', .endObject), ('[', .beginArray), (']', .endArray), (':', .colon),
    (',', .comma)]

/-- The words, with the characters after the first one. -/
def words : List (Char × Token × List Char) :=
  [('n', .null, ['u', 'l', 'l']), ('t', .bool true, ['r', 'u', 'e']),
    ('f', .bool false, ['a', 'l', 's', 'e'])]

/-- The token and the mode after a character that starts a token. -/
def start (char : Char) : List Token × Option Mode :=
  if isWhitespace char then ([], some .idle)
  else if char = '"' then ([], some (.string []))
  else match punctuation.lookup char with
    | some token => ([token], some .idle)
    | none =>
        match words.lookup char with
        | some (token, left) => ([], some (.word token left))
        | none => ([], (NumberPhase.start char).map fun phase => .number phase [char])

/-- The tokens that a character completes, and the next mode. -/
def Mode.step (mode : Mode) (char : Char) : List Token × Option Mode :=
  match mode with
  | idle => start char
  | number phase read =>
      match phase.next char with
      | some next => ([], some (number next (read ++ [char])))
      | none =>
          if phase.accepting then (.number read :: (start char).1, (start char).2) else ([], none)
  | word token left =>
      match left with
      | [] => ([], none)
      | [last] => if char = last then ([token], some idle) else ([], none)
      | first :: rest => if char = first then ([], some (word token rest)) else ([], none)
  | string read =>
      if char = '"' then ([.string read], some idle)
      else if char = '\\' then ([], some (escape read))
      else ([], some (string (read ++ [char])))
  | escape read => ([], some (string (read ++ ['\\', char])))

/-- The tokens that the end of the text completes. -/
def Mode.finish : Mode → List Token
  | idle => []
  | number phase read => if phase.accepting then [.number read] else [.bad]
  | _ => [.bad]

/-- The tokens of a text. -/
def lexFrom : Mode → List Char → List Token
  | mode, [] => mode.finish
  | mode, char :: rest =>
      match mode.step char with
      | (tokens, some next) => tokens ++ lexFrom next rest
      | (tokens, none) => tokens ++ [.bad]

/-- The tokens of a text. -/
def lex (text : List Char) : List Token := lexFrom .idle text

/-- A character gives its tokens and a new mode. -/
theorem lexFrom_cons {mode next : Mode} {char : Char} {tokens : List Token}
    (step : mode.step char = (tokens, some next)) (rest : List Char) :
    lexFrom mode (char :: rest) = tokens ++ lexFrom next rest := by
  rw [lexFrom, step]

/-- A character that fits nowhere ends the reading. -/
theorem lexFrom_stuck {mode : Mode} {char : Char} {tokens : List Token}
    (step : mode.step char = (tokens, none)) (rest : List Char) :
    lexFrom mode (char :: rest) = tokens ++ [.bad] := by
  rw [lexFrom, step]

/-! ### String literals -/

/-- A text that the lexer reads to its end inside a literal. -/
inductive Enclosed : List Char → Prop where
  | nil : Enclosed []
  | plain {char rest} (noQuote : char ≠ '"') (noEscape : char ≠ '\\') (enclosed : Enclosed rest) :
      Enclosed (char :: rest)
  | escape {char rest} (enclosed : Enclosed rest) : Enclosed ('\\' :: char :: rest)

/-- Enclosed contents are read up to their quote. -/
theorem Enclosed.lexFrom {raw : List Char} (enclosed : Enclosed raw) (read rest : List Char) :
    lexFrom (.string read) (raw ++ '"' :: rest) = .string (read ++ raw) :: lexFrom .idle rest := by
  induction enclosed generalizing read with
  | nil => simp [JsonText.lexFrom, Mode.step]
  | @plain char rest noQuote noEscape enclosed ih =>
      have reads : (Mode.string read).step char = ([], some (.string (read ++ [char]))) := by
        simp [Mode.step, noQuote, noEscape]
      rw [List.cons_append, JsonText.lexFrom_cons reads, ih]
      simp
  | @escape char rest enclosed ih =>
      have opens : (Mode.string read).step '\\' = ([], some (.escape read)) := rfl
      have closes : (Mode.escape read).step char = ([], some (.string (read ++ ['\\', char]))) := rfl
      rw [List.cons_append, List.cons_append, JsonText.lexFrom_cons opens,
        JsonText.lexFrom_cons closes, ih]
      simp

theorem Enclosed.append {left right : List Char} (first : Enclosed left) (second : Enclosed right) :
    Enclosed (left ++ right) := by
  induction first with
  | nil => exact second
  | plain noQuote noEscape _ ih => exact .plain noQuote noEscape ih
  | escape _ ih => exact .escape ih

theorem isPlain_of_hexValue {digit : Char} (digits : (hexValue digit).isSome) : isPlain digit := by
  have quote : digit ≠ '"' := by
    rintro rfl
    cases digits
  have slash : digit ≠ '\\' := by
    rintro rfl
    cases digits
  have visible : 0x20 ≤ digit.toNat := by
    have above : ∀ {bound : Char}, bound ≤ digit → bound.toNat ≤ digit.toNat :=
      fun reach => UInt32.le_iff_toNat_le.mp reach
    unfold hexValue at digits
    split_ifs at digits with decimal lower upper
    · exact Nat.le_trans (by decide) (above decimal.1)
    · exact Nat.le_trans (by decide) (above lower.1)
    · exact Nat.le_trans (by decide) (above upper.1)
    · cases digits
  simp [isPlain, quote, slash, visible]

/-- A unit of a literal keeps the lexer inside of it. -/
theorem Enclosed.spelled {unit rest : List Char} {piece : Piece} (enclosed : Enclosed rest)
    (spells : Spells unit piece) : Enclosed (unit ++ rest) := by
  have plain : ∀ {char rest}, isPlain char → Enclosed rest → Enclosed (char :: rest) := by
    intro char rest visible enclosed
    simp only [isPlain, Bool.and_eq_true, decide_eq_true_eq] at visible
    exact .plain visible.1.2 visible.2 enclosed
  cases spells with
  | plain visible => exact plain visible enclosed
  | short => exact .escape enclosed
  | unicode read =>
      have digits := isSome_of_hexCode read
      simp only [List.forall_mem_cons] at digits
      obtain ⟨first, second, third, fourth, -⟩ := digits
      exact .escape <| plain (isPlain_of_hexValue first) <| plain (isPlain_of_hexValue second) <|
        plain (isPlain_of_hexValue third) <| plain (isPlain_of_hexValue fourth) enclosed

/-- What is made of pieces holds no quote of its own. -/
theorem enclosed_of_pieces? {raw : List Char} {pieces : List Piece}
    (read : pieces? raw = some pieces) : Enclosed raw := by
  induction pieces?_eq_some_iff.mp read with
  | nil => exact .nil
  | cons spells content ih => exact (ih (pieces?_eq_some_iff.mpr content)).spelled spells

/-- Inside a literal the text either comes to a closing quote or is no JSON. -/
theorem enclosed_or_bad (text : List Char) :
    (∃ raw rest, text = raw ++ '"' :: rest ∧ Enclosed raw) ∨
      ∀ read, lexFrom (.string read) text = [.bad] := by
  induction text using List.twoStepInduction with
  | nil => exact .inr fun _ => rfl
  | singleton char =>
      by_cases quote : char = '"'
      · exact .inl ⟨[], [], by rw [quote]; rfl, .nil⟩
      · right
        intro read
        by_cases opens : char = '\\'
        · subst opens
          rfl
        · simp [lexFrom, Mode.step, quote, opens, Mode.finish]
  | cons_cons char next rest ih ih' =>
      by_cases quote : char = '"'
      · exact .inl ⟨[], next :: rest, by rw [quote]; rfl, .nil⟩
      · by_cases opens : char = '\\'
        · subst opens
          rcases ih with ⟨raw, tail, rfl, enclosed⟩ | stuck
          · exact .inl ⟨'\\' :: next :: raw, tail, rfl, .escape enclosed⟩
          · right
            intro read
            have first : (Mode.string read).step '\\' = ([], some (.escape read)) := rfl
            have second : (Mode.escape read).step next =
                ([], some (.string (read ++ ['\\', next]))) := rfl
            rw [lexFrom_cons first, lexFrom_cons second, stuck]
            rfl
        · rcases ih' next with ⟨raw, tail, split, enclosed⟩ | stuck
          · exact .inl ⟨char :: raw, tail, by rw [split]; rfl, .plain quote opens enclosed⟩
          · right
            intro read
            have reads : (Mode.string read).step char = ([], some (.string (read ++ [char]))) := by
              simp [Mode.step, quote, opens]
            rw [lexFrom_cons reads, stuck]
            rfl

/-! ### Rewriting the literals of a text -/

/-- A change of the contents of literals. -/
def Token.mapString (change : List Char → List Char) : Token → Token
  | .string raw => .string (change raw)
  | token => token

/-- The second text is the first one with the contents of its literals changed. -/
inductive Rewritten (change : List Char → List Char) : List Char → List Char → Prop where
  | nil : Rewritten change [] []
  | outside {char rest rest'} (noQuote : char ≠ '"') (rewritten : Rewritten change rest rest') :
      Rewritten change (char :: rest) (char :: rest')
  | literal {raw rest rest'} (before : Enclosed raw) (after : Enclosed (change raw))
      (rewritten : Rewritten change rest rest') :
      Rewritten change ('"' :: (raw ++ '"' :: rest)) ('"' :: (change raw ++ '"' :: rest'))

/-- Not in a literal. -/
def Mode.Outside : Mode → Prop
  | idle | number _ _ => True
  | word token left => (∀ raw, token ≠ .string raw) ∧ ∀ char ∈ left, char.isAlpha
  | string _ | escape _ => False

theorem lookup_mem {Value : Type} {entries : List (Char × Value)} {char : Char} {value : Value}
    (found : entries.lookup char = some value) : (char, value) ∈ entries := by
  obtain ⟨before, after, rfl, -⟩ := List.lookup_eq_some_iff.mp found
  simp

/-- What `start` answers to a character. -/
theorem start_spec {char : Char} {tokens : List Token} {next : Option Mode}
    (step : start char = (tokens, next)) :
    (tokens = [] ∨ ∃ token, tokens = [token] ∧ (char, token) ∈ punctuation) ∧
      ∀ mode, next = some mode → mode = .idle ∨ (char = '"' ∧ mode = .string []) ∨
        (∃ token left, mode = .word token left ∧ (char, token, left) ∈ words) ∨
        ∃ phase, mode = .number phase [char] ∧ NumberPhase.start char = some phase := by
  unfold start at step
  split_ifs at step with blank quote
  · obtain ⟨rfl, rfl⟩ := Prod.mk.inj step
    exact ⟨.inl rfl, fun mode same => .inl (Option.some.inj same).symm⟩
  · obtain ⟨rfl, rfl⟩ := Prod.mk.inj step
    exact ⟨.inl rfl, fun mode same => .inr (.inl ⟨quote, (Option.some.inj same).symm⟩)⟩
  · split at step
    · next token found =>
      obtain ⟨rfl, rfl⟩ := Prod.mk.inj step
      exact ⟨.inr ⟨token, rfl, lookup_mem found⟩, fun mode same => .inl (Option.some.inj same).symm⟩
    · split at step
      · next token left found =>
        obtain ⟨rfl, rfl⟩ := Prod.mk.inj step
        refine ⟨.inl rfl, fun mode same => .inr (.inr (.inl ⟨token, left, ?_, lookup_mem found⟩))⟩
        exact (Option.some.inj same).symm
      · obtain ⟨rfl, rfl⟩ := Prod.mk.inj step
        refine ⟨.inl rfl, fun mode same => .inr (.inr (.inr ?_))⟩
        obtain ⟨phase, starts, rfl⟩ := Option.map_eq_some_iff.mp same
        exact ⟨phase, rfl, starts⟩

/-- Punctuation is no literal and no number. -/
theorem punctuation_tokens : ∀ entry ∈ punctuation, ∀ change,
    Token.mapString change entry.2 = entry.2 ∧ ∀ literal, entry.2 ≠ .number literal := by
  simp [punctuation, Token.mapString]

/-- The words are neither literals nor numbers, and made of letters. -/
theorem words_spec : ∀ entry ∈ words, (∀ raw, entry.2.1 ≠ .string raw) ∧
    (∀ literal, entry.2.1 ≠ .number literal) ∧ ∀ char ∈ entry.2.2, char.isAlpha := by
  simp [words]

/-- A step outside of literals. -/
theorem start_outside {char : Char} {tokens : List Token} {next : Option Mode}
    (step : start char = (tokens, next)) :
    (∀ change, tokens.map (Token.mapString change) = tokens) ∧
      ∀ mode, next = some mode → if char = '"' then mode = .string [] else mode.Outside := by
  obtain ⟨emitted, goesOn⟩ := start_spec step
  constructor
  · intro change
    rcases emitted with rfl | ⟨token, rfl, listed⟩
    · rfl
    · simp [(punctuation_tokens _ listed change).1]
  · intro mode same
    split_ifs with quote
    · subst quote
      obtain ⟨-, rfl⟩ := Prod.mk.inj step
      exact (Option.some.inj same).symm
    · rcases goesOn mode same with rfl | ⟨is, -⟩ | ⟨token, left, rfl, listed⟩ | ⟨phase, rfl, -⟩
      · trivial
      · exact absurd is quote
      · exact ⟨(words_spec _ listed).1, (words_spec _ listed).2.2⟩
      · trivial

/-- A number takes the character, ends before it, or is none. -/
theorem Mode.step_number (phase : NumberPhase) (read : List Char) (char : Char) :
    (∃ next, phase.next char = some next ∧
      (number phase read).step char = ([], some (number next (read ++ [char])))) ∨
    (phase.accepting ∧
      (number phase read).step char =
        (.number read :: (JsonText.start char).1, (JsonText.start char).2)) ∨
    (number phase read).step char = ([], none) := by
  cases goesOn : phase.next char with
  | some next => exact .inl ⟨next, rfl, by simp [step, goesOn]⟩
  | none =>
      by_cases whole : phase.accepting
      · exact .inr (.inl ⟨whole, by simp [step, goesOn, whole]⟩)
      · exact .inr (.inr (by simp [step, goesOn, whole]))

/-- A word goes on with its next letter, ends with its last one, or is none. -/
theorem Mode.step_word (token : Token) (left : List Char) (char : Char) :
    (left = [char] ∧ (word token left).step char = ([token], some idle)) ∨
    (∃ rest, left = char :: rest ∧ (word token left).step char = ([], some (word token rest))) ∨
    (word token left).step char = ([], none) := by
  match left with
  | [] => exact .inr (.inr rfl)
  | [last] =>
      by_cases same : char = last
      · exact .inl ⟨by rw [same], by simp [step, same]⟩
      · exact .inr (.inr (by simp [step, same]))
  | first :: second :: rest =>
      by_cases same : char = first
      · exact .inr (.inl ⟨_, by rw [same], by simp [step, same]⟩)
      · exact .inr (.inr (by simp [step, same]))

/-- Outside of literals no step depends on the content of one, and a quote begins one. -/
theorem Mode.Outside.step {mode : Mode} (outside : mode.Outside) (char : Char) :
    (∀ change, (mode.step char).1.map (Token.mapString change) = (mode.step char).1) ∧
      ∀ next, (mode.step char).2 = some next →
        if char = '"' then next = .string [] else next.Outside := by
  obtain ⟨kept, starts⟩ := @start_outside char (JsonText.start char).1 (JsonText.start char).2 rfl
  cases mode with
  | idle => exact ⟨kept, starts⟩
  | number phase read =>
      rcases Mode.step_number phase read char with ⟨next, goesOn, step⟩ | ⟨-, step⟩ | step
      · have noQuote : char ≠ '"' := by
          rintro rfl
          cases phase <;> simp [NumberPhase.next] at goesOn
        rw [step]
        simp only [if_neg noQuote]
        refine ⟨fun _ => rfl, ?_⟩
        rintro _ ⟨⟩
        trivial
      · rw [step]
        exact ⟨fun change => congrArg (Token.number read :: ·) (kept change), starts⟩
      · rw [step]
        exact ⟨fun _ => rfl, fun _ stuck => by cases stuck⟩
  | word token left =>
      obtain ⟨noString, letters⟩ := outside
      have noQuote : char ∈ left → char ≠ '"' := by
        rintro member rfl
        exact absurd (letters _ member) (by decide)
      rcases Mode.step_word token left char with ⟨rfl, step⟩ | ⟨rest, rfl, step⟩ | step
      · rw [step]
        simp only [if_neg (noQuote (by simp))]
        have same : ∀ change, Token.mapString change token = token := by
          intro change
          cases token with
          | string raw => exact absurd rfl (noString raw)
          | _ => rfl
        refine ⟨fun change => by simp [same], ?_⟩
        rintro _ ⟨⟩
        trivial
      · rw [step]
        simp only [if_neg (noQuote (by simp))]
        refine ⟨fun _ => rfl, ?_⟩
        rintro _ ⟨⟩
        exact ⟨noString, fun letter member => letters letter (List.mem_cons_of_mem _ member)⟩
      · rw [step]
        exact ⟨fun _ => rfl, fun _ stuck => by cases stuck⟩
  | string | escape => exact outside.elim

/-- The tokens of a text with changed literals are those of the text, changed. -/
theorem Rewritten.lexFrom {change : List Char → List Char} {text text' : List Char}
    (rewritten : Rewritten change text text') {mode : Mode} (outside : mode.Outside) :
    JsonText.lexFrom mode text' = (JsonText.lexFrom mode text).map (Token.mapString change) := by
  induction rewritten generalizing mode with
  | nil =>
      cases mode with
      | number phase read =>
          simp only [JsonText.lexFrom, Mode.finish]
          split_ifs <;> rfl
      | _ => rfl
  | @outside char rest rest' noQuote _ ih =>
      obtain ⟨kept, goesOn⟩ := outside.step char
      rcases step : mode.step char with ⟨tokens, next⟩
      rw [step] at kept goesOn
      cases next with
      | none =>
          rw [lexFrom_stuck step, lexFrom_stuck step, List.map_append, kept]
          rfl
      | some next =>
          have still := goesOn next rfl
          rw [if_neg noQuote] at still
          rw [lexFrom_cons step, lexFrom_cons step, List.map_append, kept, ih still]
  | @literal raw rest rest' before after _ ih =>
      obtain ⟨kept, goesOn⟩ := outside.step '"'
      rcases step : mode.step '"' with ⟨tokens, next⟩
      rw [step] at kept goesOn
      cases next with
      | none =>
          rw [lexFrom_stuck step, lexFrom_stuck step, List.map_append, kept]
          rfl
      | some next =>
          obtain rfl : next = .string [] := goesOn next rfl
          have idle : Mode.Outside .idle := trivial
          rw [lexFrom_cons step, lexFrom_cons step, after.lexFrom, before.lexFrom, List.map_append,
            kept, List.map_cons, ih idle]
          rfl

/-! ### Numbers in a text -/

/-- What a number may be followed by without going on. -/
def Follows (rest : List Char) : Prop :=
  ∀ char ∈ rest.head?, char = ',' ∨ char = ']' ∨ char = '}'

/-- What follows a value goes on with no number. -/
theorem NumberPhase.next_of_follows {char : Char} (follows : char = ',' ∨ char = ']' ∨ char = '}')
    (phase : NumberPhase) : phase.next char = none := by
  rcases follows with rfl | rfl | rfl <;> cases phase <;> rfl

/-- A number does not go on into the text. -/
def Stops (rest : List Char) : Prop := ∀ char ∈ rest.head?, ∀ phase : NumberPhase, phase.next char = none

theorem Follows.stops {rest : List Char} (follows : Follows rest) : Stops rest :=
  fun char first phase => NumberPhase.next_of_follows (follows char first) phase

/-- A number that has begun is read to its end. -/
theorem lexFrom_number {phase phase' : NumberPhase} {read more rest : List Char}
    (goesOn : more.foldlM NumberPhase.next phase = some phase') (whole : phase'.accepting)
    (stops : Stops rest) :
    lexFrom (.number phase read) (more ++ rest) = .number (read ++ more) :: lexFrom .idle rest := by
  induction more generalizing phase read with
  | nil =>
      obtain rfl : phase = phase' := Option.some.inj goesOn
      rw [List.nil_append, List.append_nil]
      cases rest with
      | nil => simp [lexFrom, Mode.finish, whole]
      | cons char rest =>
          have ends := stops char rfl phase
          rcases step : start char with ⟨tokens, next⟩
          have reads : (Mode.number phase read).step char = (.number read :: tokens, next) := by
            simp [Mode.step, ends, whole, step]
          cases next with
          | none =>
              have idle : Mode.idle.step char = (tokens, none) := step
              rw [lexFrom_stuck reads, lexFrom_stuck idle, List.cons_append]
          | some next =>
              have idle : Mode.idle.step char = (tokens, some next) := step
              rw [lexFrom_cons reads, lexFrom_cons idle, List.cons_append]
  | cons char more ih =>
      rw [List.foldlM_cons] at goesOn
      obtain ⟨next, moves, goesOn⟩ := Option.bind_eq_some_iff.mp goesOn
      have reads : (Mode.number phase read).step char =
          ([], some (.number next (read ++ [char]))) := by
        simp [Mode.step, moves]
      rw [List.cons_append, lexFrom_cons reads, ih goesOn, List.append_assoc]
      rfl

/-- A character that starts a number starts no other token. -/
theorem start_of_number {char : Char} {phase : NumberPhase}
    (starts : NumberPhase.start char = some phase) :
    start char = ([], some (.number phase [char])) := by
  have apart : ∀ {other}, NumberPhase.start other = none → char ≠ other := by
    rintro _ none rfl
    rw [none] at starts
    cases starts
  have noPunctuation : punctuation.lookup char = none := by
    have none : ∀ entry ∈ punctuation, NumberPhase.start entry.1 = none := by decide
    by_contra listed
    obtain ⟨token, found⟩ := Option.ne_none_iff_exists'.mp listed
    exact apart (none _ (lookup_mem found)) rfl
  have noWord : words.lookup char = none := by
    have none : ∀ entry ∈ words, NumberPhase.start entry.1 = none := by decide
    by_contra listed
    obtain ⟨entry, found⟩ := Option.ne_none_iff_exists'.mp listed
    exact apart (none _ (lookup_mem found)) rfl
  have noBlank : isWhitespace char = false := by
    simp [isWhitespace, @apart ' ' rfl, @apart '\t' rfl, @apart '\n' rfl, @apart '\r' rfl]
  have noQuote : char ≠ '"' := apart rfl
  simp [start, noBlank, noQuote, noPunctuation, noWord, starts]

/-- A number is one token, where it stops. -/
theorem lexFrom_isNumber {literal rest : List Char} (number : isNumber literal)
    (stops : Stops rest) :
    lexFrom .idle (literal ++ rest) = .number literal :: lexFrom .idle rest := by
  cases literal with
  | nil => cases number
  | cons first more =>
      obtain ⟨last, run, whole⟩ := (Option.any_eq_true _ _).mp number
      obtain ⟨phase, starts, goesOn⟩ := Option.bind_eq_some_iff.mp run
      have reads : Mode.idle.step first = ([], some (.number phase [first])) :=
        start_of_number starts
      rw [List.cons_append, lexFrom_cons reads, lexFrom_number goesOn whole stops]
      rfl

/-- What the mode holds of a number is the beginning of one. -/
def Mode.Begun : Mode → Prop
  | number phase read => NumberPhase.after read = some phase
  | word token _ => ∀ literal, token ≠ .number literal
  | _ => True

theorem start_begun {char : Char} {tokens : List Token} {next : Option Mode}
    (step : start char = (tokens, next)) :
    (∀ literal, .number literal ∉ tokens) ∧ ∀ mode, next = some mode → mode.Begun := by
  obtain ⟨emitted, goesOn⟩ := start_spec step
  constructor
  · intro literal member
    rcases emitted with rfl | ⟨token, rfl, listed⟩
    · cases member
    · exact (punctuation_tokens _ listed id).2 literal (List.mem_singleton.mp member).symm
  · intro mode same
    rcases goesOn mode same with rfl | ⟨-, rfl⟩ | ⟨token, left, rfl, listed⟩ | ⟨phase, rfl, starts⟩
    · trivial
    · trivial
    · exact (words_spec _ listed).2.1
    · simp [Mode.Begun, NumberPhase.after, starts]

/-- The numbers that are read are numbers. -/
theorem Mode.Begun.step {mode : Mode} (begun : mode.Begun) {char : Char} {tokens : List Token}
    {next : Option Mode} (step : mode.step char = (tokens, next)) :
    (∀ literal, .number literal ∈ tokens → isNumber literal) ∧
      ∀ mode', next = some mode' → mode'.Begun := by
  cases mode with
  | idle =>
      obtain ⟨none, goesOn⟩ := start_begun step
      exact ⟨fun literal member => absurd member (none literal), goesOn⟩
  | number phase read =>
      have read_ : NumberPhase.after read = some phase := begun
      rcases Mode.step_number phase read char with ⟨phase', moves, found⟩ | ⟨whole, found⟩ | found
      · obtain ⟨rfl, rfl⟩ := Prod.mk.inj (found.symm.trans step)
        refine ⟨by simp, ?_⟩
        rintro _ ⟨⟩
        cases read with
        | nil => cases read_
        | cons first rest =>
            obtain ⟨started, starts, run⟩ := Option.bind_eq_some_iff.mp read_
            simp [Begun, NumberPhase.after, starts, run, moves, List.foldlM_append]
      · obtain ⟨rfl, rfl⟩ := Prod.mk.inj (found.symm.trans step)
        obtain ⟨none, goesOn⟩ := @start_begun char _ _ rfl
        refine ⟨fun literal member => ?_, goesOn⟩
        rcases List.mem_cons.mp member with same | later
        · obtain rfl := Token.number.inj same
          simp [isNumber, read_, whole]
        · exact absurd later (none literal)
      · obtain ⟨rfl, rfl⟩ := Prod.mk.inj (found.symm.trans step)
        exact ⟨by simp, by simp⟩
  | word token left =>
      have other : ∀ literal, token ≠ .number literal := begun
      rcases Mode.step_word token left char with ⟨-, found⟩ | ⟨rest, -, found⟩ | found
      · obtain ⟨rfl, rfl⟩ := Prod.mk.inj (found.symm.trans step)
        refine ⟨fun literal member => ?_, ?_⟩
        · exact absurd (List.mem_singleton.mp member).symm (other literal)
        · rintro _ ⟨⟩
          trivial
      · obtain ⟨rfl, rfl⟩ := Prod.mk.inj (found.symm.trans step)
        refine ⟨by simp, ?_⟩
        rintro _ ⟨⟩
        exact other
      · obtain ⟨rfl, rfl⟩ := Prod.mk.inj (found.symm.trans step)
        exact ⟨by simp, by simp⟩
  | string read =>
      simp only [Mode.step] at step
      split_ifs at step
      all_goals
        obtain ⟨rfl, rfl⟩ := Prod.mk.inj step
        refine ⟨by simp, ?_⟩
        rintro _ ⟨⟩
        trivial
  | escape read =>
      obtain ⟨rfl, rfl⟩ := Prod.mk.inj step
      refine ⟨by simp, ?_⟩
      rintro _ ⟨⟩
      trivial

/-- Every number token is a number as JSON writes it. -/
theorem isNumber_of_mem {text literal : List Char} {mode : Mode} (begun : mode.Begun)
    (member : .number literal ∈ lexFrom mode text) : isNumber literal := by
  induction text generalizing mode with
  | nil =>
      cases mode with
      | number phase read =>
          have read_ : NumberPhase.after read = some phase := begun
          simp only [lexFrom, Mode.finish] at member
          split_ifs at member with whole
          · obtain rfl := Token.number.inj (List.mem_singleton.mp member)
            simp [isNumber, read_, whole]
          · simp at member
      | _ => simp [lexFrom, Mode.finish] at member
  | cons char rest ih =>
      rcases step : mode.step char with ⟨tokens, next⟩
      obtain ⟨numbers, goesOn⟩ := begun.step step
      cases next with
      | none =>
          rw [lexFrom_stuck step] at member
          rcases List.mem_append.mp member with here | end_
          · exact numbers literal here
          · simp at end_
      | some next =>
          rw [lexFrom_cons step] at member
          rcases List.mem_append.mp member with here | later
          · exact numbers literal here
          · exact ih (goesOn next rfl) later

end MessagePusher.JsonText
