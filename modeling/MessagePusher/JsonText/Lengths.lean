import MessagePusher.JsonText.Decode

/-!
# Decoded values and the length of their text

The strings of a decoded value are shorter than the text, which has their quotes as well. The text
of an array or an object begins with its bracket, after white space.
-/

namespace MessagePusher.JsonText

open Common

/-! ### The length of literals -/

/-- The length of a literal. -/
def Token.length : Token → Nat
  | .string raw => raw.length
  | _ => 0

/-- How much of a literal is held. -/
def Mode.held : Mode → Nat
  | .string read => read.length
  | .escape read => read.length + 1
  | .word token _ => token.length
  | _ => 0

/-- The start of a token holds no string yet. -/
theorem start_held {char : Char} {tokens : List Token} {next : Option Mode}
    (step : start char = (tokens, next)) :
    (∀ token ∈ tokens, token.length = 0) ∧ ∀ mode, next = some mode → mode.held = 0 := by
  obtain ⟨emitted, goesOn⟩ := start_spec step
  have short : ∀ entry ∈ punctuation, entry.2.length = 0 := by decide
  have shortWords : ∀ entry ∈ words, entry.2.1.length = 0 := by decide
  constructor
  · intro token member
    rcases emitted with rfl | ⟨found, rfl, listed⟩
    · cases member
    · rw [List.mem_singleton.mp member]
      exact short _ listed
  · intro mode same
    rcases goesOn mode same with rfl | ⟨-, rfl⟩ | ⟨token, left, rfl, listed⟩ | ⟨phase, rfl, -⟩
    · rfl
    · rfl
    · exact shortWords _ listed
    · rfl

/-- A step holds at most one character more, and completes no more than it held. -/
theorem Mode.step_held {mode : Mode} {char : Char} {tokens : List Token} {next : Option Mode}
    (step : mode.step char = (tokens, next)) :
    (∀ token ∈ tokens, token.length ≤ mode.held) ∧
      ∀ mode', next = some mode' → mode'.held ≤ mode.held + 1 := by
  have starts : ∀ {tokens next}, JsonText.start char = (tokens, next) →
      (∀ token ∈ tokens, token.length ≤ mode.held) ∧
        ∀ mode', next = some mode' → mode'.held ≤ mode.held + 1 := by
    intro tokens next step
    obtain ⟨short, held⟩ := start_held step
    refine ⟨fun token member => ?_, fun mode' same => ?_⟩
    · rw [short token member]
      exact Nat.zero_le _
    · rw [held mode' same]
      exact Nat.zero_le _
  cases mode with
  | idle => exact starts step
  | number phase read =>
      rcases Mode.step_number phase read char with ⟨phase', -, found⟩ | ⟨-, found⟩ | found
      · obtain ⟨rfl, rfl⟩ := Prod.mk.inj (found.symm.trans step)
        refine ⟨by simp, ?_⟩
        rintro _ ⟨⟩
        exact Nat.zero_le _
      · obtain ⟨rfl, rfl⟩ := Prod.mk.inj (found.symm.trans step)
        obtain ⟨short, held⟩ := @starts _ _ rfl
        exact ⟨List.forall_mem_cons.mpr ⟨Nat.zero_le _, short⟩, held⟩
      · obtain ⟨rfl, rfl⟩ := Prod.mk.inj (found.symm.trans step)
        exact ⟨by simp, by simp⟩
  | word token left =>
      rcases Mode.step_word token left char with ⟨-, found⟩ | ⟨rest, -, found⟩ | found
      · obtain ⟨rfl, rfl⟩ := Prod.mk.inj (found.symm.trans step)
        refine ⟨by simp [held], ?_⟩
        rintro _ ⟨⟩
        exact Nat.zero_le _
      · obtain ⟨rfl, rfl⟩ := Prod.mk.inj (found.symm.trans step)
        refine ⟨by simp, ?_⟩
        rintro _ ⟨⟩
        exact Nat.le_succ _
      · obtain ⟨rfl, rfl⟩ := Prod.mk.inj (found.symm.trans step)
        exact ⟨by simp, by simp⟩
  | string read =>
      simp only [Mode.step] at step
      split_ifs at step
      all_goals
        obtain ⟨rfl, rfl⟩ := Prod.mk.inj step
        refine ⟨by simp [held, Token.length], ?_⟩
        rintro _ ⟨⟩
        simp [held]
  | escape read =>
      obtain ⟨rfl, rfl⟩ := Prod.mk.inj step
      refine ⟨by simp, ?_⟩
      rintro _ ⟨⟩
      simp [held]

/-- A literal is shorter than what its mode held and the text. -/
theorem length_of_mem_lexFrom {text raw : List Char} {mode : Mode}
    (member : .string raw ∈ lexFrom mode text) : raw.length < mode.held + text.length := by
  induction text generalizing mode with
  | nil =>
      cases mode with
      | number phase read =>
          simp only [lexFrom, Mode.finish] at member
          split_ifs at member <;> simp at member
      | _ => simp [lexFrom, Mode.finish] at member
  | cons char rest ih =>
      rcases step : mode.step char with ⟨tokens, next⟩
      obtain ⟨short, held⟩ := Mode.step_held step
      rw [List.length_cons]
      have here : .string raw ∈ tokens → raw.length < mode.held + (rest.length + 1) :=
        fun listed => Nat.lt_of_le_of_lt (short _ listed) (by omega)
      cases next with
      | none =>
          rw [lexFrom_stuck step] at member
          rcases List.mem_append.mp member with listed | end_
          · exact here listed
          · simp at end_
      | some next =>
          rw [lexFrom_cons step] at member
          rcases List.mem_append.mp member with listed | later
          · exact here listed
          · have bound := ih later
            have more := held next rfl
            omega

/-! ### The length of texts -/

/-- A pair that is joined is shorter. -/
theorem length_joinPieces_le (pieces : List Piece) : (joinPieces pieces).length ≤ pieces.length := by
  fun_induction joinPieces pieces with
  | case1 => exact Nat.le_refl _
  | case2 value rest ih => exact Nat.succ_le_succ ih
  | case3 high low rest pair ih => exact Nat.le_succ_of_le (Nat.succ_le_succ ih)
  | case4 high low rest lone ih => exact Nat.succ_le_succ ih
  | case5 code rest single ih => exact Nat.succ_le_succ ih

/-- Every piece takes a character. -/
theorem Content.length_le {raw : List Char} {pieces : List Piece} (content : Content raw pieces) :
    pieces.length ≤ raw.length := by
  induction content with
  | nil => exact Nat.le_refl _
  | cons spells _ ih =>
      rw [List.length_append, List.length_cons]
      cases spells with
      | plain => simpa [Nat.add_comm] using ih
      | short =>
          simp only [List.length_cons, List.length_nil]
          omega
      | unicode =>
          simp only [List.length_cons, List.length_nil]
          omega

/-- A text is no longer than its literal. -/
theorem length_unescape_le (raw : List Char) : (unescape raw).length ≤ raw.length := by
  rw [unescape]
  cases read : pieces? raw with
  | none => exact Nat.zero_le _
  | some pieces =>
      exact (length_joinPieces_le pieces).trans (pieces?_eq_some_iff.mp read).length_le

/-- The strings of a value are shorter than this, keys aside. -/
def StringsBelow (bound : Nat) (value : Json) : Prop :=
  ∀ text, Within (.string text) value → text.toList.length < bound

theorem StringsBelow.mono {bound more : Nat} {value : Json} (below : StringsBelow bound value)
    (le : bound ≤ more) : StringsBelow more value :=
  fun text within => Nat.lt_of_lt_of_le (below text within) le

/-- The strings of a part are strings of the whole. -/
theorem StringsBelow.within {bound : Nat} {inner value : Json} (below : StringsBelow bound value)
    (within : Within inner value) : StringsBelow bound inner :=
  fun text inside => below text (inside.trans within)

theorem stringsBelow_array {bound : Nat} {items : List Json}
    (each : ∀ item ∈ items, StringsBelow bound item) : StringsBelow bound (.array items) := by
  intro text within
  rcases within_array.mp within with same | ⟨item, listed, inside⟩
  · cases same
  · exact each item listed text inside

theorem stringsBelow_object {bound : Nat} {members : List (String × Json)}
    (each : ∀ member ∈ members, StringsBelow bound member.2) :
    StringsBelow bound (.object members) := by
  intro text within
  rcases within_object.mp within with same | ⟨member, listed, inside⟩
  · cases same
  · exact each member listed text inside

/-- Texts are no longer than their literals. -/
theorem StringsBelow.unescapeTree {bound : Nat} {raw : Json} (below : StringsBelow bound raw) :
    StringsBelow bound (unescapeTree raw) := by
  induction raw using treeInduction with
  | array items ih =>
      rw [JsonText.unescapeTree, mapStrings, mapItems_eq]
      refine stringsBelow_array fun item listed => ?_
      obtain ⟨source, member, rfl⟩ := List.mem_map.mp listed
      exact ih source member (below.within (.item member .self))
  | object members ih =>
      rw [JsonText.unescapeTree, mapStrings, mapMembers_eq]
      refine stringsBelow_object fun member listed => ?_
      obtain ⟨source, member, rfl⟩ := List.mem_map.mp listed
      exact ih source member (below.within (.member member .self))
  | string raw =>
      intro text within
      cases within
      rw [overChars_toList]
      exact Nat.lt_of_le_of_lt (length_unescape_le _) (below raw .self)
  | _ =>
      rintro text ⟨⟩

/-- Maps have no strings of their own. -/
theorem StringsBelow.toMaps {bound : Nat} {tree : Json} (below : StringsBelow bound tree) :
    StringsBelow bound (toMaps tree) := by
  intro text within
  obtain ⟨source, inside, same⟩ := within_toMaps within
  cases source with
  | string found =>
      obtain rfl := Json.string.inj same
      exact below _ inside
  | _ => cases same

/-- Each string of a decoded value is shorter than the text. -/
theorem stringsBelow_of_decodeValue {text : String} {value : Json}
    (decoded : decodeValue text = some value) : StringsBelow text.toList.length value := by
  obtain ⟨tree, found, rfl⟩ := Option.map_eq_some_iff.mp decoded
  obtain ⟨raw, leading, rfl⟩ := Option.map_eq_some_iff.mp found
  obtain ⟨parsed, -⟩ := checked_eq_some_iff.mp leading
  refine StringsBelow.toMaps (StringsBelow.unescapeTree ?_)
  refine @parseLeading_holds _ (fun _ => StringsBelow text.toList.length) _ _ ⟨?_, ?_⟩ ?_ parsed
  · exact fun _ _ items each => stringsBelow_array each
  · exact fun _ _ members each => stringsBelow_object each
  · intro token listed found scalar _ _ string within
    cases scalar with
    | @string chars =>
        cases within
        rw [String.toList_ofList]
        simpa [Mode.held] using length_of_mem_lexFrom listed
    | _ => cases within

/-! ### The bracket at the beginning -/

/-- The token opens an object or an array. -/
def IsBracket (token : Token) : Prop := token = .beginObject ∨ token = .beginArray

/-- In the middle of a token that is no bracket. -/
def Mode.Inside : Mode → Prop
  | idle => False
  | word token _ => ¬ IsBracket token
  | _ => True

/-- A token that is begun and no bracket comes first. -/
theorem not_bracket_of_inside {mode : Mode} (inside : mode.Inside) (text : List Char) {token : Token}
    (first : (lexFrom mode text).head? = some token) : ¬ IsBracket token := by
  have plain : ∀ {other : Token}, ¬ IsBracket other → ∀ {rest}, (other :: rest).head? = some token →
      ¬ IsBracket token := by
    rintro other noBracket rest ⟨⟩
    exact noBracket
  induction text generalizing mode with
  | nil =>
      cases mode with
      | idle => exact inside.elim
      | number phase read =>
          simp only [lexFrom, Mode.finish] at first
          split_ifs at first
          · exact plain (by simp [IsBracket]) first
          · exact plain (by simp [IsBracket]) first
      | _ => exact plain (by simp [IsBracket]) first
  | cons char rest ih =>
      have stuck : ∀ {mode : Mode}, mode.step char = ([], none) →
          (lexFrom mode (char :: rest)).head? = some token → ¬ IsBracket token := by
        intro mode step first
        rw [lexFrom_stuck step] at first
        exact plain (by simp [IsBracket]) first
      have goesOn : ∀ {mode next : Mode}, mode.step char = ([], some next) → next.Inside →
          (lexFrom mode (char :: rest)).head? = some token → ¬ IsBracket token := by
        intro mode next step within first
        rw [lexFrom_cons step] at first
        exact ih within first
      cases mode with
      | idle => exact inside.elim
      | number phase read =>
          rcases Mode.step_number phase read char with ⟨phase', -, step⟩ | ⟨-, step⟩ | step
          · exact goesOn step trivial first
          · cases next : (start char).2 with
            | none =>
                rw [next] at step
                rw [lexFrom_stuck step] at first
                exact plain (by simp [IsBracket]) first
            | some mode =>
                rw [next] at step
                rw [lexFrom_cons step] at first
                exact plain (by simp [IsBracket]) first
          · exact stuck step first
      | word token left =>
          rcases Mode.step_word token left char with ⟨-, step⟩ | ⟨rest, -, step⟩ | step
          · rw [lexFrom_cons step] at first
            exact plain inside first
          · exact goesOn step inside first
          · exact stuck step first
      | string read =>
          by_cases quote : char = '"'
          · have step : (Mode.string read).step char = ([.string read], some .idle) := if_pos quote
            rw [lexFrom_cons step] at first
            exact plain (by simp [IsBracket]) first
          · by_cases escape : char = '\\'
            · exact goesOn (by simp [Mode.step, escape]) (show Mode.Inside (.escape read) from trivial) first
            · exact goesOn (by simp [Mode.step, quote, escape])
                (show Mode.Inside (.string (read ++ [char])) from trivial) first
      | escape read =>
          exact goesOn rfl (show Mode.Inside (.string (read ++ ['\\', char])) from trivial) first

/-- A character that is no white space completes one token of its own, or begins another one. -/
theorem start_solid {char : Char} (solid : ¬ isWhitespace char) :
    (∃ token, (char, token) ∈ punctuation ∧ start char = ([token], some .idle)) ∨
      ∃ next, start char = ([], next) ∧ ∀ mode, next = some mode → mode.Inside := by
  rw [start, if_neg solid]
  split_ifs with quote
  · exact .inr ⟨_, rfl, by rintro _ ⟨⟩; trivial⟩
  · cases found : punctuation.lookup char with
    | some token => exact .inl ⟨token, lookup_mem found, rfl⟩
    | none =>
        cases word : words.lookup char with
        | some entry =>
            have noBracket : ∀ entry ∈ words, ¬ IsBracket entry.2.1 := by simp [words, IsBracket]
            refine .inr ⟨_, rfl, ?_⟩
            rintro _ ⟨⟩
            exact noBracket _ (lookup_mem word)
        | none =>
            refine .inr ⟨_, rfl, fun mode same => ?_⟩
            obtain ⟨phase, -, rfl⟩ := Option.map_eq_some_iff.mp same
            trivial

/-- The text begins with a bracket, after white space. -/
def BeginsBracket (text : List Char) : Prop :=
  ∃ blank bracket rest, text = blank ++ bracket :: rest ∧ (∀ char ∈ blank, isWhitespace char) ∧
    (bracket = '\x7b' ∨ bracket = '[')

/-- A text whose first token is a bracket begins with one, behind whitespace. -/
theorem beginsBracket_of_lex {text : List Char} {token : Token}
    (first : (lex text).head? = some token) (bracket : IsBracket token) : BeginsBracket text := by
  induction text with
  | nil => cases first
  | cons char rest ih =>
      by_cases blank : isWhitespace char
      · have stays : Mode.idle.step char = ([], some .idle) := if_pos blank
        rw [lex, lexFrom_cons stays] at first
        obtain ⟨front, found, back, rfl, white, is⟩ := ih first
        exact ⟨char :: front, found, back, rfl, List.forall_mem_cons.mpr ⟨blank, white⟩, is⟩
      · refine ⟨[], char, rest, rfl, List.forall_mem_nil _, ?_⟩
        rcases start_solid blank with ⟨found, listed, step⟩ | ⟨next, step, inside⟩
        · have idle : Mode.idle.step char = ([found], some .idle) := step
          rw [lex, lexFrom_cons idle] at first
          obtain rfl := Option.some.inj first
          have brackets : ∀ entry ∈ punctuation, IsBracket entry.2 →
              entry.1 = '\x7b' ∨ entry.1 = '[' := by simp [punctuation, IsBracket]
          exact brackets _ listed bracket
        · have idle : Mode.idle.step char = ([], next) := step
          cases next with
          | none =>
              rw [lex, lexFrom_stuck idle] at first
              obtain rfl := Option.some.inj first
              rcases bracket with same | same <;> cases same
          | some mode =>
              rw [lex, lexFrom_cons idle] at first
              exact absurd bracket (not_bracket_of_inside (inside mode rfl) rest first)

/-- A bracket is no part of a number. -/
theorem no_bracket_of_isNumber {literal : List Char} (number : isNumber literal) :
    '\x7b' ∉ literal ∧ '[' ∉ literal := by
  have moves : ∀ {phase next : NumberPhase} {char : Char}, phase.next char = some next →
      char ≠ '\x7b' ∧ char ≠ '[' := by
    intro phase next char step
    constructor
    · rintro rfl
      cases phase <;> cases step
    · rintro rfl
      cases phase <;> cases step
  have run : ∀ (rest : List Char) (phase last : NumberPhase),
      rest.foldlM NumberPhase.next phase = some last → '\x7b' ∉ rest ∧ '[' ∉ rest := by
    intro rest
    induction rest with
    | nil => simp
    | cons char rest ih =>
        intro phase last goesOn
        rw [List.foldlM_cons] at goesOn
        obtain ⟨next, step, goesOn⟩ := Option.bind_eq_some_iff.mp goesOn
        obtain ⟨noBrace, noBracket⟩ := moves step
        obtain ⟨noBraces, noBrackets⟩ := ih next last goesOn
        exact ⟨List.not_mem_cons_of_ne_of_not_mem noBrace.symm noBraces,
          List.not_mem_cons_of_ne_of_not_mem noBracket.symm noBrackets⟩
  cases literal with
  | nil => cases number
  | cons first rest =>
      obtain ⟨last, goesOn, -⟩ := (Option.any_eq_true _ _).mp number
      obtain ⟨phase, starts, goesOn⟩ := Option.bind_eq_some_iff.mp goesOn
      obtain ⟨noBraces, noBrackets⟩ := run rest phase last goesOn
      constructor
      · refine List.not_mem_cons_of_ne_of_not_mem ?_ noBraces
        rintro rfl
        cases starts
      · refine List.not_mem_cons_of_ne_of_not_mem ?_ noBrackets
        rintro rfl
        cases starts

/-- An object or an array. -/
def IsContainer : Json → Prop
  | .object _ | .array _ => True
  | _ => False

instance : DecidablePred IsContainer
  | .object _ | .array _ => .isTrue trivial
  | .null | .bool _ | .number _ | .string _ => .isFalse id

/-- A container begins with a bracket. -/
theorem bracket_of_parseLeading {limit : Nat} {tokens : List Token} {tree : Json}
    (parsed : parseLeading limit tokens = some tree) (container : IsContainer tree) :
    ∃ token, tokens.head? = some token ∧ IsBracket token := by
  cases tokens with
  | nil => cases parsed
  | cons token tokens =>
      refine ⟨token, rfl, ?_⟩
      cases token with
      | beginObject => exact .inl rfl
      | beginArray => exact .inr rfl
      | null | bool | number | string =>
          rw [parseLeading] at parsed
          cases tokens with
          | nil =>
              cases parsed
              exact container.elim
          | cons next tokens =>
              cases parsed
              exact container.elim
      | _ => cases parsed

/-- A change of the strings leaves a container one. -/
theorem isContainer_mapStrings {change : String → String} {tree : Json} :
    IsContainer (mapStrings change tree) ↔ IsContainer tree := by
  cases tree with
  | _ => exact Iff.rfl

/-- A container of maps was a container. -/
theorem isContainer_toMaps {tree : Json} : IsContainer (toMaps tree) ↔ IsContainer tree := by
  cases tree with
  | _ => exact Iff.rfl

/-- A text that an array or an object is decoded from begins with its bracket. -/
theorem beginsBracket_of_decodeValue {text : String} {value : Json}
    (decoded : decodeValue text = some value) (container : IsContainer value) :
    BeginsBracket text.toList := by
  obtain ⟨tree, found, rfl⟩ := Option.map_eq_some_iff.mp decoded
  obtain ⟨raw, leading, rfl⟩ := Option.map_eq_some_iff.mp found
  obtain ⟨parsed, -⟩ := checked_eq_some_iff.mp leading
  have rawContainer : IsContainer raw :=
    isContainer_mapStrings.mp (isContainer_toMaps.mp container)
  obtain ⟨token, first, bracket⟩ := bracket_of_parseLeading parsed rawContainer
  exact beginsBracket_of_lex first bracket

/-- What is written of an array or an object ends with its bracket. -/
theorem getLast?_marshal {value : Json} {text : String} (written : marshal value = some text)
    (container : IsContainer value) :
    ∃ bracket, text.toList.getLast? = some bracket ∧ (bracket = '\x7d' ∨ bracket = ']') := by
  rw [marshal] at written
  split_ifs at written
  obtain rfl := Option.some.inj written
  rw [String.toList_ofList]
  cases value with
  | object members =>
      refine ⟨'\x7d', ?_, .inl rfl⟩
      rw [escapeTree, mapStrings, JsonText.text, List.getLast?_append]
      rfl
  | array items =>
      refine ⟨']', ?_, .inr rfl⟩
      rw [escapeTree, mapStrings, JsonText.text, List.getLast?_append]
      rfl
  | _ => exact container.elim

end MessagePusher.JsonText
