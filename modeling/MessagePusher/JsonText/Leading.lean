import MessagePusher.JsonText.Lengths

/-!
# The first value of a text

The parser reads the tokens of a tree and nothing else, so a text is one value or is not, and the
value that a decoder takes from the beginning of a text is the value of a part of it. For everything
but a number, which goes on with the next digit, that part can be followed by anything.
-/

namespace MessagePusher.JsonText

open Common

/-! ### What the parser has read -/

/-- Items with the comma after each. -/
def itemsRead (items : List Json) : List Token := items.flatMap fun item => tokens item ++ [.comma]

/-- The tokens of members that are followed by another one. -/
def membersRead (members : List (String × Json)) : List Token :=
  members.flatMap fun member => .string member.1.toList :: .colon :: (tokens member.2 ++ [.comma])

/-- The tokens of what the frames have collected, the outermost first. -/
def framesRead : List Frame → List Token
  | [] => []
  | .item items :: frames => framesRead frames ++ .beginArray :: itemsRead items
  | .member members key :: frames =>
      framesRead frames ++ .beginObject :: (membersRead members ++ [.string key.toList, .colon])

/-- The tokens that led to a state. -/
def ParseState.read : ParseState → List Token
  | value frames => framesRead frames
  | firstItem frames => framesRead frames ++ [.beginArray]
  | afterItem items frames => framesRead frames ++ .beginArray :: itemTokens items
  | firstKey frames => framesRead frames ++ [.beginObject]
  | nextKey members frames => framesRead frames ++ .beginObject :: membersRead members
  | colon members key frames =>
      framesRead frames ++ .beginObject :: (membersRead members ++ [.string key.toList])
  | afterMember members frames => framesRead frames ++ .beginObject :: memberTokens members
  | done tree => tokens tree

/-- After an item or a member there is one. -/
def ParseState.Filled : ParseState → Prop
  | afterItem items _ => items ≠ []
  | afterMember members _ => members ≠ []
  | _ => True

/-- The last item comes after those that were read. -/
theorem itemTokens_append (items : List Json) (item : Json) :
    itemTokens (items ++ [item]) = itemsRead items ++ tokens item := by
  induction items with
  | nil => rfl
  | cons first items ih =>
      cases items with
      | nil => simp [itemTokens, itemsRead]
      | cons next items =>
          simp only [List.cons_append] at ih ⊢
          rw [itemTokens, ih]
          simp [itemsRead]

/-- The last member comes after those that were read. -/
theorem memberTokens_append (members : List (String × Json)) (key : String) (value : Json) :
    memberTokens (members ++ [(key, value)]) =
      membersRead members ++ .string key.toList :: .colon :: tokens value := by
  induction members with
  | nil => rfl
  | cons first members ih =>
      obtain ⟨name, held⟩ := first
      cases members with
      | nil => simp [memberTokens, membersRead]
      | cons next members =>
          simp only [List.cons_append] at ih ⊢
          rw [memberTokens, ih]
          simp [membersRead]

/-- A comma is left behind items that are there. -/
theorem itemsRead_eq {items : List Json} (filled : items ≠ []) :
    itemsRead items = itemTokens items ++ [.comma] := by
  obtain ⟨before, last, rfl⟩ := List.eq_nil_or_concat items |>.resolve_left filled
  rw [List.concat_eq_append, itemTokens_append]
  simp [itemsRead]

/-- A comma is left behind members that are there. -/
theorem membersRead_eq {members : List (String × Json)} (filled : members ≠ []) :
    membersRead members = memberTokens members ++ [.comma] := by
  obtain ⟨before, ⟨key, value⟩, rfl⟩ := List.eq_nil_or_concat members |>.resolve_left filled
  rw [List.concat_eq_append, memberTokens_append]
  simp [membersRead]

/-- A tree that is delivered brings its tokens. -/
theorem read_deliver (tree : Json) (frames : List Frame) :
    (deliver tree frames).read = framesRead frames ++ tokens tree ∧ (deliver tree frames).Filled := by
  match frames with
  | [] => exact ⟨rfl, trivial⟩
  | .item items :: frames =>
      refine ⟨?_, by simp [deliver, ParseState.Filled]⟩
      rw [deliver, ParseState.read, itemTokens_append, framesRead, List.append_assoc,
        List.cons_append]
  | .member members key :: frames =>
      refine ⟨?_, by simp [deliver, ParseState.Filled]⟩
      rw [deliver, ParseState.read, memberTokens_append, framesRead]
      simp

variable {limit : Nat}

/-- The start of a value brings its token. -/
theorem read_startValue {frames : List Frame} {token : Token} {next : ParseState}
    (step : startValue limit frames token = some next) :
    next.read = framesRead frames ++ [token] ∧ next.Filled := by
  have scalar {tree : Json} (same : tokens tree = [token]) (done : deliver tree frames = next) :
      next.read = framesRead frames ++ [token] ∧ next.Filled := by
    rw [← same, ← done]
    exact read_deliver tree frames
  cases token with
  | beginArray | beginObject =>
      simp only [startValue] at step
      split_ifs at step
      obtain rfl := Option.some.inj step
      exact ⟨rfl, trivial⟩
  | null | bool => exact scalar rfl (Option.some.inj step)
  | number | string => exact scalar (by simp [tokens]) (Option.some.inj step)
  | _ => cases step

/-- A token is added to those that were read. -/
theorem read_parseStep {state next : ParseState} {token : Token} (filled : state.Filled)
    (step : parseStep limit state token = some next) :
    next.read = state.read ++ [token] ∧ next.Filled := by
  have container {tree : Json} {frames : List Frame} {opened : List Token}
      (same : tokens tree = opened ++ [token]) (done : deliver tree frames = next) :
      next.read = framesRead frames ++ opened ++ [token] ∧ next.Filled := by
    rw [List.append_assoc, ← same, ← done]
    exact read_deliver tree frames
  cases state with
  | value frames => exact read_startValue step
  | firstItem frames =>
      have item (step : startValue limit (.item [] :: frames) token = some next) :
          next.read = (ParseState.firstItem frames).read ++ [token] ∧ next.Filled :=
        read_startValue step
      cases token with
      | endArray => exact container rfl (Option.some.inj step)
      | _ => exact item step
  | afterItem items frames =>
      cases token with
      | comma =>
          obtain rfl := Option.some.inj step
          refine ⟨?_, trivial⟩
          rw [ParseState.read, framesRead, itemsRead_eq filled]
          simp [ParseState.read]
      | endArray => exact container rfl (Option.some.inj step)
      | _ => cases step
  | firstKey frames =>
      cases token with
      | endObject => exact container rfl (Option.some.inj step)
      | string raw =>
          obtain rfl := Option.some.inj step
          exact ⟨by simp [ParseState.read, membersRead], trivial⟩
      | _ => cases step
  | nextKey members frames =>
      cases token with
      | string raw =>
          obtain rfl := Option.some.inj step
          exact ⟨by simp [ParseState.read], trivial⟩
      | _ => cases step
  | colon members key frames =>
      cases token with
      | colon =>
          obtain rfl := Option.some.inj step
          exact ⟨by simp [ParseState.read, framesRead], trivial⟩
      | _ => cases step
  | afterMember members frames =>
      cases token with
      | comma =>
          obtain rfl := Option.some.inj step
          refine ⟨?_, trivial⟩
          rw [ParseState.read, membersRead_eq filled]
          simp [ParseState.read]
      | endObject => exact container rfl (Option.some.inj step)
      | _ => cases step
  | done tree => cases token <;> cases step

/-- A run has read its tokens, and no others. -/
theorem read_parseRun {tokens : List Token} {state last : ParseState} (filled : state.Filled)
    (run : parseRun limit state tokens = some last) : last.read = state.read ++ tokens := by
  induction tokens generalizing state with
  | nil =>
      obtain rfl := Option.some.inj run
      exact (List.append_nil _).symm
  | cons token tokens ih =>
      obtain ⟨next, step, goesOn⟩ := Option.bind_eq_some_iff.mp run
      obtain ⟨read, still⟩ := read_parseStep filled step
      rw [ih still goesOn, read, List.append_assoc, List.singleton_append]

/-- Exactly the tokens of a tree parse to it, where its nesting is allowed. -/
theorem parseTree_eq_some_iff {found : List Token} {tree : Json} :
    parseTree limit found = some tree ↔ found = tokens tree ∧ depth tree ≤ limit := by
  constructor
  · intro parsed
    refine ⟨?_, depth_of_parseLeading (parseLeading_of_parseTree parsed)⟩
    have read : (ParseState.done tree).read = found :=
      @read_parseRun limit _ (.value []) _ trivial (exists_parseRun_of_parseTree parsed)
    exact read.symm
  · rintro ⟨rfl, shallow⟩
    exact parseTree_tokens shallow

/-- A text has its tree under another bound where it is not nested too deeply. -/
theorem syntaxTree_of_depth {other : Nat} {text : String} {tree : Json}
    (found : syntaxTree limit text = some tree) (shallow : depth tree ≤ other) :
    syntaxTree other text = some tree := by
  obtain ⟨parsed, valid⟩ := checked_eq_some_iff.mp found
  exact checked_eq_some_iff.mpr
    ⟨parseTree_eq_some_iff.mpr ⟨(parseTree_eq_some_iff.mp parsed).1, shallow⟩, valid⟩

/-- A text is decoded under another bound where its value is not nested too deeply. -/
theorem decode_of_depth {other : Nat} {text : String} {value : Json}
    (decoded : decode limit text = some value) (shallow : depth value ≤ other) :
    decode other text = some value := by
  obtain ⟨tree, found, rfl⟩ := Option.map_eq_some_iff.mp decoded
  rw [unescapeTree, depth_mapStrings] at shallow
  exact Option.map_eq_some_iff.mpr ⟨tree, syntaxTree_of_depth found shallow, rfl⟩

/-! ### What the lexer has read -/

/-- The tokens that a text completes and the mode after it, or none where a character is bad. -/
def lexRun : Mode → List Char → List Token × Option Mode
  | mode, [] => ([], some mode)
  | mode, char :: rest =>
      match mode.step char with
      | (tokens, some next) => (tokens ++ (lexRun next rest).1, (lexRun next rest).2)
      | (tokens, none) => (tokens ++ [.bad], none)

/-- The tokens of the rest, which are not looked at after a bad character. -/
def lexRest (mode : Option Mode) (rest : List Char) : List Token :=
  match mode with
  | some next => lexFrom next rest
  | none => []

/-- The tokens of a text are those of its front and those of the rest from there. -/
theorem lexFrom_append (mode : Mode) (before rest : List Char) :
    lexFrom mode (before ++ rest) =
      (lexRun mode before).1 ++ lexRest (lexRun mode before).2 rest := by
  induction before generalizing mode with
  | nil => rfl
  | cons char before ih =>
      rw [List.cons_append, lexRun]
      rcases step : mode.step char with ⟨tokens, next⟩
      cases next with
      | none =>
          rw [lexFrom_stuck step]
          exact (List.append_nil _).symm
      | some next => rw [lexFrom_cons step, ih, List.append_assoc]

/-- A reading that got stuck has a bad token. -/
theorem bad_of_lexRun {mode : Mode} {text : List Char} (stuck : (lexRun mode text).2 = none) :
    .bad ∈ (lexRun mode text).1 := by
  induction text generalizing mode with
  | nil => cases stuck
  | cons char text ih =>
      rw [lexRun] at stuck ⊢
      rcases step : mode.step char with ⟨tokens, next⟩
      rw [step] at stuck
      cases next with
      | none => exact List.mem_append_right _ (List.mem_singleton_self _)
      | some next => exact List.mem_append_right _ (ih stuck)

/-- Only a number ends with the token of one. -/
theorem number_of_tokens {tree : Json} {before : List Token} {read : List Char}
    (ends : tokens tree = before ++ [.number read]) : ∃ literal, tree = .number literal := by
  have last := congrArg List.getLast? ends
  rw [List.getLast?_append] at last
  cases tree with
  | number literal => exact ⟨literal, rfl⟩
  | array items =>
      rw [tokens, List.getLast?_append] at last
      cases last
  | object members =>
      rw [tokens, List.getLast?_append] at last
      cases last
  | _ => cases last

/-- After a value that is no number the lexer starts anew. -/
theorem lex_append {limit : Nat} {before : List Char} {tree : Json}
    (parsed : parseTree limit (lex before) = some tree)
    (noNumber : ∀ literal, tree ≠ .number literal) (rest : List Char) :
    lex (before ++ rest) = lex before ++ lex rest := by
  have sound := not_bad_of_parseTree parsed
  have whole := lexFrom_append .idle before []
  rw [List.append_nil] at whole
  have followed := lexFrom_append .idle before rest
  rcases run : lexRun .idle before with ⟨found, last⟩
  rw [run] at whole followed
  cases last with
  | none =>
      have stuck := @bad_of_lexRun .idle before (by rw [run])
      rw [run] at stuck
      rw [lex, whole] at sound
      exact absurd (List.mem_append_left _ stuck) sound
  | some mode =>
      change lexFrom .idle before = found ++ mode.finish at whole
      have quiet : .bad ∉ mode.finish := by
        intro bad
        rw [lex, whole] at sound
        exact sound (List.mem_append_right _ bad)
      cases mode with
      | idle =>
          rw [lex, lex, lex, followed, whole]
          exact congrArg (· ++ _) (List.append_nil found).symm
      | number phase read =>
          rw [Mode.finish] at whole quiet
          split_ifs at whole quiet
          · rw [lex, whole] at parsed
            obtain ⟨literal, same⟩ := number_of_tokens (parseTree_eq_some_iff.mp parsed).1.symm
            exact absurd same (noNumber literal)
          · simp at quiet
      | _ => simp [Mode.finish] at quiet

/-- A character opens a mode, or is a token and leaves nothing open. -/
theorem start_shape (char : Char) :
    (start char).1 = [] ∨ ∃ token, start char = ([token], some .idle) := by
  unfold start
  split_ifs
  · exact .inl rfl
  · exact .inl rfl
  · split
    · exact .inr ⟨_, rfl⟩
    · split
      · exact .inl rfl
      · exact .inl rfl

/-- A character ends a number and starts anew, or adds a token at most, after which nothing is
open. -/
theorem Mode.step_shape (mode : Mode) (char : Char) :
    (∃ token, mode.finish = [token] ∧
        mode.step char = (token :: (JsonText.start char).1, (JsonText.start char).2)) ∨
      (mode.step char).1 = [] ∨ ∃ token, mode.step char = ([token], some .idle) := by
  cases mode with
  | idle => exact .inr (start_shape char)
  | number phase read =>
      rcases Mode.step_number phase read char with ⟨next, -, found⟩ | ⟨whole, found⟩ | found
      · exact .inr (.inl (by rw [found]))
      · exact .inl ⟨.number read, if_pos whole, found⟩
      · exact .inr (.inl (by rw [found]))
  | word token left =>
      rcases Mode.step_word token left char with ⟨-, found⟩ | ⟨rest, -, found⟩ | found
      · exact .inr (.inr ⟨token, found⟩)
      · exact .inr (.inl (by rw [found]))
      · exact .inr (.inl (by rw [found]))
  | string read =>
      simp only [Mode.step]
      split_ifs
      · exact .inr (.inr ⟨_, rfl⟩)
      · exact .inr (.inl rfl)
      · exact .inr (.inl rfl)
  | escape read => exact .inr (.inl rfl)

/-- The end of a text gives one token at most. -/
theorem Mode.length_finish (mode : Mode) : mode.finish.length ≤ 1 := by
  cases mode with
  | idle => exact Nat.zero_le _
  | number phase read =>
      rw [finish]
      split_ifs
      · exact Nat.le_refl _
      · exact Nat.le_refl _
  | _ => exact Nat.le_refl _

/-- The tokens of a text after a step. -/
def lexAfter (step : List Token × Option Mode) (rest : List Char) : List Token :=
  step.1 ++ match step.2 with
    | some next => lexFrom next rest
    | none => [.bad]

/-- A text is read from its first character on. -/
theorem lexFrom_eq_lexAfter (mode : Mode) (char : Char) (rest : List Char) :
    lexFrom mode (char :: rest) = lexAfter (mode.step char) rest := by
  rcases step : mode.step char with ⟨tokens, next⟩
  cases next with
  | none => exact lexFrom_stuck step rest
  | some next => exact lexFrom_cons step rest

/-- Some of the tokens after a step, if those of every mode come from a part of the text. -/
theorem lexAfter_prefix {step : List Token × Option Mode} {text : List Char}
    {used later : List Token}
    (shape : step.1 = [] ∨ ∃ token, step = ([token], some .idle))
    (inner : ∀ mode used, lexFrom mode text = used ++ later → .bad ∉ used → used ≠ [] →
      ∃ before rest, text = before ++ rest ∧ lexFrom mode before = used)
    (split : lexAfter step text = used ++ later) (sound : .bad ∉ used) (some_ : used ≠ []) :
    ∃ before rest, text = before ++ rest ∧ lexAfter step before = used := by
  obtain ⟨first, used, rfl⟩ := List.exists_cons_of_ne_nil some_
  rcases shape with nothing | ⟨token, rfl⟩
  · obtain ⟨tokens, next⟩ := step
    obtain rfl : tokens = [] := nothing
    cases next with
    | none =>
        obtain rfl : .bad = first := (List.cons.inj split).1
        exact absurd (List.mem_cons_self ..) sound
    | some next => exact inner next _ split sound some_
  · obtain ⟨rfl, tail⟩ := List.cons.inj split
    by_cases last : used = []
    · exact ⟨[], text, rfl, by rw [last]; rfl⟩
    · obtain ⟨before, rest, parts, found⟩ :=
        inner .idle used tail (fun bad => sound (List.mem_cons_of_mem _ bad)) last
      exact ⟨before, rest, parts, congrArg (token :: ·) found⟩

/-- Some of the tokens of a text are the tokens of a part of it. -/
theorem lexFrom_prefix {mode : Mode} {text : List Char} {used later : List Token}
    (split : lexFrom mode text = used ++ later) (sound : .bad ∉ used) (some_ : used ≠ []) :
    ∃ before rest, text = before ++ rest ∧ lexFrom mode before = used := by
  induction text generalizing mode used with
  | nil =>
      refine ⟨[], [], rfl, ?_⟩
      have short : used.length + later.length ≤ 1 := by
        rw [← List.length_append, ← split]
        exact mode.length_finish
      have filled := List.length_pos_of_ne_nil some_
      have nothing : later = [] := List.length_eq_zero_iff.mp (by omega)
      rw [split, nothing, List.append_nil]
  | cons char text ih =>
      rw [lexFrom_eq_lexAfter] at split
      rcases mode.step_shape char with ⟨token, ends, found⟩ | shape
      · rw [found] at split
        obtain ⟨first, used, rfl⟩ := List.exists_cons_of_ne_nil some_
        obtain ⟨rfl, tail⟩ := List.cons.inj split
        by_cases last : used = []
        · -- The number ends where the next token starts.
          exact ⟨[], char :: text, rfl, by rw [last]; exact ends⟩
        · obtain ⟨before, rest, rfl, same⟩ := lexAfter_prefix (start_shape char)
            (fun _ _ split sound some_ => ih split sound some_) tail
            (fun bad => sound (List.mem_cons_of_mem _ bad)) last
          refine ⟨char :: before, rest, rfl, ?_⟩
          rw [lexFrom_eq_lexAfter, found, ← same]
          rfl
      · obtain ⟨before, rest, rfl, same⟩ := lexAfter_prefix shape
          (fun _ _ split sound some_ => ih split sound some_) split sound some_
        exact ⟨char :: before, rest, rfl, by rw [lexFrom_eq_lexAfter, same]⟩

/-! ### The value at the beginning -/

/-- The parser is done after some of the tokens. -/
theorem exists_parseRun_of_leadingFrom {limit : Nat} {found : List Token} {state : ParseState}
    {tree : Json} (leading : leadingFrom limit state found = some tree) :
    ∃ used later, found = used ++ later ∧ parseRun limit state used = some (.done tree) := by
  induction found generalizing state with
  | nil =>
      cases state with
      | done other =>
          obtain rfl := Option.some.inj leading
          exact ⟨[], [], rfl, rfl⟩
      | _ => cases leading
  | cons token found ih =>
      by_cases finished : ∃ other, state = .done other
      · obtain ⟨other, rfl⟩ := finished
        obtain rfl := Option.some.inj leading
        exact ⟨[], token :: found, rfl, rfl⟩
      · have goesOn : (parseStep limit state token).bind
            (fun next => leadingFrom limit next found) = some tree := by
          cases state with
          | done other => exact absurd ⟨other, rfl⟩ finished
          | _ => exact leading
        obtain ⟨next, step, leading⟩ := Option.bind_eq_some_iff.mp goesOn
        obtain ⟨used, later, rfl, run⟩ := ih leading
        exact ⟨token :: used, later, rfl, Option.bind_eq_some_iff.mpr ⟨next, step, run⟩⟩

/-- A text begins with a value exactly when a part of it is one, unless the value is a number. -/
theorem decodeLeading_iff {limit : Nat} {text : String} {value : Json}
    (noNumber : ∀ literal, value ≠ .number literal) :
    decodeLeading limit text = some value ↔ ∃ before rest, text.toList = before ++ rest ∧
      decode limit (String.ofList before) = some value := by
  constructor
  · intro leading
    obtain ⟨tree, found, rfl⟩ := Option.map_eq_some_iff.mp leading
    obtain ⟨parsed, valid⟩ := checked_eq_some_iff.mp found
    obtain ⟨used, later, split, run⟩ := exists_parseRun_of_leadingFrom parsed
    have whole : parseTree limit used = some tree := by
      rw [parseTree, run]
      rfl
    have some_ : used ≠ [] := by
      rintro rfl
      cases run
    obtain ⟨before, rest, parts, same⟩ := lexFrom_prefix split (not_bad_of_parseTree whole) some_
    refine ⟨before, rest, parts, Option.map_eq_some_iff.mpr ⟨tree, ?_, rfl⟩⟩
    rw [syntaxTree, checked_eq_some_iff, String.toList_ofList, lex, same]
    exact ⟨whole, valid⟩
  · rintro ⟨before, rest, parts, decoded⟩
    obtain ⟨tree, found, rfl⟩ := Option.map_eq_some_iff.mp decoded
    obtain ⟨parsed, valid⟩ := checked_eq_some_iff.mp found
    rw [String.toList_ofList] at parsed
    refine Option.map_eq_some_iff.mpr ⟨tree, checked_eq_some_iff.mpr ⟨?_, valid⟩, rfl⟩
    rw [parts, lex_append parsed ?_ rest]
    · exact parseLeading_append parsed _
    · rintro literal rfl
      exact noNumber literal rfl

/-! ### What follows it -/

/-- A mode that is begun goes on with one that is begun, unless a token is complete. -/
theorem Mode.step_begun {mode next : Mode} {char : Char} (begun : mode ≠ .idle)
    (step : mode.step char = ([], some next)) : next ≠ .idle := by
  rintro rfl
  cases mode with
  | idle => exact begun rfl
  | number phase read =>
      rcases Mode.step_number phase read char with ⟨_, -, found⟩ | ⟨-, found⟩ | found
      · cases step.symm.trans found
      · cases step.symm.trans found
      · cases step.symm.trans found
  | word token left =>
      rcases Mode.step_word token left char with ⟨-, found⟩ | ⟨_, -, found⟩ | found
      · cases step.symm.trans found
      · cases step.symm.trans found
      · cases step.symm.trans found
  | string read =>
      simp only [Mode.step] at step
      split_ifs at step <;> cases step
  | escape read => cases step

/-- Once a token is begun, something comes of it. -/
theorem lexFrom_ne_nil {mode : Mode} (begun : mode ≠ .idle) (text : List Char) :
    lexFrom mode text ≠ [] := by
  induction text generalizing mode with
  | nil =>
      cases mode with
      | idle => exact absurd rfl begun
      | number phase read =>
          rw [lexFrom, Mode.finish]
          split_ifs
          · exact List.cons_ne_nil _ _
          · exact List.cons_ne_nil _ _
      | _ => exact List.cons_ne_nil _ _
  | cons char text ih =>
      rcases step : mode.step char with ⟨tokens, next⟩
      cases next with
      | none =>
          rw [lexFrom_stuck step]
          exact List.append_ne_nil_of_right_ne_nil _ (List.cons_ne_nil _ _)
      | some next =>
          rw [lexFrom_cons step]
          cases tokens with
          | nil => exact ih (Mode.step_begun begun step)
          | cons token tokens => exact List.cons_ne_nil _ _

/-- Only white space has no tokens. -/
theorem lex_eq_nil_iff {text : List Char} :
    lex text = [] ↔ ∀ char ∈ text, isWhitespace char := by
  induction text with
  | nil => exact iff_of_true rfl (List.forall_mem_nil _)
  | cons char text ih =>
      rw [List.forall_mem_cons]
      by_cases blank : isWhitespace char = true
      · have stays : Mode.idle.step char = ([], some .idle) := if_pos blank
        rw [lex, lexFrom_cons stays, and_iff_right blank]
        exact ih
      · refine iff_of_false ?_ fun all => blank all.1
        rcases start_solid blank with ⟨token, -, step⟩ | ⟨next, step, inside⟩
        · have idle : Mode.idle.step char = ([token], some .idle) := step
          rw [lex, lexFrom_cons idle]
          exact List.cons_ne_nil _ _
        · have idle : Mode.idle.step char = ([], next) := step
          cases next with
          | none =>
              rw [lex, lexFrom_stuck idle]
              exact List.cons_ne_nil _ _
          | some mode =>
              rw [lex, lexFrom_cons idle]
              refine lexFrom_ne_nil ?_ text
              rintro rfl
              exact inside .idle rfl

/-- Where a part of a text is a value that is no number, the whole text is one exactly if only white
space follows, and then it is that value. -/
theorem decode_append_iff {limit : Nat} {text : String} {before rest : List Char}
    {value found : Json} (parts : text.toList = before ++ rest)
    (decoded : decode limit (String.ofList before) = some value)
    (noNumber : ∀ literal, value ≠ .number literal) :
    decode limit text = some found ↔
      (∀ char ∈ rest, isWhitespace char) ∧ found = value := by
  obtain ⟨tree, checked_, rfl⟩ := Option.map_eq_some_iff.mp decoded
  obtain ⟨parsed, valid⟩ := checked_eq_some_iff.mp checked_
  rw [String.toList_ofList] at parsed
  have apart : lex text.toList = lex before ++ lex rest := by
    rw [parts]
    refine lex_append parsed ?_ rest
    rintro literal rfl
    exact noNumber literal rfl
  constructor
  · intro whole
    obtain ⟨other, found_, rfl⟩ := Option.map_eq_some_iff.mp whole
    obtain ⟨also, -⟩ := checked_eq_some_iff.mp found_
    rw [apart] at also
    obtain ⟨nothing, rfl⟩ := parseTree_append parsed also
    exact ⟨lex_eq_nil_iff.mp nothing, rfl⟩
  · rintro ⟨blank, rfl⟩
    refine Option.map_eq_some_iff.mpr ⟨tree, checked_eq_some_iff.mpr ⟨?_, valid⟩, rfl⟩
    rw [apart, lex_eq_nil_iff.mpr blank, List.append_nil]
    exact parsed

/-! ### A text is nested less deeply than it is long -/

/-- The tokens that may still come of what is open. -/
def Mode.pending : Mode → Nat
  | idle => 0
  | _ => 1

/-- The first character of a token gives it or leaves it pending. -/
theorem length_start_le (char : Char) :
    (start char).1.length + ((start char).2.elim 1 Mode.pending) ≤ 1 := by
  rcases start_shape char with empty | ⟨token, step⟩
  · rw [empty, List.length_nil, Nat.zero_add]
    cases (start char).2 with
    | none => exact Nat.le_refl _
    | some mode => cases mode <;> simp [Mode.pending]
  · rw [step]
    exact Nat.le_refl _

/-- A character adds one token at most to what was open. -/
theorem Mode.length_step_le (mode : Mode) (char : Char) :
    (mode.step char).1.length + ((mode.step char).2.elim 1 Mode.pending) ≤ 1 + mode.pending := by
  rcases Mode.step_shape mode char with ⟨token, ends, step⟩ | empty | ⟨token, step⟩
  · have started := length_start_le char
    have one : mode.pending = 1 := by
      cases mode with
      | idle => cases ends
      | _ => rfl
    rw [step, one, List.length_cons]
    dsimp only
    omega
  · rw [empty, List.length_nil, Nat.zero_add]
    cases (mode.step char).2 with
    | none => exact Nat.le_add_right _ _
    | some next => cases next <;> simp [Mode.pending]
  · rw [step]
    exact Nat.le_add_right _ _

/-- A text has no more tokens than characters. -/
theorem length_lexFrom_le (mode : Mode) (text : List Char) :
    (lexFrom mode text).length ≤ text.length + mode.pending := by
  induction text generalizing mode with
  | nil =>
      rw [lexFrom, List.length_nil, Nat.zero_add]
      cases mode with
      | idle => exact Nat.le_refl _
      | _ => exact Mode.length_finish _
  | cons char text ih =>
      have bound := Mode.length_step_le mode char
      rcases step : mode.step char with ⟨tokens, next⟩
      rw [step] at bound
      cases next with
      | none =>
          rw [lexFrom_stuck step, List.length_append, List.length_singleton, List.length_cons]
          simp only [Option.elim_none] at bound
          omega
      | some next =>
          have later := ih next
          rw [lexFrom_cons step, List.length_append, List.length_cons]
          simp only [Option.elim_some] at bound
          omega

/-- An item has no more tokens than all items. -/
theorem length_tokens_le_items {items : List Json} {item : Json} (listed : item ∈ items) :
    (tokens item).length ≤ (itemTokens items).length := by
  induction items with
  | nil => cases listed
  | cons first items ih =>
      cases items with
      | nil => rw [List.mem_singleton.mp listed, itemTokens]
      | cons next items =>
          rw [itemTokens, List.length_append, List.length_cons]
          rcases List.mem_cons.mp listed with rfl | later
          · omega
          · have bound := ih later
            omega

/-- A value has no more tokens than all members. -/
theorem length_tokens_le_members {members : List (String × Json)} {member : String × Json}
    (listed : member ∈ members) : (tokens member.2).length ≤ (memberTokens members).length := by
  induction members with
  | nil => cases listed
  | cons first members ih =>
      obtain ⟨key, value⟩ := first
      cases members with
      | nil =>
          rw [List.mem_singleton.mp listed, memberTokens, List.length_cons, List.length_cons]
          exact (Nat.le_succ _).trans (Nat.le_succ _)
      | cons next members =>
          rw [memberTokens, List.length_append, List.length_cons, List.length_cons, List.length_cons]
          rcases List.mem_cons.mp listed with rfl | later
          · dsimp only
            omega
          · have bound := ih later
            omega

/-- Every level of a tree takes a token. -/
theorem depth_lt_length_tokens (tree : Json) : depth tree < (tokens tree).length := by
  induction tree using treeInduction with
  | array items ih =>
      have inner : itemsDepth items ≤ (itemTokens items).length :=
        itemsDepth_le_iff.mpr fun item listed =>
          (Nat.le_of_lt (ih item listed)).trans (length_tokens_le_items listed)
      rw [depth, tokens, List.length_append, List.length_cons, List.length_singleton]
      omega
  | object members ih =>
      have inner : membersDepth members ≤ (memberTokens members).length :=
        membersDepth_le_iff.mpr fun member listed =>
          (Nat.le_of_lt (ih member listed)).trans (length_tokens_le_members listed)
      rw [depth, tokens, List.length_append, List.length_cons, List.length_singleton]
      omega
  | _ => exact Nat.zero_lt_one

/-- The length of a text bounds its nesting. -/
theorem syntaxTree_length {limit : Nat} {text : String} {tree : Json}
    (found : syntaxTree limit text = some tree) : syntaxTree text.length text = some tree := by
  obtain ⟨read, -⟩ := parseTree_eq_some_iff.mp (checked_eq_some_iff.mp found).1
  have deep := depth_lt_length_tokens tree
  have long := length_lexFrom_le .idle text.toList
  rw [← read, lex] at deep
  rw [String.length_toList, Mode.pending] at long
  exact syntaxTree_of_depth found (by omega)

end MessagePusher.JsonText
