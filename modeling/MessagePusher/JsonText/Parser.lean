import MessagePusher.JsonText.Tree

/-!
# The parser

A machine with a stack that takes one token after the other, with a bound on the nesting. It
never looks into a string literal. `parseTree` reads a whole text, `parseLeading` the first
value of a text whatever comes after it.
-/

namespace MessagePusher.JsonText

open Common

/-- What a value is awaited for. -/
inductive Frame where
  | item (items : List Json)
  | member (members : List (String × Json)) (key : String)

/-- How far the parser is, and what is around it. -/
inductive ParseState where
  | value (frames : List Frame)
  | firstItem (frames : List Frame)
  | afterItem (items : List Json) (frames : List Frame)
  | firstKey (frames : List Frame)
  | nextKey (members : List (String × Json)) (frames : List Frame)
  | colon (members : List (String × Json)) (key : String) (frames : List Frame)
  | afterMember (members : List (String × Json)) (frames : List Frame)
  | done (tree : Json)

/-- The state after a value. -/
def deliver (tree : Json) : List Frame → ParseState
  | [] => .done tree
  | .item items :: frames => .afterItem (items ++ [tree]) frames
  | .member members key :: frames => .afterMember (members ++ [(key, tree)]) frames

section

variable (limit : Nat)

/-- A token where a value is awaited. -/
def startValue (frames : List Frame) : Token → Option ParseState
  | .null => some (deliver .null frames)
  | .bool value => some (deliver (.bool value) frames)
  | .number literal => some (deliver (.number (String.ofList literal)) frames)
  | .string raw => some (deliver (.string (String.ofList raw)) frames)
  | .beginArray => if frames.length < limit then some (.firstItem frames) else none
  | .beginObject => if frames.length < limit then some (.firstKey frames) else none
  | _ => none

/-- One token. -/
def parseStep : ParseState → Token → Option ParseState
  | .value frames, token => startValue limit frames token
  | .firstItem frames, .endArray => some (deliver (.array []) frames)
  | .firstItem frames, token => startValue limit (.item [] :: frames) token
  | .afterItem items frames, .comma => some (.value (.item items :: frames))
  | .afterItem items frames, .endArray => some (deliver (.array items) frames)
  | .firstKey frames, .endObject => some (deliver (.object []) frames)
  | .firstKey frames, .string raw => some (.colon [] (String.ofList raw) frames)
  | .nextKey members frames, .string raw => some (.colon members (String.ofList raw) frames)
  | .colon members key frames, .colon => some (.value (.member members key :: frames))
  | .afterMember members frames, .comma => some (.nextKey members frames)
  | .afterMember members frames, .endObject => some (deliver (.object members) frames)
  | _, _ => none

/-- The parser over a list of tokens. -/
def parseRun (state : ParseState) (tokens : List Token) : Option ParseState :=
  tokens.foldlM (parseStep limit) state

/-- The tree of a parser that is through. -/
def ParseState.tree? : ParseState → Option Json
  | done tree => some tree
  | _ => none

/-- The tree of raw literals of a whole text. -/
def parseTree (tokens : List Token) : Option Json :=
  (parseRun limit (.value []) tokens).bind ParseState.tree?

/-- The first value from a state on. -/
def leadingFrom : ParseState → List Token → Option Json
  | .done tree, _ => some tree
  | _, [] => none
  | state, token :: tokens => (parseStep limit state token).bind fun next => leadingFrom next tokens

/-- The first tree of the tokens, whatever follows it. -/
def parseLeading (tokens : List Token) : Option Json := leadingFrom limit (.value []) tokens

end

variable {limit : Nat}

@[simp] theorem parseRun_nil (state : ParseState) : parseRun limit state [] = some state := rfl

/-- A run is a step and the rest of the run. -/
@[simp]
theorem parseRun_cons (state : ParseState) (token : Token) (rest : List Token) :
    parseRun limit state (token :: rest) =
      (parseStep limit state token).bind fun next => parseRun limit next rest := rfl

/-! ### The parser does not look into literals -/

/-- A change of characters, as one of strings. -/
def overChars (change : List Char → List Char) (text : String) : String :=
  String.ofList (change text.toList)

@[simp]
theorem overChars_ofList (change : List Char → List Char) (chars : List Char) :
    overChars change (String.ofList chars) = String.ofList (change chars) := by
  rw [overChars, String.toList_ofList]

@[simp]
theorem overChars_toList (change : List Char → List Char) (text : String) :
    (overChars change text).toList = change text.toList := by
  rw [overChars, String.toList_ofList]

/-- A change of the strings that a frame holds. -/
def Frame.map (change : String → String) : Frame → Frame
  | item items => .item (items.map (mapStrings change))
  | member members key =>
      .member (members.map fun member => (change member.1, mapStrings change member.2)) (change key)

/-- A change of the strings that a state holds. -/
def ParseState.map (change : String → String) : ParseState → ParseState
  | value frames => .value (frames.map (Frame.map change))
  | firstItem frames => .firstItem (frames.map (Frame.map change))
  | afterItem items frames =>
      .afterItem (items.map (mapStrings change)) (frames.map (Frame.map change))
  | firstKey frames => .firstKey (frames.map (Frame.map change))
  | nextKey members frames =>
      .nextKey (members.map fun member => (change member.1, mapStrings change member.2))
        (frames.map (Frame.map change))
  | colon members name frames =>
      .colon (members.map fun member => (change member.1, mapStrings change member.2)) (change name)
        (frames.map (Frame.map change))
  | afterMember members frames =>
      .afterMember (members.map fun member => (change member.1, mapStrings change member.2))
        (frames.map (Frame.map change))
  | done tree => .done (mapStrings change tree)

/-- A tree is delivered with its strings changed. -/
@[simp]
theorem deliver_map (change : String → String) (tree : Json) (frames : List Frame) :
    (deliver tree frames).map change =
      deliver (mapStrings change tree) (frames.map (Frame.map change)) := by
  cases frames with
  | nil => rfl
  | cons frame frames => cases frame <;> simp [deliver, Frame.map, ParseState.map]

variable {change : List Char → List Char}

/-- A value starts alike when the strings are changed. -/
theorem startValue_map (frames : List Frame) (token : Token) :
    startValue limit (frames.map (Frame.map (overChars change))) (token.mapString change) =
      (startValue limit frames token).map (ParseState.map (overChars change)) := by
  cases token <;>
    simp only [Token.mapString, startValue, List.length_map, Option.map_some, Option.map_none,
      deliver_map, mapStrings, overChars_ofList]
  all_goals split_ifs <;> rfl

/-- A step does not look into the strings. -/
theorem parseStep_map (state : ParseState) (token : Token) :
    parseStep limit (state.map (overChars change)) (token.mapString change) =
      (parseStep limit state token).map (ParseState.map (overChars change)) := by
  cases state with
  | value frames => exact startValue_map frames token
  | firstItem frames =>
      have inner := @startValue_map limit change (.item [] :: frames) token
      cases token with
      | endArray => exact congrArg some (deliver_map _ (.array []) frames).symm
      | _ => exact inner
  | afterItem items frames =>
      have whole := deliver_map (overChars change) (.array items) frames
      rw [mapStrings, mapItems_eq] at whole
      cases token with
      | endArray => exact congrArg some whole.symm
      | _ => rfl
  | firstKey frames =>
      cases token with
      | endObject => exact congrArg some (deliver_map _ (.object []) frames).symm
      | string raw => simp [ParseState.map, Token.mapString, parseStep]
      | _ => rfl
  | nextKey members frames =>
      cases token with
      | string raw => simp [ParseState.map, Token.mapString, parseStep]
      | _ => rfl
  | colon => cases token <;> rfl
  | afterMember members frames =>
      have whole := deliver_map (overChars change) (.object members) frames
      rw [mapStrings, mapMembers_eq] at whole
      cases token with
      | endObject => exact congrArg some whole.symm
      | _ => rfl
  | done tree => cases token <;> rfl

/-- A run does not look into the strings. -/
theorem parseRun_map (state : ParseState) (tokens : List Token) :
    parseRun limit (state.map (overChars change)) (tokens.map (Token.mapString change)) =
      (parseRun limit state tokens).map (ParseState.map (overChars change)) := by
  induction tokens generalizing state with
  | nil => rfl
  | cons token tokens ih =>
      rw [List.map_cons, parseRun_cons, parseRun_cons, parseStep_map]
      cases parseStep limit state token with
      | none => rfl
      | some next => exact ih next

/-- Tokens with changed literals parse to the tree with changed literals. -/
theorem parseTree_map (tokens : List Token) :
    parseTree limit (tokens.map (Token.mapString change)) =
      (parseTree limit tokens).map (mapStrings (overChars change)) := by
  have run : parseRun limit (.value []) (tokens.map (Token.mapString change)) =
      (parseRun limit (.value []) tokens).map (ParseState.map (overChars change)) :=
    parseRun_map (.value []) tokens
  rw [parseTree, parseTree, run]
  cases parseRun limit (.value []) tokens with
  | none => rfl
  | some state => cases state <;> rfl

/-- A text with a bad token has no tree. -/
theorem parseRun_bad {tokens : List Token} (bad : .bad ∈ tokens) (state : ParseState) :
    parseRun limit state tokens = none := by
  induction tokens generalizing state with
  | nil => cases bad
  | cons token tokens ih =>
      rw [parseRun_cons]
      rcases List.mem_cons.mp bad with rfl | later
      · cases state <;> rfl
      · cases parseStep limit state token with
        | none => rfl
        | some next => exact ih later next

/-- What is parsed has no bad token. -/
theorem not_bad_of_parseTree {tokens : List Token} {tree : Json}
    (parsed : parseTree limit tokens = some tree) : .bad ∉ tokens := by
  intro bad
  rw [parseTree, parseRun_bad bad] at parsed
  cases parsed

/-! ### What a token can change -/

/-- The tokens that are values, and the trees they stand for. -/
inductive Scalar : Token → Json → Prop where
  | null : Scalar .null .null
  | bool {value} : Scalar (.bool value) (.bool value)
  | number {literal} : Scalar (.number literal) (.number (String.ofList literal))
  | string {raw} : Scalar (.string raw) (.string (String.ofList raw))

/-- A value is a scalar, or opens an array or an object below the limit. -/
theorem startValue_cases {frames : List Frame} {token : Token} {next : ParseState}
    (step : startValue limit frames token = some next) :
    (∃ tree, Scalar token tree ∧ next = deliver tree frames) ∨
      (frames.length < limit ∧ (next = .firstItem frames ∨ next = .firstKey frames)) := by
  cases token with
  | null => exact .inl ⟨_, .null, (Option.some.inj step).symm⟩
  | bool value => exact .inl ⟨_, .bool, (Option.some.inj step).symm⟩
  | number literal => exact .inl ⟨_, .number, (Option.some.inj step).symm⟩
  | string raw => exact .inl ⟨_, .string, (Option.some.inj step).symm⟩
  | beginArray | beginObject =>
      simp only [startValue] at step
      split_ifs at step with room
      obtain rfl := Option.some.inj step
      simp [room]
  | _ => cases step

/-! ### What the parser keeps of the values it has read -/

/-- A property of values at a nesting depth that arrays and objects have when all that is in
them has it. -/
structure Inherited (limit : Nat) (Holds : Nat → Json → Prop) : Prop where
  array : ∀ level < limit, ∀ items, (∀ item ∈ items, Holds (level + 1) item) →
    Holds level (.array items)
  object : ∀ level < limit, ∀ members, (∀ member ∈ members, Holds (level + 1) member.2) →
    Holds level (.object members)

section

variable (limit : Nat) (Holds : Nat → Json → Prop)

/-- All values in the frames have the property, each at its depth. -/
def FramesHold : List Frame → Prop
  | [] => True
  | .item items :: frames =>
      frames.length < limit ∧ (∀ item ∈ items, Holds (frames.length + 1) item) ∧
        FramesHold frames
  | .member members _ :: frames =>
      frames.length < limit ∧ (∀ member ∈ members, Holds (frames.length + 1) member.2) ∧
        FramesHold frames

/-- Every tree that the state has collected has the property, at its level. -/
def StateHolds : ParseState → Prop
  | .value frames => FramesHold limit Holds frames
  | .firstItem frames | .firstKey frames => frames.length < limit ∧ FramesHold limit Holds frames
  | .afterItem items frames =>
      frames.length < limit ∧ (∀ item ∈ items, Holds (frames.length + 1) item) ∧
        FramesHold limit Holds frames
  | .nextKey members frames | .colon members _ frames | .afterMember members frames =>
      frames.length < limit ∧ (∀ member ∈ members, Holds (frames.length + 1) member.2) ∧
        FramesHold limit Holds frames
  | .done tree => Holds 0 tree

end

variable {Holds : Nat → Json → Prop}

/-- The frames are no more than the limit. -/
theorem FramesHold.length_le {frames : List Frame} (held : FramesHold limit Holds frames) :
    frames.length ≤ limit := by
  cases frames with
  | nil => exact Nat.zero_le _
  | cons frame frames => cases frame <;> exact held.1

/-- A tree with the property may be delivered. -/
theorem FramesHold.deliver {frames : List Frame} {tree : Json}
    (held : FramesHold limit Holds frames) (holds : Holds frames.length tree) :
    StateHolds limit Holds (deliver tree frames) := by
  cases frames with
  | nil => exact holds
  | cons frame frames =>
      cases frame with
      | item items =>
          refine ⟨held.1, ?_, held.2.2⟩
          intro item listed
          rcases List.mem_append.mp listed with before | last
          · exact held.2.1 item before
          · obtain rfl := List.mem_singleton.mp last
            exact holds
      | member members key =>
          refine ⟨held.1, ?_, held.2.2⟩
          intro member listed
          rcases List.mem_append.mp listed with before | last
          · exact held.2.1 member before
          · obtain rfl := List.mem_singleton.mp last
            exact holds

/-- The start of a value keeps the property when scalars have it. -/
theorem StateHolds.startValue {frames : List Frame} {token : Token} {next : ParseState}
    (held : FramesHold limit Holds frames)
    (scalars : ∀ tree, Scalar token tree → ∀ level ≤ limit, Holds level tree)
    (step : startValue limit frames token = some next) : StateHolds limit Holds next := by
  rcases startValue_cases step with ⟨tree, scalar, rfl⟩ | ⟨room, rfl | rfl⟩
  · exact held.deliver (scalars tree scalar _ held.length_le)
  · exact ⟨room, held⟩
  · exact ⟨room, held⟩

/-- A step keeps a property that arrays and objects inherit from what they hold. -/
theorem StateHolds.step {state next : ParseState} {token : Token}
    (inherited : Inherited limit Holds) (held : StateHolds limit Holds state)
    (scalars : ∀ tree, Scalar token tree → ∀ level ≤ limit, Holds level tree)
    (step : parseStep limit state token = some next) : StateHolds limit Holds next := by
  cases state with
  | value frames => exact .startValue held scalars step
  | firstItem frames =>
      have inner : FramesHold limit Holds (.item [] :: frames) := ⟨held.1, by simp, held.2⟩
      cases token with
      | endArray =>
          obtain rfl := Option.some.inj step
          exact held.2.deliver (inherited.array _ held.1 [] (by simp))
      | _ => exact .startValue inner scalars step
  | afterItem items frames =>
      cases token with
      | comma =>
          obtain rfl := Option.some.inj step
          exact held
      | endArray =>
          obtain rfl := Option.some.inj step
          exact held.2.2.deliver (inherited.array _ held.1 items held.2.1)
      | _ => cases step
  | firstKey frames =>
      cases token with
      | endObject =>
          obtain rfl := Option.some.inj step
          exact held.2.deliver (inherited.object _ held.1 [] (by simp))
      | string raw =>
          obtain rfl := Option.some.inj step
          exact ⟨held.1, by simp, held.2⟩
      | _ => cases step
  | nextKey members frames =>
      cases token with
      | string raw =>
          obtain rfl := Option.some.inj step
          exact held
      | _ => cases step
  | colon members key frames =>
      cases token with
      | colon =>
          obtain rfl := Option.some.inj step
          exact held
      | _ => cases step
  | afterMember members frames =>
      cases token with
      | comma =>
          obtain rfl := Option.some.inj step
          exact held
      | endObject =>
          obtain rfl := Option.some.inj step
          exact held.2.2.deliver (inherited.object _ held.1 members held.2.1)
      | _ => cases step
  | done tree => cases token <;> cases step

/-- What the values of the tokens have and arrays and objects inherit, the first value of a text
has. -/
theorem parseLeading_holds {tokens : List Token} {tree : Json} (inherited : Inherited limit Holds)
    (scalars : ∀ token ∈ tokens, ∀ tree, Scalar token tree → ∀ level ≤ limit, Holds level tree)
    (parsed : parseLeading limit tokens = some tree) : Holds 0 tree := by
  have general : ∀ state, StateHolds limit Holds state → leadingFrom limit state tokens = some tree →
      Holds 0 tree := by
    clear parsed
    induction tokens with
    | nil =>
        intro state held parsed
        cases state with
        | done found =>
            obtain rfl := Option.some.inj parsed
            exact held
        | _ => cases parsed
    | cons token tokens ih =>
        rw [List.forall_mem_cons] at scalars
        intro state held parsed
        by_cases finished : ∃ found, state = .done found
        · obtain ⟨found, rfl⟩ := finished
          obtain rfl := Option.some.inj parsed
          exact held
        · have goesOn : (parseStep limit state token).bind
              (fun next => leadingFrom limit next tokens) = some tree := by
            cases state with
            | done found => exact absurd ⟨found, rfl⟩ finished
            | _ => exact parsed
          obtain ⟨next, step, parsed⟩ := Option.bind_eq_some_iff.mp goesOn
          exact ih scalars.2 next (held.step inherited scalars.1 step) parsed
  exact general (.value []) trivial parsed

/-! ### The strings of a parsed text -/

/-- The string of a token, if it is one. -/
def Token.strings : Token → List String
  | .string raw => [String.ofList raw]
  | _ => []

/-- The strings that the frames hold, the outermost first. -/
def framesStrings : List Frame → List String
  | [] => []
  | .item items :: frames => framesStrings frames ++ items.flatMap strings
  | .member members key :: frames =>
      framesStrings frames ++ members.flatMap (fun member => member.1 :: strings member.2) ++ [key]

/-- The strings that the state holds, in the order of the text. -/
def ParseState.strings : ParseState → List String
  | value frames | firstItem frames | firstKey frames => framesStrings frames
  | afterItem items frames => framesStrings frames ++ items.flatMap JsonText.strings
  | nextKey members frames | afterMember members frames =>
      framesStrings frames ++ members.flatMap fun member => member.1 :: JsonText.strings member.2
  | colon members key frames =>
      framesStrings frames ++
        members.flatMap (fun member => member.1 :: JsonText.strings member.2) ++ [key]
  | done tree => JsonText.strings tree

/-- A tree that is delivered brings its strings. -/
theorem strings_deliver (tree : Json) (frames : List Frame) :
    (deliver tree frames).strings = framesStrings frames ++ strings tree := by
  match frames with
  | [] => rfl
  | .item items :: frames => simp [deliver, ParseState.strings, framesStrings]
  | .member members key :: frames => simp [deliver, ParseState.strings, framesStrings]

/-- The start of a value brings the string of its token. -/
theorem strings_startValue {frames : List Frame} {token : Token} {next : ParseState}
    (step : startValue limit frames token = some next) :
    next.strings = framesStrings frames ++ token.strings := by
  cases token with
  | beginArray | beginObject =>
      simp only [startValue] at step
      split_ifs at step
      obtain rfl := Option.some.inj step
      exact (List.append_nil _).symm
  | null | bool | number | string =>
      obtain rfl := Option.some.inj step
      exact strings_deliver _ frames
  | _ => cases step

/-- A step neither loses nor invents a string. -/
theorem strings_parseStep {state next : ParseState} {token : Token}
    (step : parseStep limit state token = some next) :
    next.strings = state.strings ++ token.strings := by
  cases state with
  | value frames => exact strings_startValue step
  | firstItem frames =>
      have item : startValue limit (.item [] :: frames) token = some next →
          next.strings = framesStrings frames ++ token.strings := by
        intro step
        rw [strings_startValue step]
        simp [framesStrings]
      cases token with
      | endArray =>
          obtain rfl := Option.some.inj step
          exact strings_deliver _ frames
      | _ => exact item step
  | afterItem items frames =>
      cases token with
      | comma =>
          obtain rfl := Option.some.inj step
          exact (List.append_nil _).symm
      | endArray =>
          obtain rfl := Option.some.inj step
          rw [strings_deliver]
          simp [ParseState.strings, Token.strings, strings]
      | _ => cases step
  | firstKey frames =>
      cases token with
      | endObject =>
          obtain rfl := Option.some.inj step
          exact strings_deliver _ frames
      | string raw =>
          obtain rfl := Option.some.inj step
          simp [ParseState.strings, Token.strings]
      | _ => cases step
  | nextKey members frames =>
      cases token with
      | string raw =>
          obtain rfl := Option.some.inj step
          rfl
      | _ => cases step
  | colon members key frames =>
      cases token with
      | colon =>
          obtain rfl := Option.some.inj step
          exact (List.append_nil _).symm
      | _ => cases step
  | afterMember members frames =>
      cases token with
      | comma =>
          obtain rfl := Option.some.inj step
          exact (List.append_nil _).symm
      | endObject =>
          obtain rfl := Option.some.inj step
          rw [strings_deliver]
          simp [ParseState.strings, Token.strings, strings]
      | _ => cases step
  | done tree => cases token <;> cases step

/-- The strings of a tree are those of its text, in order. -/
theorem strings_of_parseTree {tokens : List Token} {tree : Json}
    (parsed : parseTree limit tokens = some tree) : strings tree = tokens.flatMap Token.strings := by
  have general : ∀ state next, parseRun limit state tokens = some next →
      next.strings = state.strings ++ tokens.flatMap Token.strings := by
    clear parsed
    induction tokens with
    | nil =>
        intro state next run
        obtain rfl := Option.some.inj run
        exact (List.append_nil _).symm
    | cons token tokens ih =>
        intro state last run
        rw [parseRun_cons] at run
        obtain ⟨next, step, goesOn⟩ := Option.bind_eq_some_iff.mp run
        rw [ih next last goesOn, strings_parseStep step, List.flatMap_cons, List.append_assoc]
  obtain ⟨last, run, isTree⟩ := Option.bind_eq_some_iff.mp parsed
  cases last with
  | done found =>
      obtain rfl := Option.some.inj isTree
      exact general _ _ run
  | _ => cases isTree

/-! ### The tokens of a tree -/

/-- The parser reads the tokens of a tree as the tree, wherever a value is awaited. -/
def Parses (limit : Nat) (tree : Json) : Prop :=
  ∀ frames rest, frames.length + depth tree ≤ limit →
    parseRun limit (.value frames) (tokens tree ++ rest) = parseRun limit (deliver tree frames) rest

/-- No tree starts with the end of an array. -/
theorem parseRun_firstItem (tree : Json) (frames : List Frame) (rest : List Token) :
    parseRun limit (.firstItem frames) (tokens tree ++ rest) =
      parseRun limit (.value (.item [] :: frames)) (tokens tree ++ rest) := by
  cases tree <;> rfl

/-- The tokens of items that parse are collected into an array. -/
theorem parseRun_itemTokens {item : Json} {items : List Json}
    (each : ∀ other ∈ item :: items, Parses limit other) (before : List Json) (frames : List Frame)
    (shallow : frames.length + 1 + itemsDepth (item :: items) ≤ limit) (rest : List Token) :
    parseRun limit (.value (.item before :: frames))
        (itemTokens (item :: items) ++ .endArray :: rest) =
      parseRun limit (deliver (.array (before ++ item :: items)) frames) rest := by
  induction items generalizing item before with
  | nil =>
      rw [List.forall_mem_singleton] at each
      rw [itemsDepth] at shallow
      rw [itemTokens, each _ _ (by rw [List.length_cons]; omega)]
      rfl
  | cons next items ih =>
      rw [List.forall_mem_cons] at each
      rw [itemsDepth] at shallow
      have room : (Frame.item before :: frames).length + depth item ≤ limit := by
        rw [List.length_cons]
        omega
      rw [itemTokens, List.append_assoc, List.cons_append, each.1 _ _ room]
      have later := ih each.2 (before ++ [item]) (by omega)
      rw [List.append_assoc, List.singleton_append] at later
      exact later

/-- A key and its colon come before a value. -/
theorem parseRun_key (before : List (String × Json)) (key : String) (frames : List Frame)
    (rest : List Token) :
    parseRun limit (.nextKey before frames) (.string key.toList :: .colon :: rest) =
      parseRun limit (.value (.member before key :: frames)) rest := by
  simp [parseStep]

/-- The tokens of members that parse are collected into an object. -/
theorem parseRun_memberTokens {member : String × Json} {members : List (String × Json)}
    (each : ∀ other ∈ member :: members, Parses limit other.2) (before : List (String × Json))
    (frames : List Frame) (shallow : frames.length + 1 + membersDepth (member :: members) ≤ limit)
    (rest : List Token) :
    parseRun limit (.nextKey before frames) (memberTokens (member :: members) ++ .endObject :: rest) =
      parseRun limit (deliver (.object (before ++ member :: members)) frames) rest := by
  induction members generalizing member before with
  | nil =>
      obtain ⟨key, value⟩ := member
      rw [List.forall_mem_singleton] at each
      rw [membersDepth] at shallow
      have room : (Frame.member before key :: frames).length + depth value ≤ limit := by
        rw [List.length_cons]
        omega
      rw [memberTokens, List.cons_append, List.cons_append, parseRun_key, each _ _ room]
      rfl
  | cons next members ih =>
      obtain ⟨key, value⟩ := member
      rw [List.forall_mem_cons] at each
      rw [membersDepth] at shallow
      have room : (Frame.member before key :: frames).length + depth value ≤ limit := by
        rw [List.length_cons]
        omega
      have later := ih each.2 (before ++ [(key, value)]) (by omega)
      rw [List.append_assoc, List.singleton_append] at later
      simp only [memberTokens, List.cons_append, List.append_assoc]
      rw [parseRun_key, each.1 _ _ room]
      exact later

/-- The tokens of every tree parse to it, down to the limit. -/
theorem parses (tree : Json) : Parses limit tree := by
  induction tree using treeInduction with
  | null | bool => exact fun _ _ _ => rfl
  | number literal =>
      intro frames rest _
      simp [tokens, parseStep, startValue]
  | string raw =>
      intro frames rest _
      simp [tokens, parseStep, startValue]
  | array items ih =>
      intro frames rest shallow
      rw [depth] at shallow
      have room : frames.length < limit := by omega
      have opens : ∀ more, parseRun limit (.value frames) (.beginArray :: more) =
          parseRun limit (.firstItem frames) more := by
        intro more
        rw [parseRun_cons, parseStep, startValue, if_pos room, Option.bind_some]
      rw [tokens, List.append_assoc, List.cons_append, opens, List.singleton_append]
      cases items with
      | nil => rfl
      | cons item items =>
          rw [← List.nil_append (item :: items), ← parseRun_itemTokens ih [] frames (by omega) rest]
          cases items with
          | nil => exact parseRun_firstItem item frames _
          | cons next items =>
              rw [List.nil_append, itemTokens, List.append_assoc]
              exact parseRun_firstItem item frames _
  | object members ih =>
      intro frames rest shallow
      rw [depth] at shallow
      have room : frames.length < limit := by omega
      have opens : ∀ more, parseRun limit (.value frames) (.beginObject :: more) =
          parseRun limit (.firstKey frames) more := by
        intro more
        rw [parseRun_cons, parseStep, startValue, if_pos room, Option.bind_some]
      rw [tokens, List.append_assoc, List.cons_append, opens, List.singleton_append]
      cases members with
      | nil => rfl
      | cons member members =>
          rw [← List.nil_append (member :: members),
            ← parseRun_memberTokens ih [] frames (by omega) rest]
          obtain ⟨key, value⟩ := member
          cases members <;> rfl

/-- The tokens of a tree parse to the tree. -/
theorem parseTree_tokens {tree : Json} (shallow : depth tree ≤ limit) :
    parseTree limit (tokens tree) = some tree := by
  have run := parses tree [] [] (by simpa using shallow)
  rw [List.append_nil] at run
  rw [parseTree, run]
  rfl

/-- A tree is parsed by a run that is through at the end. -/
theorem exists_parseRun_of_parseTree {tokens : List Token} {tree : Json}
    (parsed : parseTree limit tokens = some tree) :
    parseRun limit (.value []) tokens = some (.done tree) := by
  obtain ⟨last, run, isTree⟩ := Option.bind_eq_some_iff.mp parsed
  cases last with
  | done found =>
      obtain rfl := Option.some.inj isTree
      exact run
  | _ => cases isTree

/-- What parses as a whole is also found as the first value, whatever follows. -/
theorem parseLeading_append {tokens : List Token} {tree : Json}
    (parsed : parseTree limit tokens = some tree) (later : List Token) :
    parseLeading limit (tokens ++ later) = some tree := by
  have general : ∀ state, parseRun limit state tokens = some (.done tree) →
      leadingFrom limit state (tokens ++ later) = some tree := by
    clear parsed
    induction tokens with
    | nil =>
        intro state run
        obtain rfl := Option.some.inj run
        cases later <;> rfl
    | cons token tokens ih =>
        intro state run
        rw [parseRun_cons] at run
        obtain ⟨next, step, goesOn⟩ := Option.bind_eq_some_iff.mp run
        cases state with
        | done found => cases token <;> cases step
        | _ => exact Option.bind_eq_some_iff.mpr ⟨next, step, ih next goesOn⟩
  exact general _ (exists_parseRun_of_parseTree parsed)

/-- A whole text has its tree in front. -/
theorem parseLeading_of_parseTree {tokens : List Token} {tree : Json}
    (parsed : parseTree limit tokens = some tree) : parseLeading limit tokens = some tree := by
  have followed := parseLeading_append parsed []
  rwa [List.append_nil] at followed

/-- Nothing follows a tree in what parses as a whole. -/
theorem parseTree_append {tokens later : List Token} {tree other : Json}
    (parsed : parseTree limit tokens = some tree)
    (whole : parseTree limit (tokens ++ later) = some other) : later = [] ∧ other = tree := by
  have run := exists_parseRun_of_parseTree parsed
  have goesOn := exists_parseRun_of_parseTree whole
  rw [parseRun, List.foldlM_append] at goesOn
  obtain ⟨state, first, rest⟩ := Option.bind_eq_some_iff.mp goesOn
  obtain rfl := Option.some.inj (run.symm.trans first)
  cases later with
  | nil => exact ⟨rfl, ParseState.done.inj (Option.some.inj rest).symm⟩
  | cons token later =>
      have goesOn : parseRun limit (.done tree) (token :: later) = some (.done other) := rest
      rw [parseRun_cons] at goesOn
      obtain ⟨next, step, -⟩ := Option.bind_eq_some_iff.mp goesOn
      cases token <;> cases step

/-! ### More nesting -/

variable {more : Nat}

/-- A value that starts below a limit starts below a higher one. -/
theorem startValue_mono (le : limit ≤ more) {frames : List Frame} {token : Token} {next : ParseState}
    (step : startValue limit frames token = some next) : startValue more frames token = some next := by
  cases token with
  | beginArray | beginObject =>
      simp only [startValue] at step ⊢
      split_ifs at step with room
      rw [if_pos (Nat.lt_of_lt_of_le room le), step]
  | _ => exact step

theorem parseStep_firstItem {token : Token} (more_ : token ≠ .endArray) (frames : List Frame) :
    parseStep limit (.firstItem frames) token = startValue limit (.item [] :: frames) token := by
  cases token with
  | endArray => exact absurd rfl more_
  | _ => rfl

/-- A step below a limit is one below a higher one. -/
theorem parseStep_mono (le : limit ≤ more) {state next : ParseState} {token : Token}
    (step : parseStep limit state token = some next) : parseStep more state token = some next := by
  cases state with
  | value frames => exact startValue_mono le step
  | firstItem frames =>
      by_cases ends : token = .endArray
      · subst ends
        exact step
      · rw [parseStep_firstItem ends] at step ⊢
        exact startValue_mono le step
  | _ => cases token <;> exact step

/-- A text that is read with a bound on its nesting is read alike with a higher one. -/
theorem parseTree_mono (le : limit ≤ more) {tokens : List Token} {tree : Json}
    (parsed : parseTree limit tokens = some tree) : parseTree more tokens = some tree := by
  have run : ∀ state last, parseRun limit state tokens = some last →
      parseRun more state tokens = some last := by
    clear parsed
    induction tokens with
    | nil => exact fun _ _ run => run
    | cons token tokens ih =>
        intro state last run
        obtain ⟨next, step, goesOn⟩ := Option.bind_eq_some_iff.mp run
        exact Option.bind_eq_some_iff.mpr ⟨next, parseStep_mono le step, ih next last goesOn⟩
  obtain ⟨last, found, isTree⟩ := Option.bind_eq_some_iff.mp parsed
  exact Option.bind_eq_some_iff.mpr ⟨last, run _ last found, isTree⟩

end MessagePusher.JsonText
