import Mathlib.Data.List.DropRight
import MessagePusher.Common.Variables
import MessagePusher.JsonText.Lengths
import MessagePusher.Template.Placeholders
import MessagePusher.Template.Quoting

/-!
# A dot behind a variable

A dot behind a plain value is text. `RenderTemplate` takes it for a path where the value begins like
JSON, whether it is JSON or not.
-/

namespace MessagePusher.Template

open JsonText

/-! ### Which values a path leads into -/

section

open Common

variable {text : String} {value node found : Json} {segment : String} {path : List String}

/-- What a path finds in a node is a part of it. -/
theorem templateChild_within (child : templateChild node segment = some found) :
    IsContainer node ∧ Within found node := by
  cases node with
  | object members =>
      obtain ⟨before, after, rfl, -⟩ := List.lookup_eq_some_iff.mp child
      exact ⟨trivial, .member (List.mem_append_right before List.mem_cons_self) .self⟩
  | array items =>
      refine ⟨trivial, ?_⟩
      simp only [templateChild] at child
      split at child
      · split_ifs at child
        exact .item (List.mem_of_getElem? child) .self
      · cases child
  | _ => cases child

/-- What the values under a path are like: their numbers are JSON numbers, and their strings are
short. -/
def Bounded (bound : Nat) (value : Json) : Prop := NumbersValid value ∧ StringsBelow bound value

/-- The strings of a text are no longer than it. -/
theorem bounded_of_decodeValue (decoded : decodeValue text = some value) :
    Bounded text.toList.length value :=
  ⟨(decoded_of_decodeValue decoded).numbers, stringsBelow_of_decodeValue decoded⟩

/-- The first round of a path that resolves. -/
theorem round_of_resolved {segment : String}
    (resolved : resolveTemplatePath value (segment :: path) = some found) :
    ∃ node next, templateNode value = some node ∧ templateChild node segment = some next ∧
      resolveTemplatePath next path = some found := by
  rw [resolveTemplatePath] at resolved
  split_ifs at resolved
  obtain ⟨node, isNode, resolved⟩ := Option.bind_eq_some_iff.mp resolved
  obtain ⟨next, child, resolved⟩ := Option.bind_eq_some_iff.mp resolved
  exact ⟨node, next, isNode, child, resolved⟩

/-- What a path finds is no longer than what it was looked up in. -/
theorem Bounded.resolve {bound : Nat} (bounded : Bounded bound value)
    (resolved : resolveTemplatePath value path = some found) : Bounded bound found := by
  induction path generalizing value with
  | nil =>
      cases resolved
      exact bounded
  | cons segment path ih =>
      obtain ⟨node, next, isNode, child, resolved⟩ := round_of_resolved resolved
      have inner := (templateChild_within child).2
      have nodeBounded : Bounded bound node := by
        cases value with
        | string text =>
            obtain ⟨numbers, strings⟩ := bounded_of_decodeValue isNode
            exact ⟨numbers, strings.mono (Nat.le_of_lt (bounded.2 text .self))⟩
        | _ =>
            obtain rfl := Option.some.inj isNode
            exact bounded
      exact ih ⟨fun literal inside => nodeBounded.1 literal (inside.trans inner),
        nodeBounded.2.within inner⟩ resolved

/-- What a path leads to within a string is shorter than the string. -/
theorem bounded_of_resolve_string (some_ : path ≠ [])
    (resolved : resolveTemplatePath (.string text) path = some found) :
    Bounded text.toList.length found := by
  obtain ⟨segment, path, rfl⟩ := List.exists_cons_of_ne_nil some_
  obtain ⟨node, next, isNode, child, resolved⟩ := round_of_resolved resolved
  have inner := (templateChild_within child).2
  obtain ⟨numbers, strings⟩ := bounded_of_decodeValue isNode
  exact Bounded.resolve ⟨fun literal inside => numbers literal (inside.trans inner),
    strings.within inner⟩ resolved

/-! ### Which values begin like JSON -/

/-- A text that begins with a bracket may be looked into. -/
theorem isTemplatePathCapable_of_beginsBracket (begins : BeginsBracket text.toList) :
    isTemplatePathCapable (.string text) := by
  obtain ⟨blank, bracket, rest, split, white, is⟩ := begins
  have blanks : ∀ char ∈ blank, Text.isSpace char := by
    intro char member
    have white_ := white char member
    simp only [isWhitespace, Bool.or_eq_true, decide_eq_true_eq] at white_
    rcases white_ with ((rfl | rfl) | rfl) | rfl <;> decide
  have solid : ¬ Text.isSpace bracket = true := by
    rcases is with rfl | rfl <;> decide
  have left : text.toList.dropWhile Text.isSpace = bracket :: rest := by
    rw [split, List.dropWhile_append_of_pos blanks, List.dropWhile_cons_of_neg solid]
  obtain ⟨more, trimmed⟩ : ∃ more, (bracket :: rest).rdropWhile Text.isSpace = bracket :: more := by
    cases kept : (bracket :: rest).rdropWhile Text.isSpace with
    | nil => exact absurd (List.rdropWhile_eq_nil_iff.mp kept bracket (by simp)) solid
    | cons first more =>
        have front := List.rdropWhile_prefix Text.isSpace (bracket :: rest)
        rw [kept] at front
        exact ⟨more, by rw [(List.cons_prefix_cons.mp front).1]⟩
  have whole : Text.trimSpace text = String.ofList (bracket :: more) := by
    rw [Text.trimSpace, left, ← trimmed]
    rfl
  rw [isTemplatePathCapable, whole]
  rcases is with rfl | rfl
  · simp [Text.hasPrefix]
  · simp [Text.hasPrefix]

/-- A text that may be looked into holds a bracket. -/
theorem mem_of_isTemplatePathCapable (capable : isTemplatePathCapable (.string text)) :
    '\x7b' ∈ text.toList ∨ '[' ∈ text.toList := by
  have kept : ∀ char, char ∈ (Text.trimSpace text).toList → char ∈ text.toList := by
    intro char member
    rw [Text.trimSpace, String.toList_ofList, List.mem_reverse] at member
    have inner := (List.dropWhile_suffix _).subset member
    exact (List.dropWhile_suffix _).subset (List.mem_reverse.mp inner)
  rw [isTemplatePathCapable, Bool.or_eq_true] at capable
  rcases capable with brace | bracket
  · exact .inl (kept _ ((List.isPrefixOf_iff_prefix.mp brace).subset (by simp)))
  · exact .inr (kept _ ((List.isPrefixOf_iff_prefix.mp bracket).subset (by simp)))

/-- No path leads into a value that does not begin like JSON. -/
theorem templatePathText_of_incapable (incapable : isTemplatePathCapable value = false)
    (path : List Char) : templatePathText value path = none := by
  rw [templatePathText]
  split_ifs with ends
  · rfl
  have parts : Text.split (String.ofList path) '.' ≠ [] := by
    rw [Text.split]
    simp [List.splitOn_ne_nil]
  obtain ⟨segment, others, split⟩ := List.exists_cons_of_ne_nil parts
  rw [split, resolveTemplatePath]
  split_ifs with empty
  · rfl
  rw [Option.bind_eq_none_iff]
  intro found resolved
  obtain ⟨node, isNode, resolved⟩ := Option.bind_eq_some_iff.mp resolved
  obtain ⟨next, child, -⟩ := Option.bind_eq_some_iff.mp resolved
  have container := (templateChild_within child).1
  cases value with
  | string text =>
      rw [isTemplatePathCapable_of_beginsBracket (beginsBracket_of_decodeValue isNode container)]
        at incapable
      cases incapable
  | object members => cases incapable
  | array items => cases incapable
  | _ =>
      obtain rfl := Option.some.inj isNode
      exact container.elim

end

namespace Bytewise

open Common.TemplateBytes Utf8

variable {vars : Variables} {name path after text under : Bytes} {value : Value}

/-- Neither an object nor an array, nor a string that is exactly one of these. -/
def Plain (value : Value) : Prop :=
  match value.seen with
  | .string text => ∀ tree, decode maxNestingDepth text = some tree → ¬ IsContainer tree
  | tree => ¬ IsContainer tree

/-- The run of path bytes behind a dot. -/
def pathRun (after : Bytes) : Bytes := after.takeWhile isTemplatePathByte

/-- What is left behind the path bytes. -/
def behindPath (after : Bytes) : Bytes := after.dropWhile isTemplatePathByte

/-- The dot behind the variable and the path bytes behind the dot stay as they are. -/
def SuffixIsText (isPrint : Char → Bool) (vars : Variables) (name text before after : Bytes) : Prop :=
  renderTemplate isPrint (before ++ 0x24 :: (name ++ 0x2e :: after)) vars =
    renderTemplate isPrint before vars ++ escapeTemplateValue isPrint text ++
      0x2e :: pathRun after ++ renderTemplate isPrint (behindPath after) vars

/-! ### Bytes of paths -/

/-- The path bytes and the rest make up the text. -/
theorem path_append (after : Bytes) : pathRun after ++ behindPath after = after :=
  List.takeWhile_append_dropWhile

theorem pathByte_of_mem {byte : UInt8} (member : byte ∈ pathRun after) : isTemplatePathByte byte :=
  List.all_eq_true.mp List.all_takeWhile byte member

/-- Path bytes are printable, and neither quotes nor backslashes. -/
theorem plainByte_of_path {byte : UInt8} (isByte : isTemplatePathByte byte) : PlainByte byte := by
  simp only [isTemplatePathByte, Bool.or_eq_true, Bool.and_eq_true, decide_eq_true_eq,
    UInt8.le_iff_toNat_le, ← UInt8.toNat_inj] at isByte
  simp only [PlainByte, ne_eq, UInt8.le_iff_toNat_le, UInt8.lt_iff_toNat_lt, ← UInt8.toNat_inj]
  simp only [UInt8.reduceToNat] at *
  omega

theorem plainByte_dot_path : ∀ byte ∈ 0x2e :: pathRun after, PlainByte byte :=
  List.forall_mem_cons.mpr
    ⟨by unfold PlainByte; decide, fun _ member => plainByte_of_path (pathByte_of_mem member)⟩

/-- A dot begins a character. -/
theorem dot_starts : ∀ byte ∈ (0x2e :: path).head?, ¬ Continues byte := by
  rintro byte ⟨⟩
  decide

/-- A dot and path bytes are the value's own text when they are written with it. -/
theorem escape_dotted (isPrint : Char → Bool) (text : Bytes) :
    escapeTemplateValue isPrint text ++ 0x2e :: pathRun after =
      escapeTemplateValue isPrint (text ++ 0x2e :: pathRun after) := by
  rw [escapeTemplateValue_append dot_starts, escapeTemplateValue_plain plainByte_dot_path]

/-! ### Values that begin like JSON -/

/-- A plain value that begins like JSON is a string. -/
theorem exists_string (plain : Plain value) (capable : isTemplatePathCapable value)
    (written : templateValueString value = some text) :
    ∃ string : String, value.seen = .string string ∧ string.toList = characters text := by
  cases value with
  | text bytes =>
      obtain rfl := Option.some.inj written
      exact ⟨_, rfl, String.toList_ofList⟩
  | json value =>
      cases value with
      | string string =>
          obtain rfl := Option.some.inj written
          exact ⟨string, rfl, (characters_encode _).symm⟩
      | object members => exact absurd trivial plain
      | array items => exact absurd trivial plain
      | _ => cases capable

/-- A value that may be looked into is written with a bracket. -/
theorem bracket_of_capable (plain : Plain value) (capable : isTemplatePathCapable value)
    (written : templateValueString value = some text) :
    '\x7b' ∈ characters text ∨ '[' ∈ characters text := by
  obtain ⟨string, seen, same⟩ := exists_string plain capable written
  rw [isTemplatePathCapable, seen] at capable
  rw [← same]
  exact mem_of_isTemplatePathCapable capable

/-- The last byte of a text is its last character, if that is ASCII. -/
theorem getLast?_encode {chars : List Char} {last : Char} (ends : chars.getLast? = some last)
    (ascii : last.toNat < 0x80) : (encode chars).getLast? = some (UInt8.ofNat last.toNat) := by
  obtain ⟨front, rfl⟩ := List.getLast?_eq_some_iff.mp ends
  rw [encode_append, encode_cons, utf8EncodeChar_ascii ascii, List.getLast?_append]
  rfl

/-- What a path leads to is never the value with the dot and the path behind it. -/
theorem ne_dotted_of_resolved (plain : Plain value) (capable : isTemplatePathCapable value)
    (written : templateValueString value = some text) (path : pathRun after ≠ [])
    (resolved : templatePathText value (pathRun after) = some under) :
    under ≠ text ++ 0x2e :: pathRun after := by
  intro same
  have bracket := bracket_of_capable plain capable written
  obtain ⟨string, seen, chars⟩ := exists_string plain capable written
  rw [templatePathText, seen] at resolved
  obtain ⟨found, leads, rfl⟩ := Option.map_eq_some_iff.mp resolved
  rw [Common.templatePathText] at leads
  split_ifs at leads
  obtain ⟨node, leads, shown⟩ := Option.bind_eq_some_iff.mp leads
  have parts : Common.Text.split (String.ofList (characters (pathRun after))) '.' ≠ [] := by
    rw [Common.Text.split]
    simp [List.splitOn_ne_nil]
  have bounded := bounded_of_resolve_string parts leads
  have whole : found.toList = characters text ++ characters (0x2e :: pathRun after) := by
    have read := congrArg characters same
    rw [characters_encode] at read
    rw [read, characters, runes_append dot_starts, List.map_append]
    rfl
  have hasBracket : '\x7b' ∈ found.toList ∨ '[' ∈ found.toList := by
    rw [whole]
    exact bracket.imp (List.mem_append_left _) (List.mem_append_left _)
  have container : ¬ IsContainer node := by
    intro container
    have marshalled : marshal node = some found := by
      cases node with
      | object members => exact shown
      | array items => exact shown
      | _ => exact container.elim
    obtain ⟨last, ends, is⟩ := getLast?_marshal marshalled container
    have lastByte := getLast?_encode ends (by rcases is with rfl | rfl <;> decide)
    rw [same, List.getLast?_append, List.getLast?_cons, List.getLast?_eq_some_getLast path,
      Option.getD_some, Option.some_or] at lastByte
    have isByte := pathByte_of_mem (List.getLast_mem path)
    rw [Option.some.inj lastByte] at isByte
    rcases is with rfl | rfl <;> exact absurd isByte (by decide)
  cases node with
  | null =>
      obtain rfl := Option.some.inj shown
      exact absurd hasBracket (by decide)
  | bool truth =>
      obtain rfl := Option.some.inj shown
      cases truth <;> exact absurd hasBracket (by decide)
  | number literal =>
      obtain rfl := Option.some.inj shown
      obtain ⟨noBrace, noBracket⟩ := no_bracket_of_isNumber (bounded.1 literal .self)
      exact hasBracket.elim noBrace noBracket
  | string inner =>
      obtain rfl := Option.some.inj shown
      have short := bounded.2 inner .self
      rw [whole, chars, List.length_append] at short
      omega
  | object members => exact container trivial
  | array items => exact container trivial

/-- A value that begins like JSON is not written as the placeholder. -/
theorem escape_ne_placeholder (isPrint : Char → Bool) (plain : Plain value)
    (capable : isTemplatePathCapable value) (written : templateValueString value = some text)
    (symbols : ∀ byte ∈ name, isTemplateIdentifierByte byte) :
    escapeTemplateValue isPrint text ≠ 0x24 :: name := by
  intro same
  have plainName : ∀ byte ∈ 0x24 :: name, PlainByte byte :=
    List.forall_mem_cons.mpr ⟨by unfold PlainByte; decide, fun byte member =>
      plainByte_of_path (isTemplatePathByte_of_identifier (symbols byte member))⟩
  have copied := @escapeTemplateValue_plain isPrint _ plainName
  obtain rfl := escapeTemplateValue_injective isPrint (same.trans copied.symm)
  have ascii : ∀ byte ∈ 0x24 :: name, byte < 0x80 := by
    intro byte member
    obtain ⟨-, below, -⟩ := plainName byte member
    exact UInt8.lt_trans below (by decide)
  have noBracket : ∀ char, char.toNat = 0x7b ∨ char.toNat = 0x5b → char ∉ characters (0x24 :: name) := by
    intro char is member
    obtain ⟨byte, listed, code⟩ := byte_mem_of_mem_characters ascii member
    have apart : byte = 0x7b ∨ byte = 0x5b :=
      is.imp (fun brace => UInt8.toNat_inj.mp (code.trans brace))
        (fun bracket => UInt8.toNat_inj.mp (code.trans bracket))
    rcases List.mem_cons.mp listed with rfl | inName
    · exact absurd apart (by decide)
    · have symbol := symbols byte inName
      rcases apart with rfl | rfl <;> exact absurd symbol (by decide)
  rcases bracket_of_capable plain capable written with brace | bracket
  · exact noBracket _ (.inl rfl) brace
  · exact noBracket _ (.inr rfl) bracket

/-! ### Rounds at a variable with a dot -/

/-- The name in front of a dot is found whole. -/
theorem templateName_dotted (identifiers : Identifiers vars) (named : name ≠ [])
    (listed : name ∈ vars.map Prod.fst) (after : Bytes) :
    templateName vars (name ++ 0x2e :: after) = some name := by
  refine templateName_longest listed named (List.prefix_append _ _) fun other member fits => ?_
  have run : identifierRun (name ++ 0x2e :: after) = name := by
    rw [identifierRun, List.takeWhile_append_of_pos (identifiers name listed),
      List.takeWhile_cons_of_neg (by decide), List.append_nil]
  have within := prefix_run (identifiers other member) fits
  rw [run] at within
  exact within.length_le

/-- A dot is followed by a path, if a byte that may start one is behind it. -/
theorem templatePath_dot (after : Bytes) : templatePath (0x2e :: after) =
    if after.head?.any isTemplatePathStartByte then some (pathRun after) else none := by
  cases after with
  | nil => exact templatePath_single _
  | cons first rest =>
      rw [templatePath_cons, pathRun, List.head?_cons, Option.any_some]
      by_cases start : isTemplatePathStartByte first
      · rw [if_pos ⟨rfl, start⟩, if_pos start]
      · rw [if_neg fun both => start both.2, if_neg start]

/-- The value is written where the dot is no path, or leads into no value. -/
theorem placeholder_text (named : templateName vars (name ++ 0x2e :: after) = some name)
    (looked : vars.lookup name = some value) (written : templateValueString value = some text)
    (isText : ¬ (isTemplatePathCapable value ∧ after.head?.any isTemplatePathStartByte)) :
    placeholder vars (name ++ 0x2e :: after) = (.value text, name.length) := by
  have plainly : plainWrite name value = .value text := by rw [plainWrite, written]
  by_cases start : after.head?.any isTemplatePathStartByte
  · have incapable : isTemplatePathCapable value = false :=
      Bool.eq_false_iff.mpr fun capable => isText ⟨capable, start⟩
    have nowhere : templatePathText value (pathRun after) = none := by
      rw [templatePathText, templatePathText_of_incapable incapable]
      rfl
    unfold placeholder
    rw [named]
    dsimp only
    rw [List.drop_left, templatePath_dot, if_pos start, looked, Option.getD_some]
    dsimp only
    rw [nowhere, incapable, plainly]
    rfl
  · have noPath : templatePath (0x2e :: after) = none := by rw [templatePath_dot, if_neg start]
    rw [placeholder_plain named looked noPath, plainly]
    rfl

/-- Otherwise the path goes with the variable: a value under it is written, or the placeholder. -/
theorem placeholder_path (named : templateName vars (name ++ 0x2e :: after) = some name)
    (looked : vars.lookup name = some value) (capable : isTemplatePathCapable value)
    (start : after.head?.any isTemplatePathStartByte) :
    placeholder vars (name ++ 0x2e :: after) =
      (match templatePathText value (pathRun after) with
        | some under => .value under
        | none => .copy (0x24 :: (name ++ 0x2e :: pathRun after)),
        name.length + 1 + (pathRun after).length) := by
  unfold placeholder
  rw [named]
  dsimp only
  rw [List.drop_left, templatePath_dot, if_pos start, looked, Option.getD_some]
  dsimp only
  cases templatePathText value (pathRun after) with
  | some under => rfl
  | none => exact if_pos capable

/-- A dot behind a plain value is text unless the value begins like JSON and a path follows. -/
theorem suffix_is_text_iff (isPrint : Char → Bool) (identifiers : Identifiers vars)
    (named : name ≠ []) (looked : vars.lookup name = some value) (plain : Plain value)
    (written : templateValueString value = some text) (before after : Bytes) :
    SuffixIsText isPrint vars name text before after ↔
      ¬ (isTemplatePathCapable value ∧ after.head?.any isTemplatePathStartByte) := by
  have listed := mem_names_of_lookup looked
  have found := templateName_dotted identifiers named listed after
  have front : ∀ tail, renderTemplate isPrint (before ++ 0x24 :: tail) vars =
      renderTemplate isPrint before vars ++ renderTemplate isPrint (0x24 :: tail) vars := by
    intro tail
    rw [renderTemplate, renderWrites_before identifiers, List.flatMap_append]
    rfl
  rw [SuffixIsText, front, List.append_assoc, List.append_assoc, List.append_cancel_left_eq]
  constructor
  · rintro same ⟨capable, start⟩
    have path : pathRun after ≠ [] := by
      cases after with
      | nil => cases start
      | cons first rest =>
          rw [pathRun, List.takeWhile_cons_of_pos (isTemplatePathByte_of_start start)]
          exact List.cons_ne_nil _ _
    have round := placeholder_path found looked capable start
    have taken : name ++ 0x2e :: after = (name ++ 0x2e :: pathRun after) ++ behindPath after := by
      rw [List.append_assoc, List.cons_append, path_append]
    have length : (name ++ 0x2e :: pathRun after).length =
        name.length + 1 + (pathRun after).length := by
      rw [List.length_append, List.length_cons]
      omega
    rw [taken] at round same
    rw [renderTemplate, renderWrites_dollar (by rw [round, length]), round, List.flatMap_cons,
      ← renderTemplate, ← List.append_assoc, List.append_cancel_right_eq] at same
    cases under : templatePathText value (pathRun after) with
    | some text' =>
        rw [under, Write.written, escape_dotted] at same
        exact ne_dotted_of_resolved plain capable written path under
          (escapeTemplateValue_injective isPrint same)
    | none =>
        rw [under, Write.written, ← List.cons_append, List.append_cancel_right_eq] at same
        exact escape_ne_placeholder isPrint plain capable written
          (identifiers name listed) same.symm
  · intro isText
    have round := placeholder_text found looked written isText
    have noDollar : 0x24 ∉ 0x2e :: pathRun after := by
      intro dollar
      rcases List.mem_cons.mp dollar with same | inPath
      · cases same
      · exact absurd (pathByte_of_mem inPath) (by decide)
    have behind : 0x2e :: after = (0x2e :: pathRun after) ++ behindPath after := by
      rw [List.cons_append, path_append]
    rw [renderTemplate, renderWrites_dollar (by rw [round]), round, behind,
      renderWrites_copies noDollar, List.flatMap_cons, List.flatMap_append, List.flatMap_map]
    have copied : (0x2e :: pathRun after).flatMap (fun byte => Write.written isPrint (.copy [byte])) =
        0x2e :: pathRun after := List.flatMap_singleton' _
    rw [copied]
    rfl

/-- A title that begins like JSON. -/
def alertVars : Variables := [(encode "title".toList, .text (encode "[Alert] x".toList))]

theorem identifiers_alertVars : Identifiers alertVars := identifiers_of_all (by decide)

/-- The text holds no value of its own. -/
theorem plain_alert : Plain (.text (encode "[Alert] x".toList)) := by
  have noJson : decode maxNestingDepth "[Alert] x" = none := by decide
  have seen : (Value.text (encode "[Alert] x".toList)).seen = .string "[Alert] x" := by
    rw [Value.seen, characters_encode, String.ofList_toList]
  rw [Plain, seen]
  dsimp only
  rw [noJson]
  rintro tree ⟨⟩

theorem suffix_is_text_iff_alert :
    SuffixIsText (fun _ => true) alertVars (encode "title".toList) (encode "[Alert] x".toList) []
        (encode "html".toList) ↔
      ¬ (isTemplatePathCapable (.text (encode "[Alert] x".toList)) ∧
        (encode "html".toList).head?.any isTemplatePathStartByte) :=
  suffix_is_text_iff _ identifiers_alertVars (by decide) rfl plain_alert rfl _ _

/-- The title is not put in where a file name of it is asked for. -/
theorem alert_is_taken_for_json : ¬ ∀ (isPrint : Char → Bool) (vars : Variables) (name text : Bytes)
    (value : Value), Identifiers vars → name ≠ [] → vars.lookup name = some value → Plain value →
    templateValueString value = some text →
    ∀ before after, SuffixIsText isPrint vars name text before after := by
  intro always
  have text := always (fun _ => true) alertVars (encode "title".toList)
    (encode "[Alert] x".toList) _ identifiers_alertVars (by decide) rfl plain_alert rfl []
    (encode "html".toList)
  rw [SuffixIsText] at text
  revert text
  decide

end Bytewise

end MessagePusher.Template
