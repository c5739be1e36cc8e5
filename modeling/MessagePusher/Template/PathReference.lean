import MessagePusher.JsonText.Leading
import MessagePusher.Template.DottedSuffix

/-!
# The walk along a path

What `resolveTemplatePath` is for: an object is entered by a key, an array by a run of digits, and
a string by being one JSON document. The code follows this walk, but for empty segments and deeply
nested documents, where nothing stands behind a document and no sign before an index.
-/

namespace MessagePusher.Template

open Common JsonText

/-! ### The reference -/

/-- The text is one JSON document with this value. -/
def IsDocument (text : String) (value : Json) : Prop :=
  ∃ limit tree, decode limit text = some tree ∧ toMaps tree = value

/-- It is not nested more deeply than the decoder goes. -/
def IsShallowDocument (text : String) (value : Json) : Prop :=
  ∃ tree, decode maxNestingDepth text = some tree ∧ toMaps tree = value

/-- One segment of a path. The index of an array is an `int`. -/
inductive Enters (document : String → Json → Prop) : Json → String → Json → Prop where
  | member {members : List (String × Json)} {segment : String} {next : Json}
      (found : members.lookup segment = some next) :
      Enters document (.object members) segment next
  | item {items : List Json} {segment : String} {index : Nat} {next : Json}
      (digits : Text.digits? segment.toList = some index) (fits : (index : Int) ≤ Text.maxInt64)
      (found : items[index]? = some next) : Enters document (.array items) segment next
  | text {text segment : String} {node next : Json} (whole : document text node)
      (container : IsContainer node) (inner : Enters document node segment next) :
      Enters document (.string text) segment next

/-- Which segments and which documents a walk takes. -/
structure Reference where
  segment : String → Prop
  document : String → Json → Prop

/-- A walk along a path. -/
inductive Leads (reference : Reference) : Json → List String → Json → Prop where
  | here (value : Json) : Leads reference value [] value
  | step {value next found : Json} {segment : String} {path : List String}
      (allowed : reference.segment segment) (enters : Enters reference.document value segment next)
      (onward : Leads reference next path found) : Leads reference value (segment :: path) found

/-- Every key, and documents of any depth. -/
def unbounded : Reference := ⟨fun _ => True, IsDocument⟩

/-- What the code is meant to follow: no empty segment, and documents that the decoder takes. -/
def guarded : Reference := ⟨fun segment => segment ≠ "", IsShallowDocument⟩

/-! ### What the parsers take beyond it -/

/-- A sign with digits behind it. -/
def Signed (segment : String) : Prop :=
  ∃ sign digits, segment.toList = sign :: digits ∧ (sign = '+' ∨ sign = '-') ∧ digits ≠ [] ∧
    ∀ char ∈ digits, char.isDigit

/-- White space at most follows an object or an array that the text begins with. -/
def NothingBehind (text : String) : Prop :=
  ∀ before rest tree, text.toList = before ++ rest →
    decode maxNestingDepth (String.ofList before) = some tree → IsContainer tree →
      ∀ char ∈ rest, isWhitespace char

/-- The step meets neither a sign before an index nor text behind a document. -/
structure Strict (value : Json) (segment : String) : Prop where
  unsigned : ∀ items, (value = .array items ∨
    ∃ text, value = .string text ∧ IsShallowDocument text (.array items)) → ¬ Signed segment
  nothingBehind : ∀ text, value = .string text → NothingBehind text

/-- So do all steps of the walk. -/
def StrictAlong : Json → List String → Prop
  | _, [] => True
  | value, segment :: path => segment ≠ "" → Strict value segment ∧
      ∀ next, Enters IsShallowDocument value segment next → StrictAlong next path

variable {document : String → Json → Prop} {text segment : String} {value node next found : Json}
  {path : List String}

/-! ### One step -/

/-- What stands behind a sign is no number where the segment is not signed. -/
theorem digits?_of_unsigned {sign : Char} {rest : List Char} (unsigned : ¬ Signed segment)
    (chars : segment.toList = sign :: rest) (isSign : sign = '+' ∨ sign = '-') :
    Text.digits? rest = none := by
  rw [Text.digits?, if_pos]
  by_contra number
  simp only [Bool.or_eq_true, List.isEmpty_iff, List.any_eq_true, Bool.not_eq_true', not_or,
    not_exists, not_and, Bool.not_eq_false] at number
  exact unsigned ⟨sign, rest, chars, isSign, number.1, number.2⟩

/-- Without a sign `strconv.Atoi` reads digits and nothing else. -/
theorem digits?_of_parseInt {index : Int} (parsed : Text.parseInt segment = (index, true))
    (unsigned : ¬ Signed segment) : ∃ position : Nat, index = position ∧
      (position : Int) ≤ Text.maxInt64 ∧ Text.digits? segment.toList = some position := by
  unfold Text.parseInt at parsed
  split at parsed
  · next rest chars =>
    rw [digits?_of_unsigned unsigned chars (.inr rfl)] at parsed
    cases parsed
  · next rest chars =>
    rw [digits?_of_unsigned unsigned chars (.inl rfl)] at parsed
    cases parsed
  · cases digits : Text.digits? segment.toList with
    | none =>
        rw [digits] at parsed
        cases parsed
    | some position =>
        rw [digits] at parsed
        change (if (position : Int) < Text.minInt64 then (Text.minInt64, false)
          else if Text.maxInt64 < (position : Int) then (Text.maxInt64, false)
          else ((position : Int), true)) = _ at parsed
        split_ifs at parsed with below above
        · cases parsed
        · cases parsed
        · cases parsed
          exact ⟨position, rfl, Int.not_lt.mp above, rfl⟩

/-- A step into an object or an array is one of the reference. -/
theorem enters_of_templateChild (unsigned : ∀ items, node = .array items → ¬ Signed segment)
    (child : templateChild node segment = some next) : Enters document node segment next := by
  cases node with
  | object members => exact .member child
  | array items =>
      simp only [templateChild] at child
      split at child
      · next index parsed =>
        split_ifs at child with positive
        obtain ⟨position, rfl, fits, digits⟩ := digits?_of_parseInt parsed (unsigned items rfl)
        exact .item digits fits child
      · cases child
  | _ => cases child

theorem templateChild_of_enters (container : IsContainer node)
    (enters : Enters document node segment next) : templateChild node segment = some next := by
  cases enters with
  | member found => exact found
  | @item items _ index _ digits fits found =>
      have positive : (0 : Int) ≤ index := Int.natCast_nonneg index
      simp only [templateChild, Text.parseInt_of_digits digits fits, positive, if_true,
        Int.toNat_natCast]
      exact found
  | text => exact container.elim

theorem noNumber_of_isContainer (container : IsContainer value) (literal : String) :
    value ≠ .number literal := by
  rintro rfl
  exact container

theorem decodeValue_of_isShallowDocument (whole : IsShallowDocument text node)
    (container : IsContainer node) : decodeValue text = some node := by
  obtain ⟨tree, decoded, rfl⟩ := whole
  have noNumber := noNumber_of_isContainer (isContainer_toMaps.mp container)
  refine Option.map_eq_some_iff.mpr ⟨tree, (decodeLeading_iff noNumber).mpr ?_, rfl⟩
  exact ⟨text.toList, [], (List.append_nil _).symm, by rwa [String.ofList_toList]⟩

/-- What is decoded from the beginning of a text is its value where nothing is behind it. -/
theorem isShallowDocument_of_decodeValue (nothing : NothingBehind text)
    (container : IsContainer node) (decoded : decodeValue text = some node) :
    IsShallowDocument text node := by
  obtain ⟨tree, leading, rfl⟩ := Option.map_eq_some_iff.mp decoded
  have treeContainer := isContainer_toMaps.mp container
  have noNumber := noNumber_of_isContainer treeContainer
  obtain ⟨before, rest, split, decoded⟩ := (decodeLeading_iff noNumber).mp leading
  have blank := nothing before rest tree split decoded treeContainer
  exact ⟨tree, (decode_append_iff split decoded noNumber).mpr ⟨blank, rfl⟩, rfl⟩

/-- One round of the loop. -/
def templateStep (value : Json) (segment : String) : Option Json :=
  (templateNode value).bind fun node => templateChild node segment

/-- The code takes every step of the reference. -/
theorem templateStep_of_enters (enters : Enters IsShallowDocument value segment next) :
    templateStep value segment = some next := by
  have step := enters
  cases enters with
  | member found => exact found
  | @item items _ _ _ _ _ _ =>
      have container : IsContainer (.array items) := trivial
      exact templateChild_of_enters container step
  | text whole container inner =>
      have decoded := decodeValue_of_isShallowDocument whole container
      exact Option.bind_eq_some_iff.mpr ⟨_, decoded, templateChild_of_enters container inner⟩

/-- It takes no other where the step is strict. -/
theorem enters_of_templateStep (strict : Strict value segment)
    (stepped : templateStep value segment = some next) :
    Enters IsShallowDocument value segment next := by
  obtain ⟨node, isNode, child⟩ := Option.bind_eq_some_iff.mp stepped
  cases value with
  | string text =>
      have container := (templateChild_within child).1
      have whole := isShallowDocument_of_decodeValue (strict.nothingBehind text rfl) container isNode
      refine .text whole container (enters_of_templateChild ?_ child)
      rintro items rfl
      exact strict.unsigned items (.inr ⟨text, rfl, whole⟩)
  | _ =>
      obtain rfl := Option.some.inj isNode
      exact enters_of_templateChild (fun items same => strict.unsigned items (.inl same)) child

/-! ### The walk -/

theorem resolveTemplatePath_cons (some_ : segment ≠ "") :
    resolveTemplatePath value (segment :: path) =
      (templateStep value segment).bind fun next => resolveTemplatePath next path := by
  rw [resolveTemplatePath, if_neg some_, templateStep, Option.bind_assoc]

/-- The code goes every guarded walk. -/
theorem Leads.resolves (leads : Leads guarded value path found) :
    resolveTemplatePath value path = some found := by
  induction leads with
  | here value => rfl
  | step allowed enters _ ih =>
      rw [resolveTemplatePath_cons allowed, templateStep_of_enters enters]
      exact ih

/-- It goes no other where all steps are strict. -/
theorem leads_of_resolves (strict : StrictAlong value path)
    (resolved : resolveTemplatePath value path = some found) : Leads guarded value path found := by
  induction path generalizing value with
  | nil =>
      cases resolved
      exact .here _
  | cons segment path ih =>
      have some_ : segment ≠ "" := by
        rintro rfl
        cases resolved
      obtain ⟨here, along⟩ := strict some_
      rw [resolveTemplatePath_cons some_] at resolved
      obtain ⟨next, stepped, onward⟩ := Option.bind_eq_some_iff.mp resolved
      have enters := enters_of_templateStep here stepped
      exact .step some_ enters (ih (along next enters) onward)

/-- A path in two parts is resolved one part after the other. -/
theorem resolveTemplatePath_append (value : Json) (path more : List String) :
    resolveTemplatePath value (path ++ more) =
      (resolveTemplatePath value path).bind fun next => resolveTemplatePath next more := by
  induction path generalizing value with
  | nil => rfl
  | cons segment path ih =>
      rw [List.cons_append]
      by_cases empty : segment = ""
      · rw [resolveTemplatePath, resolveTemplatePath, if_pos empty, if_pos empty]
        rfl
      · have onward : (fun next => resolveTemplatePath next (path ++ more)) = fun next =>
            (resolveTemplatePath next path).bind fun last => resolveTemplatePath last more :=
          funext ih
        rw [resolveTemplatePath_cons empty, resolveTemplatePath_cons empty, onward]
        exact (Option.bind_assoc _ _ _).symm

/-- A path resolves as the guarded walk goes, unless the parsers take what the walk does not. Any
path resolves in parts. -/
theorem paths_resolve_as_reference :
    (∀ value path found, Leads guarded value path found →
      resolveTemplatePath value path = some found) ∧
    (∀ value path found, StrictAlong value path → resolveTemplatePath value path = some found →
      Leads guarded value path found) ∧
    ∀ value path more, resolveTemplatePath value (path ++ more) =
      (resolveTemplatePath value path).bind fun next => resolveTemplatePath next more :=
  ⟨fun _ _ _ leads => leads.resolves, fun _ _ _ strict resolved => leads_of_resolves strict resolved,
    resolveTemplatePath_append⟩

/-! ### A path through a text -/

theorem NothingBehind.of_isShallowDocument (whole : IsShallowDocument text value) :
    NothingBehind text := by
  obtain ⟨tree, decoded, -⟩ := whole
  intro before rest other split begins container
  exact ((decode_append_iff split begins (noNumber_of_isContainer container)).mp decoded).1

/-- The text of an array in an object: the path `data.1`. -/
theorem paths_resolve_as_reference_text :
    resolveTemplatePath (.object [("data", .string "[null,true]")]) ["data", "1"] =
        some (.bool true) ∧
      StrictAlong (.object [("data", .string "[null,true]")]) ["data", "1"] ∧
      Leads guarded (.object [("data", .string "[null,true]")]) ["data", "1"] (.bool true) := by
  have written : marshal (.array [.null, .bool true]) = some "[null,true]" := by decide
  have whole : IsShallowDocument "[null,true]" (.array [.null, .bool true]) :=
    ⟨_, decode_marshal written (by decide), rfl⟩
  have leads : Leads guarded (.object [("data", .string "[null,true]")]) ["data", "1"]
      (.bool true) :=
    .step (by decide : "data" ≠ "") (.member rfl) (.step (by decide : "1" ≠ "")
      (.text whole trivial (.item (by decide : _ = some 1) (by decide) rfl)) (.here _))
  have resolved := paths_resolve_as_reference.1 _ _ _ leads
  have strict : StrictAlong (.object [("data", .string "[null,true]")]) ["data", "1"] := by
    intro _
    refine ⟨⟨?_, by rintro text ⟨⟩⟩, ?_⟩
    · rintro items (same | ⟨text, same, -⟩)
      · cases same
      · cases same
    · rintro next (⟨found⟩ | _ | _) _
      obtain rfl : Json.string "[null,true]" = next := Option.some.inj found
      refine ⟨⟨?_, ?_⟩, fun _ _ => trivial⟩
      · rintro items - ⟨sign, digits, chars, isSign, -⟩
        obtain rfl : '1' = sign := (List.cons.inj chars).1
        exact absurd isSign (by decide)
      · rintro text ⟨⟩
        exact .of_isShallowDocument whole
  exact ⟨resolved, strict, paths_resolve_as_reference.2.1 _ _ _ strict resolved⟩

/-! ### What the code refuses -/

/-- Arrays within each other. -/
def nested : Nat → Json
  | 0 => .array []
  | count + 1 => .array [nested count]

def nestedText (count : Nat) : String := (marshal (nested count)).getD ""

theorem depth_nested (count : Nat) : depth (nested count) = count + 1 := by
  induction count with
  | zero => rfl
  | succ count ih => simp [nested, depth, itemsDepth, ih]

theorem numbersValid_nested (count : Nat) : NumbersValid (nested count) := by
  intro literal within
  induction count with
  | zero => simp [nested, within_array] at within
  | succ count ih =>
      rw [nested, within_array] at within
      rcases within with same | ⟨item, listed, within⟩
      · cases same
      · rw [List.mem_singleton.mp listed] at within
        exact ih within

theorem toMaps_nested (count : Nat) : toMaps (nested count) = nested count := by
  induction count with
  | zero => rfl
  | succ count ih => simp [nested, toMaps, itemsToMaps, ih]

theorem decode_nestedText (count : Nat) :
    decode (count + 1) (nestedText count) = some (nested count) := by
  have written : marshal (nested count) = some (nestedText count) := by
    rw [nestedText, marshal, if_pos (numbersValid_nested count)]
    rfl
  exact decode_marshal written (Nat.le_of_eq (depth_nested count))

/-- The decoder does not go as deep as the text is nested. -/
theorem templateStep_nestedText {count : Nat} (deep : maxNestingDepth ≤ count) :
    templateStep (.string (nestedText count)) segment = none := by
  cases stepped : templateStep (.string (nestedText count)) segment with
  | none => rfl
  | some next =>
      obtain ⟨node, decoded, child⟩ := Option.bind_eq_some_iff.mp stepped
      obtain ⟨tree, leading, rfl⟩ := Option.map_eq_some_iff.mp decoded
      have container := isContainer_toMaps.mp (templateChild_within child).1
      have noNumber := noNumber_of_isContainer container
      obtain ⟨before, rest, split, begins⟩ := (decodeLeading_iff noNumber).mp leading
      have bound : maxNestingDepth ≤ count + 1 := Nat.le_succ_of_le deep
      have same := ((decode_append_iff split (decode_mono bound begins) noNumber).mp
        (decode_nestedText count)).2
      have shallow := depth_of_decode begins
      rw [← same, depth_nested] at shallow
      omega

/-- An empty key, and a text that is nested too deeply. -/
theorem reference_goes_further :
    ¬ (∀ value path found, resolveTemplatePath value path = some found ↔
      Leads unbounded value path found) ∧
    ¬ (∀ text segment found, segment ≠ "" →
      (resolveTemplatePath (.string text) [segment] = some found ↔
        Leads unbounded (.string text) [segment] found)) := by
  constructor
  · intro claimed
    have leads : Leads unbounded (.object [("", .null)]) [""] .null :=
      .step trivial (.member rfl) (.here _)
    have refused : resolveTemplatePath (.object [("", .null)]) [""] = none := rfl
    rw [← claimed, refused] at leads
    cases leads
  · intro claimed
    have whole : IsDocument (nestedText (maxNestingDepth + 1)) (nested (maxNestingDepth + 1)) :=
      ⟨_, _, decode_nestedText _, toMaps_nested _⟩
    have leads : Leads unbounded (.string (nestedText (maxNestingDepth + 1))) ["0"]
        (nested maxNestingDepth) :=
      .step trivial (.text whole trivial (.item (by decide : _ = some 0) (by decide) rfl)) (.here _)
    rw [← claimed _ _ _ (by decide), resolveTemplatePath_cons (by decide),
      templateStep_nestedText (Nat.le_succ _)] at leads
    cases leads

end MessagePusher.Template
