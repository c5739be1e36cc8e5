import MessagePusher.Common.Variables

/-!
# Paths in templates

Where a round of the loop of `RenderTemplate` starts, which name it takes there, and the value
that a path leads to.
-/

namespace MessagePusher.Template

open Common JsonText

variable {vars : Variables}

/-! ### Where rounds start -/

/-- The loop has written `writes` of the template when a round starts at `left`. -/
inductive Scan (vars : Variables) : List Char → List Write → List Char → Prop where
  | here {left : List Char} : Scan vars left [] left
  | copied {char : Char} {rest left : List Char} {writes : List Write} (noDollar : char ≠ '$')
      (scan : Scan vars rest writes left) :
      Scan vars (char :: rest) (.copy [char] :: writes) left
  | replaced {taken rest left : List Char} {writes : List Write}
      (used : (placeholder vars (taken ++ rest)).2 = taken.length)
      (scan : Scan vars rest writes left) :
      Scan vars ('$' :: (taken ++ rest)) ((placeholder vars (taken ++ rest)).1 :: writes) left

theorem Scan.renderWrites {template left : List Char} {writes : List Write}
    (scan : Scan vars template writes left) :
    renderWrites vars 0 template = writes ++ renderWrites vars 0 left := by
  induction scan with
  | here => rfl
  | copied noDollar _ ih => rw [renderWrites_copy noDollar, ih, List.cons_append]
  | replaced used _ ih => rw [renderWrites_dollar used, ih, List.cons_append]

theorem Scan.renderChars {isPrint : Char → Bool} {template left : List Char} {writes : List Write}
    (scan : Scan vars template writes left) :
    renderChars isPrint vars template =
      writes.flatMap (Write.written isPrint) ++ renderChars isPrint vars left := by
  rw [Common.renderChars, scan.renderWrites, List.flatMap_append, Common.renderChars]

/-- A round starts where no placeholder reaches across. -/
theorem scan_append {after : List Char} (boundary : Boundary vars after) (text : List Char) :
    Scan vars (text ++ after) (renderWrites vars 0 text) after := by
  induction length : text.length using Nat.strong_induction_on generalizing text with
  | _ length ih =>
    cases text with
    | nil => exact .here
    | cons char text =>
        rw [List.length_cons] at length
        by_cases dollar : char = '$'
        · subst dollar
          obtain ⟨taken, more, rfl, used, -⟩ := placeholder_spec vars text
          have shorter : more.length < (taken ++ more).length + 1 := by
            rw [List.length_append]
            omega
          have later := ih more.length (length ▸ shorter) more rfl
          have same : placeholder vars (taken ++ (more ++ after)) =
              placeholder vars (taken ++ more) := by
            rw [← List.append_assoc, boundary.placeholder]
          rw [renderWrites_dollar used, List.cons_append, List.append_assoc, ← same]
          exact .replaced (by rw [same, used]) later
        · rw [renderWrites_copy dollar, List.cons_append]
          exact .copied dollar (ih text.length (by omega) text rfl)

/-- Without a `$` in a name, a round starts at every `$`. -/
theorem boundary_dollar (noDollar : ∀ name ∈ vars.map Prod.fst, '$' ∉ name.toList)
    (rest : List Char) : Boundary vars ('$' :: rest) := by
  rintro char ⟨⟩
  exact ⟨by decide, noDollar⟩

/-! ### The name at a `$` -/

instance : Std.Total NamesBefore where
  total first second := by
    rcases Nat.lt_trichotomy first.utf8ByteSize second.utf8ByteSize with less | same | more
    · exact .inr (.inl less)
    · rcases String.le_total first second with before | after
      · exact .inl (.inr ⟨same, before⟩)
      · exact .inr (.inr ⟨same.symm, after⟩)
    · exact .inl (.inl more)

instance : IsTrans String NamesBefore where
  trans first second third := by
    rintro (less | ⟨same, before⟩) (less' | ⟨same', before'⟩)
    · exact .inl (Nat.lt_trans less' less)
    · exact .inl (same' ▸ less)
    · exact .inl (same ▸ less')
    · exact .inr ⟨same.trans same', String.le_trans before before'⟩

/-- A name that another one begins with comes after it. -/
theorem not_namesBefore_longer {short long : String} {more : List Char}
    (longer : long.toList = short.toList ++ more) (some_ : more ≠ []) : ¬ NamesBefore short long := by
  have whole : long = short ++ String.ofList more := by
    apply String.ext
    rw [String.toList_append, String.toList_ofList, longer]
  have positive : 0 < (String.ofList more).utf8ByteSize := by
    apply Nat.pos_of_ne_zero
    intro zero
    apply some_
    rw [String.utf8ByteSize_eq_zero_iff] at zero
    rw [← @String.toList_ofList more, zero]
    rfl
  have size : long.utf8ByteSize = short.utf8ByteSize + (String.ofList more).utf8ByteSize := by
    rw [whole, String.utf8ByteSize_append]
  rintro (less | ⟨same, -⟩) <;> omega

/-- Where a name fits, one at least as long is taken. -/
theorem exists_templateName {name : String} {rest : List Char} (listed : name ∈ vars.map Prod.fst)
    (named : name ≠ "") (fits : name.toList <+: rest) :
    ∃ chosen ∈ vars.map Prod.fst, templateName vars rest = some chosen ∧
      chosen.toList <+: rest ∧ name.toList <+: chosen.toList := by
  have sorted : (templateNames vars).Pairwise NamesBefore := List.pairwise_insertionSort _ _
  have longerFirst : ∀ short long : String, NamesBefore short long →
      short.toList <+: long.toList → short.toList = long.toList := by
    rintro short long before ⟨more, longer⟩
    by_contra apart
    refine not_namesBefore_longer longer.symm ?_ before
    rintro rfl
    rw [List.append_nil] at longer
    exact apart longer
  obtain ⟨chosen, member, found, fitsChosen, longer⟩ :=
    Substitution.find?_longest sorted longerFirst (mem_templateNames.mpr ⟨listed, named⟩) fits
  exact ⟨chosen, (mem_templateNames.mp member).1, found, fitsChosen, longer⟩

/-- The longest name that fits is taken. -/
theorem templateName_longest {name : String} {rest : List Char}
    (listed : name ∈ vars.map Prod.fst) (named : name ≠ "") (fits : name.toList <+: rest)
    (longest : ∀ other ∈ vars.map Prod.fst, other.toList <+: rest →
      other.toList.length ≤ name.toList.length) :
    templateName vars rest = some name := by
  obtain ⟨chosen, member, found, fitsChosen, longer⟩ := exists_templateName listed named fits
  have same : name = chosen :=
    String.ext (longer.eq_of_length_le (longest chosen member fitsChosen))
  rw [found, same]

/-! ### Paths -/

/-- A part of a path: a key or an index. -/
def IsSegment (segment : String) : Prop :=
  segment ≠ "" ∧ ∀ char ∈ segment.toList, isTemplatePathStartByte char

/-- A path as a template spells it. -/
def pathText (path : List String) : List Char := ['.'].intercalate (path.map String.toList)

/-- The value that a path of keys and indices leads to within objects and arrays. -/
def valueAt : Json → List String → Option Json
  | value, [] => some value
  | .object members, segment :: path =>
      (members.lookup segment).bind fun next => valueAt next path
  | .array items, segment :: path =>
      (Text.digits? segment.toList).bind fun index =>
        items[index]?.bind fun next => valueAt next path
  | _, _ :: _ => none

/-- The arrays are as long as a slice can be. -/
def SlicesFit (value : Json) : Prop :=
  ∀ items, Within (.array items) value → (items.length : Int) ≤ Text.maxInt64

theorem SlicesFit.within {inner value : Json} (fits : SlicesFit value) (within : Within inner value) :
    SlicesFit inner :=
  fun items inside => fits items (inside.trans within)

theorem SlicesFit.object {members : List (String × Json)}
    (each : ∀ member ∈ members, SlicesFit member.2) : SlicesFit (.object members) := by
  intro items within
  rcases within_object.mp within with same | ⟨member, listed, within⟩
  · cases same
  · exact each member listed items within

/-- One step of a path. -/
theorem valueAt_cons {value : Json} {segment : String} {path : List String} {found : Json}
    (fits : SlicesFit value) (leads : valueAt value (segment :: path) = some found) :
    ∃ next, templateNode value = some value ∧ templateChild value segment = some next ∧
      Within next value ∧ valueAt next path = some found := by
  cases value with
  | object members =>
      obtain ⟨next, looked, onward⟩ := Option.bind_eq_some_iff.mp leads
      obtain ⟨before, after, rfl, -⟩ := List.lookup_eq_some_iff.mp looked
      have listed : (segment, next) ∈ before ++ (segment, next) :: after := by simp
      exact ⟨next, rfl, looked, .member listed .self, onward⟩
  | array items =>
      obtain ⟨index, digits, inner⟩ := Option.bind_eq_some_iff.mp leads
      obtain ⟨next, item, onward⟩ := Option.bind_eq_some_iff.mp inner
      obtain ⟨inside, -⟩ := List.getElem?_eq_some_iff.mp item
      have room := fits items .self
      have index_ : (index : Int) ≤ Text.maxInt64 := by omega
      refine ⟨next, rfl, ?_, .item (List.mem_of_getElem? item) .self, onward⟩
      have positive : (0 : Int) ≤ index := Int.natCast_nonneg index
      simp only [templateChild, Text.parseInt_of_digits digits index_, positive, if_true,
        Int.toNat_natCast]
      exact item
  | _ => cases leads

theorem valueAt_within {value : Json} {path : List String} {found : Json} (fits : SlicesFit value)
    (leads : valueAt value path = some found) : Within found value := by
  induction path generalizing value with
  | nil =>
      rw [valueAt] at leads
      cases leads
      exact .self
  | cons segment path ih =>
      obtain ⟨next, -, -, within, leads⟩ := valueAt_cons fits leads
      exact (ih (fits.within within) leads).trans within

/-- `resolveTemplatePath` follows a path that crosses no string. -/
theorem resolveTemplatePath_valueAt {value : Json} {path : List String} {found : Json}
    (fits : SlicesFit value) (segments : ∀ segment ∈ path, IsSegment segment)
    (leads : valueAt value path = some found) : resolveTemplatePath value path = some found := by
  induction path generalizing value with
  | nil =>
      rw [valueAt] at leads
      rw [resolveTemplatePath, leads]
  | cons segment path ih =>
      rw [List.forall_mem_cons] at segments
      obtain ⟨next, node, child, within, leads⟩ := valueAt_cons fits leads
      rw [resolveTemplatePath, if_neg segments.1.1, node, Option.bind_some, child, Option.bind_some]
      exact ih (fits.within within) segments.2 leads

/-- A text that is the JSON of a value is as good as the value. -/
theorem resolveTemplatePath_text {text : String} {value : Json} {segment : String}
    {path : List String} (denotes : decodeValue text = some value)
    (noText : templateNode value = some value) :
    resolveTemplatePath (.string text) (segment :: path) =
      resolveTemplatePath value (segment :: path) := by
  have node : templateNode (.string text) = templateNode value := denotes.trans noText.symm
  rw [resolveTemplatePath, resolveTemplatePath, node]

/-! ### A placeholder with a path -/

theorem isTemplatePathStartByte_not_dot {char : Char} (start : isTemplatePathStartByte char) :
    char ≠ '.' := by
  rintro rfl
  exact absurd start (by decide)

/-- The text of a path starts and ends within a segment. -/
theorem pathText_spec {path : List String} (some_ : path ≠ [])
    (segments : ∀ segment ∈ path, IsSegment segment) :
    (∀ char ∈ pathText path, isTemplatePathByte char) ∧
      (∃ first rest, pathText path = first :: rest ∧ isTemplatePathStartByte first) ∧
      ∃ front last, pathText path = front ++ [last] ∧ isTemplatePathStartByte last := by
  induction path with
  | nil => exact absurd rfl some_
  | cons segment path ih =>
      rw [List.forall_mem_cons] at segments
      obtain ⟨⟨named, chars⟩, segments⟩ := segments
      have bytes : ∀ char ∈ segment.toList, isTemplatePathByte char :=
        fun char member => isTemplatePathByte_of_start (chars char member)
      have letters : segment.toList ≠ [] := fun none => named (String.toList_eq_nil_iff.mp none)
      obtain ⟨first, rest, spelled⟩ := List.exists_cons_of_ne_nil letters
      have start : isTemplatePathStartByte first := chars first (by rw [spelled]; simp)
      cases path with
      | nil =>
          have whole : pathText [segment] = segment.toList := by simp [pathText]
          obtain ⟨front, last, ends⟩ := (List.eq_nil_or_concat' segment.toList).resolve_left letters
          rw [whole]
          refine ⟨bytes, ⟨first, rest, spelled, start⟩, front, last, ends, ?_⟩
          exact chars last (by rw [ends]; simp)
      | cons next path =>
          obtain ⟨inside, -, front, last, ends, final⟩ := ih (List.cons_ne_nil _ _) segments
          have whole : pathText (segment :: next :: path) =
              segment.toList ++ '.' :: pathText (next :: path) := by simp [pathText]
          rw [whole]
          refine ⟨?_, ⟨first, rest ++ '.' :: pathText (next :: path), ?_, start⟩,
            segment.toList ++ '.' :: front, last, ?_, final⟩
          · intro char member
            rcases List.mem_append.mp member with left | right
            · exact bytes char left
            · rcases List.mem_cons.mp right with rfl | right
              · decide
              · exact inside char right
          · rw [spelled, List.cons_append]
          · rw [ends, List.append_assoc, List.cons_append]

theorem split_pathText {path : List String} (some_ : path ≠ [])
    (segments : ∀ segment ∈ path, IsSegment segment) :
    Text.split (String.ofList (pathText path)) '.' = path := by
  have noDot : ∀ chars ∈ path.map String.toList, '.' ∉ chars := by
    intro chars listed dot
    obtain ⟨segment, member, rfl⟩ := List.mem_map.mp listed
    exact isTemplatePathStartByte_not_dot ((segments segment member).2 '.' dot) rfl
  have parts : path.map String.toList ≠ [] := by simpa using some_
  rw [Text.split, String.toList_ofList, pathText, List.splitOn_intercalate '.' noDot parts,
    List.map_map]
  have same : String.ofList ∘ String.toList = id := by
    funext segment
    exact String.ofList_toList
  rw [same, List.map_id]

/-- A path up to a character that no path has. -/
theorem templatePath_pathText {path : List String} (some_ : path ≠ [])
    (segments : ∀ segment ∈ path, IsSegment segment) {after : List Char}
    (ends : ∀ char ∈ after.head?, isTemplatePathByte char = false) :
    templatePath ('.' :: (pathText path ++ after)) = some (pathText path) := by
  obtain ⟨bytes, ⟨first, rest, spelled, start⟩, -⟩ := pathText_spec some_ segments
  have stops : after.takeWhile isTemplatePathByte = [] := by
    cases after with
    | nil => rfl
    | cons char after => rw [List.takeWhile_cons, ends char rfl, if_neg (by simp)]
  have whole : (pathText path ++ after).takeWhile isTemplatePathByte = pathText path := by
    rw [List.takeWhile_append_of_pos bytes, stops, List.append_nil]
  rw [spelled] at whole ⊢
  rw [List.cons_append, templatePath_cons, if_pos ⟨rfl, start⟩, ← List.cons_append, whole]

/-- The text under a path that resolves. -/
theorem templatePathText_resolved {value found : Json} {path : List String} {text : String}
    (some_ : path ≠ []) (segments : ∀ segment ∈ path, IsSegment segment)
    (resolved : resolveTemplatePath value path = some found)
    (written : templateValueString found = some text) :
    templatePathText value (pathText path) = some text := by
  obtain ⟨-, ⟨first, rest, starts, start⟩, front, last, ends, final⟩ :=
    pathText_spec some_ segments
  rw [templatePathText, if_neg, split_pathText some_ segments, resolved, Option.bind_some, written]
  rintro (empty | dot | dot)
  · rw [starts] at empty
    cases empty
  · rw [starts] at dot
    exact isTemplatePathStartByte_not_dot start (Option.some.inj dot)
  · rw [ends, List.getLast?_concat] at dot
    exact isTemplatePathStartByte_not_dot final (Option.some.inj dot)

/-- A round at a variable with a path that resolves writes the text under it. -/
theorem renderWrites_path {name : String} {path : List String} {after : List Char}
    {value found : Json} {text : String} (some_ : path ≠ [])
    (segments : ∀ segment ∈ path, IsSegment segment)
    (ends : ∀ char ∈ after.head?, isTemplatePathByte char = false)
    (named : templateName vars (name.toList ++ '.' :: (pathText path ++ after)) = some name)
    (looked : vars.lookup name = some value)
    (resolved : resolveTemplatePath value path = some found)
    (written : templateValueString found = some text) :
    renderWrites vars 0 ('$' :: (name.toList ++ '.' :: (pathText path ++ after))) =
      .value text.toList :: renderWrites vars 0 after := by
  have round : placeholder vars (name.toList ++ '.' :: (pathText path ++ after)) =
      (.value text.toList, name.toList.length + 1 + (pathText path).length) := by
    unfold placeholder
    rw [named]
    dsimp only
    rw [List.drop_left, templatePath_pathText some_ segments ends, looked, Option.getD_some]
    dsimp only
    rw [templatePathText_resolved some_ segments resolved written]
  have parts : name.toList ++ '.' :: (pathText path ++ after) =
      (name.toList ++ '.' :: pathText path) ++ after := by simp
  rw [parts] at round ⊢
  rw [renderWrites_dollar, round]
  rw [round, List.length_append, List.length_cons]
  omega

end MessagePusher.Template
