import MessagePusher.Template.ByteScan

/-!
# Whole runs

Behind a `$`, the loop of `RenderTemplate` looks for the longest name that fits, and then whether an
identifier goes on there. That comes to the whole run of identifier bytes: it is replaced when it is
a name, and copied when it is none.
-/

namespace MessagePusher.Template.Bytewise

open Common.TemplateBytes JsonText Utf8

/-- The longest run of identifier bytes behind a `$`. -/
def identifierRun (after : Bytes) : Bytes := after.takeWhile isTemplateIdentifierByte

def behindRun (after : Bytes) : Bytes := after.dropWhile isTemplateIdentifierByte

/-- The text begins with a dot and a byte of a path. -/
def PathBegins (text : Bytes) : Prop := ∃ byte more, text = 0x2e :: byte :: more ∧ isTemplatePathByte byte

/-- A string, or JSON whose numbers are JSON numbers. -/
def Value.Valid : Value → Prop
  | .text _ => True
  | .json value => NumbersValid value

variable {vars : Variables} {run rest after name text : Bytes} {value : Value}

theorem mem_names_of_lookup (looked : vars.lookup name = some value) :
    name ∈ vars.map Prod.fst := by
  obtain ⟨front, back, rfl, -⟩ := List.lookup_eq_some_iff.mp looked
  simp

theorem exists_templateValueString (valid : Value.Valid value) :
    ∃ text, templateValueString value = some text := by
  cases value with
  | text bytes => exact ⟨bytes, rfl⟩
  | json value =>
      have marshals : ∃ text, marshal value = some text := ⟨_, if_pos valid⟩
      obtain ⟨text, marshalled⟩ : ∃ text, Common.templateValueString value = some text := by
        cases value with
        | object members => exact marshals
        | array items => exact marshals
        | null => exact ⟨_, rfl⟩
        | bool value => exact ⟨_, rfl⟩
        | number literal => exact ⟨_, rfl⟩
        | string text => exact ⟨_, rfl⟩
      exact ⟨_, congrArg (Option.map _) marshalled⟩

/-! ### The run behind a `$` -/

theorem run_append (after : Bytes) : identifierRun after ++ behindRun after = after :=
  List.takeWhile_append_dropWhile

theorem identifier_of_mem_run {byte : UInt8} (member : byte ∈ identifierRun after) :
    isTemplateIdentifierByte byte :=
  List.all_eq_true.mp List.all_takeWhile byte member

theorem noDollar_of_identifiers (symbols : ∀ byte ∈ text, isTemplateIdentifierByte byte) :
    0x24 ∉ text := fun dollar => absurd (symbols _ dollar) (by decide)

theorem head_behindRun {byte : UInt8} (first : byte ∈ (behindRun after).head?) :
    isTemplateIdentifierByte byte = false := by
  have stops := List.head?_dropWhile_not isTemplateIdentifierByte after
  rw [← behindRun, first] at stops
  simpa using stops

/-- A name that fits is within the run. -/
theorem prefix_run (symbols : ∀ byte ∈ name, isTemplateIdentifierByte byte) (fits : name <+: after) :
    name <+: identifierRun after := by
  obtain ⟨more, rfl⟩ := fits
  rw [identifierRun, List.takeWhile_append_of_pos symbols]
  exact List.prefix_append _ _

theorem templatePath_of_noDot (noDot : rest.head? ≠ some 0x2e) : templatePath rest = none := by
  cases rest with
  | nil => rfl
  | cons first rest =>
      cases rest with
      | nil => exact templatePath_single first
      | cons second rest => rw [templatePath_cons, if_neg fun both => noDot (congrArg some both.1)]

theorem templatePath_of_plain (plain : ¬ PathBegins rest) : templatePath rest = none := by
  cases rest with
  | nil => rfl
  | cons dot rest =>
      cases rest with
      | nil => exact templatePath_single dot
      | cons byte more =>
          rw [templatePath_cons, if_neg]
          rintro ⟨rfl, start⟩
          exact plain ⟨byte, more, rfl, isTemplatePathByte_of_start start⟩

/-! ### What the loop writes -/

theorem renderWrites_copies (noDollar : 0x24 ∉ text) (rest : Bytes) :
    renderWrites vars 0 (text ++ rest) =
      text.map (fun byte => .copy [byte]) ++ renderWrites vars 0 rest := by
  induction text with
  | nil => rfl
  | cons byte text ih =>
      obtain ⟨first, others⟩ := List.ne_and_not_mem_of_not_mem_cons noDollar
      rw [List.cons_append, renderWrites_copy first.symm, ih others]
      rfl

theorem renderWrites_before (identifiers : Identifiers vars) (before after : Bytes) :
    renderWrites vars 0 (before ++ 0x24 :: after) =
      renderWrites vars 0 before ++ renderWrites vars 0 (0x24 :: after) := by
  refine renderWrites_append identifiers ?_ before
  rintro byte ⟨⟩
  decide

/-- A round at a variable with no path behind it. -/
theorem placeholder_plain (named : templateName vars (name ++ rest) = some name)
    (looked : vars.lookup name = some value) (noPath : templatePath rest = none) :
    placeholder vars (name ++ rest) =
      (if rest.head?.any isTemplateIdentifierByte then .copy (0x24 :: name)
        else plainWrite name value, name.length) := by
  unfold placeholder
  rw [named]
  dsimp only
  rw [List.drop_left, noPath, looked, Option.getD_some]
  dsimp only
  split_ifs
  · rfl
  · rfl

/-- A run that is a name is replaced. -/
theorem renderWrites_defined (identifiers : Identifiers vars) (named : identifierRun after ≠ [])
    (looked : vars.lookup (identifierRun after) = some value)
    (written : templateValueString value = some text) (plain : ¬ PathBegins (behindRun after)) :
    renderWrites vars 0 (0x24 :: after) = .value text :: renderWrites vars 0 (behindRun after) := by
  have listed : identifierRun after ∈ vars.map Prod.fst :=
    mem_names_of_lookup looked
  have found : templateName vars (identifierRun after ++ behindRun after) =
      some (identifierRun after) := by
    rw [run_append]
    refine templateName_longest listed named (List.takeWhile_prefix _) fun other member fits => ?_
    exact (prefix_run (identifiers other member) fits).length_le
  have ends : ¬ ((behindRun after).head?.any isTemplateIdentifierByte) = true := by
    intro goesOn
    obtain ⟨byte, first, identifier⟩ := (Option.any_eq_true _ _).mp goesOn
    rw [head_behindRun first] at identifier
    cases identifier
  have round := placeholder_plain found looked (templatePath_of_plain plain)
  rw [if_neg ends, plainWrite, written] at round
  conv_lhs => rw [← run_append after]
  rw [renderWrites_dollar (by rw [round]), round]

/-- A run that is no name is copied. -/
theorem renderWrites_undefined (identifiers : Identifiers vars)
    (unlisted : identifierRun after ∉ vars.map Prod.fst) :
    ∃ copies : List Bytes, copies.flatten = 0x24 :: identifierRun after ∧
      renderWrites vars 0 (0x24 :: after) =
        copies.map Write.copy ++ renderWrites vars 0 (behindRun after) := by
  have symbols : ∀ byte ∈ identifierRun after, isTemplateIdentifierByte byte :=
    fun byte => identifier_of_mem_run
  have bytewise : ∀ text : Bytes, (text.map fun byte => [byte]).flatten = text := by
    intro text
    rw [← List.flatMap_def]
    exact List.flatMap_singleton' text
  cases found : templateName vars after with
  | none =>
      have round : placeholder vars ([] ++ after) = (.copy [0x24], 0) := by
        rw [List.nil_append, placeholder, found]
      have first : renderWrites vars 0 (0x24 :: ([] ++ after)) =
          (placeholder vars ([] ++ after)).1 :: renderWrites vars 0 after :=
        renderWrites_dollar (by rw [round]; rfl)
      refine ⟨[0x24] :: (identifierRun after).map fun byte => [byte], ?_, ?_⟩
      · rw [List.flatten_cons, bytewise, List.singleton_append]
      · rw [round, List.nil_append] at first
        rw [first]
        conv_lhs => rw [← run_append after]
        rw [renderWrites_copies (noDollar_of_identifiers symbols), List.map_cons, List.map_map,
          List.cons_append]
        rfl
  | some name =>
      obtain ⟨listed, behind, rfl⟩ := templateName_spec found
      obtain ⟨value, looked⟩ := lookup_of_listed listed
      have inName := identifiers name listed
      have run : identifierRun (name ++ behind) = name ++ identifierRun behind :=
        List.takeWhile_append_of_pos inName
      have rest : behindRun (name ++ behind) = behindRun behind :=
        List.dropWhile_append_of_pos inName
      rw [run] at unlisted
      rw [run, rest]
      have more : ∃ byte others, behind = byte :: others ∧ isTemplateIdentifierByte byte := by
        cases behind with
        | nil => exact absurd listed (by simpa [identifierRun] using unlisted)
        | cons byte others =>
            by_cases identifier : isTemplateIdentifierByte byte
            · exact ⟨byte, others, rfl, identifier⟩
            · rw [identifierRun, List.takeWhile_cons_of_neg identifier, List.append_nil] at unlisted
              exact absurd listed unlisted
      obtain ⟨byte, others, rfl, identifier⟩ := more
      have noPath : templatePath (byte :: others) = none := by
        refine templatePath_of_noDot fun dot => ?_
        obtain rfl := Option.some.inj dot
        cases identifier
      have round := placeholder_plain found looked noPath
      rw [List.head?_cons, Option.any_some, if_pos identifier] at round
      have goesOn : ∀ symbol ∈ identifierRun (byte :: others), isTemplateIdentifierByte symbol :=
        fun symbol => identifier_of_mem_run
      refine ⟨(0x24 :: name) :: (identifierRun (byte :: others)).map fun byte => [byte], ?_, ?_⟩
      · rw [List.flatten_cons, bytewise, List.cons_append]
      · rw [renderWrites_dollar (by rw [round]), round]
        conv_lhs => rw [← run_append (byte :: others)]
        rw [renderWrites_copies (noDollar_of_identifiers goesOn), List.map_cons, List.map_map,
          List.cons_append]
        rfl

/-! ### The rule -/

/-- What is rendered of a template with a `$` that is replaced. -/
theorem renderTemplate_defined (isPrint : Char → Bool) (identifiers : Identifiers vars)
    (named : identifierRun after ≠ []) (looked : vars.lookup (identifierRun after) = some value)
    (written : templateValueString value = some text) (plain : ¬ PathBegins (behindRun after))
    (before : Bytes) :
    renderTemplate isPrint (before ++ 0x24 :: after) vars =
      renderTemplate isPrint before vars ++ escapeTemplateValue isPrint text ++
        renderTemplate isPrint (behindRun after) vars := by
  rw [renderTemplate, renderWrites_before identifiers,
    renderWrites_defined identifiers named looked written plain, List.flatMap_append,
    List.flatMap_cons, ← List.append_assoc]
  rfl

/-- What is rendered of a template with a `$` that is copied. -/
theorem renderTemplate_undefined (isPrint : Char → Bool) (identifiers : Identifiers vars)
    (unlisted : identifierRun after ∉ vars.map Prod.fst) (before : Bytes) :
    renderTemplate isPrint (before ++ 0x24 :: after) vars =
      renderTemplate isPrint before vars ++ 0x24 :: identifierRun after ++
        renderTemplate isPrint (behindRun after) vars := by
  obtain ⟨copies, whole, writes⟩ := renderWrites_undefined identifiers unlisted
  have copied : (copies.map Write.copy).flatMap (Write.written isPrint) =
      0x24 :: identifierRun after := by
    rw [List.flatMap_map, ← whole]
    exact List.flatMap_id
  rw [renderTemplate, renderWrites_before identifiers, writes, List.flatMap_append,
    List.flatMap_append, copied, ← List.append_assoc]
  rfl

/-- A `$` and the run behind it are rendered as the escaped value when the run is a name, and as
they are when it is none, each beside what is rendered of the template before and behind them. The
whole output is made of parts of the template, each in its place, and of values. -/
theorem placeholder_rule (isPrint : Char → Bool) (identifiers : Identifiers vars)
    (named : [] ∉ vars.map Prod.fst) (valid : ∀ entry ∈ vars, Value.Valid entry.2)
    (template : Bytes) :
    (∀ before after, template = before ++ 0x24 :: after → ¬ PathBegins (behindRun after) →
      (∀ value, vars.lookup (identifierRun after) = some value →
        ∃ text, templateValueString value = some text ∧
          renderTemplate isPrint template vars =
            renderTemplate isPrint before vars ++ escapeTemplateValue isPrint text ++
              renderTemplate isPrint (behindRun after) vars) ∧
      (vars.lookup (identifierRun after) = none →
        renderTemplate isPrint template vars =
          renderTemplate isPrint before vars ++ 0x24 :: identifierRun after ++
            renderTemplate isPrint (behindRun after) vars)) ∧
    ∃ parts : List (Bytes × Write), template = parts.flatMap Prod.fst ∧
      renderTemplate isPrint template vars = parts.flatMap (fun part => part.2.written isPrint) ∧
      ∀ part ∈ parts, Replaces vars part.1 part.2 := by
  constructor
  · rintro before after rfl plain
    constructor
    · intro value looked
      have listed := mem_names_of_lookup looked
      obtain ⟨front, back, split, -⟩ := List.lookup_eq_some_iff.mp looked
      have validValue : Value.Valid value := valid (identifierRun after, value) (by simp [split])
      obtain ⟨text, written⟩ := exists_templateValueString validValue
      have nonempty : identifierRun after ≠ [] := fun empty => named (empty ▸ listed)
      exact ⟨text, written,
        renderTemplate_defined isPrint identifiers nonempty looked written plain before⟩
    · intro unknown
      refine renderTemplate_undefined isPrint identifiers (fun listed => ?_) before
      obtain ⟨value, looked⟩ := lookup_of_listed listed
      cases unknown.symm.trans looked
  · obtain ⟨parts, whole, writes, each⟩ := exists_parts identifiers template
    refine ⟨parts, whole.symm, ?_, each⟩
    rw [renderTemplate, ← writes, List.flatMap_map]

/-- A variable whose name longer names begin with. -/
def titleVars : Variables := [(encode "title".toList, .text (encode "A\"B".toList))]

theorem identifiers_titleVars : Identifiers titleVars := identifiers_of_all (by decide)

example : renderTemplate (fun _ => true) (encode "<$title.html $title_x $title>".toList) titleVars =
    encode "<A\\\"B.html $title_x A\\\"B>".toList := by decide

/-- The template `$title_x $title!`: the first run is no name, the second is one. -/
def titleTemplate : Bytes := encode "$title_x $title!".toList

theorem placeholder_rule_titles :
    renderTemplate (fun _ => true) titleTemplate titleVars =
        encode "$title_x".toList ++ renderTemplate (fun _ => true) (encode " $title!".toList)
          titleVars ∧
      renderTemplate (fun _ => true) titleTemplate titleVars =
        renderTemplate (fun _ => true) (encode "$title_x ".toList) titleVars ++
          encode "A\\\"B".toList ++ renderTemplate (fun _ => true) (encode "!".toList) titleVars := by
  have rule := (placeholder_rule (fun _ => true) identifiers_titleVars (by decide)
    (by rintro entry (_ | ⟨_, ⟨⟩⟩); trivial) titleTemplate).1
  have noPath : ∀ {text : Bytes}, text.head? ≠ some 0x2e → ¬ PathBegins text := by
    rintro _ noDot ⟨byte, more, rfl, -⟩
    exact noDot rfl
  have copied := (rule [] (encode "title_x $title!".toList) (by decide) (noPath (by decide))).2
    (by decide)
  obtain ⟨text, written, replaced⟩ := (rule (encode "$title_x ".toList) (encode "title!".toList)
    (by decide) (noPath (by decide))).1 _ rfl
  obtain rfl := Option.some.inj written
  exact ⟨copied, replaced⟩

/-! ### Locality -/

/-- What does not go on with a name or a path is rendered on its own. -/
theorem renderTemplate_append (isPrint : Char → Bool) (identifiers : Identifiers vars)
    (boundary : Boundary after) (text : Bytes) :
    renderTemplate isPrint (text ++ after) vars =
      renderTemplate isPrint text vars ++ renderTemplate isPrint after vars := by
  rw [renderTemplate, renderWrites_append identifiers boundary, List.flatMap_append]
  rfl

theorem renderTemplate_append_title :
    renderTemplate (fun _ => true) (encode "$title".toList ++ encode "!".toList) titleVars =
      renderTemplate (fun _ => true) (encode "$title".toList) titleVars ++
        renderTemplate (fun _ => true) (encode "!".toList) titleVars := by
  have first : (encode "!".toList).head? = some 0x21 := by decide
  have boundary : Boundary (encode "!".toList) := by
    rw [Boundary, first]
    rintro byte ⟨⟩
    rfl
  exact renderTemplate_append _ identifiers_titleVars boundary _

end MessagePusher.Template.Bytewise
