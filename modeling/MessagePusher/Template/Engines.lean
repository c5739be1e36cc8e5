import MessagePusher.Substitution.MaximalRun
import MessagePusher.Template.Simultaneous

/-!
# The two engines

Construct rules replace names wherever they occur. Templates of custom channels replace a name
only where its run of identifier characters ends. They agree where no name is a part of a longer
run, and where no value completes a name.
-/

namespace MessagePusher.Template

open Common Model JsonText Substitution

/-- What is written in a round, before values are escaped. -/
def unescaped : Write → List Char
  | .copy text => text
  | .value text => text

/-- What `RenderTemplate` makes of a template, up to the escaping of values. -/
def renderUnescaped (vars : Variables) (template : String) : String :=
  String.ofList ((renderWrites vars 0 template.toList).flatMap unescaped)

/-- Variables that hold strings. -/
def stringVariables (extracted : List (String × String)) : Variables :=
  extracted.map fun entry => (entry.1, .string entry.2)

/-- No name with its `$` in front has a dot behind it. -/
def Undotted (names : List String) (text : List Char) : Prop :=
  ∀ name ∈ names, ∀ front back, text ≠ front ++ '$' :: (name.toList ++ '.' :: back)

/-- The runs of identifier characters behind each `$` that begin with a name are names. -/
def WholeNames (names : List String) (text : String) : Prop :=
  WholeRuns '$' isTemplateIdentifierByte (replacedNames names) text.toList

/-- No value can complete a name that is replaced later. -/
def NothingCompleted (names : List String) (text : String) : Prop :=
  NoForms '$' isTemplateIdentifierByte (replacedNames names) text.toList

variable {names : List String} {text : String} {value : String → String}

theorem setting_replacedNames (distinct : names.Nodup)
    (identifiers : ∀ name ∈ names, IsIdentifier name) :
    Setting '$' isTemplateIdentifierByte (replacedNames names) where
  order := longestFirst_replacedNames distinct
  symbols := by
    intro name listed
    obtain ⟨key, member, rfl⟩ := mem_replacedNames.mp listed
    exact (identifiers key member).2
  markApart := by decide

theorem isFresh_blank : IsFresh '$' isTemplateIdentifierByte ' ' := ⟨by decide, by decide⟩

/-! ### The engine of templates -/

/-- The name in a round is the first one in the order of the names. -/
theorem templateName_eq (identifiers : ∀ name ∈ names, IsIdentifier name) {vars : Variables}
    (named : vars.map Prod.fst = names) (rest : List Char) :
    templateName vars rest = (firstName (replacedNames names) rest).map String.ofList := by
  have every : (vars.map Prod.fst).filter (· ≠ "") = names := by
    rw [named]
    exact List.filter_eq_self.mpr fun name listed => decide_eq_true (identifiers name listed).1
  rw [templateName, templateNames, every, firstName, replacedNames, List.find?_map, Option.map_map]
  have same : String.ofList ∘ String.toList = id := funext fun name => String.ofList_toList
  rw [same, Option.map_id]
  rfl

theorem lookup_stringVariables {name : String} (listed : name ∈ names) :
    (stringVariables (extractedOf names value)).lookup name = some (.string (value name)) := by
  rw [stringVariables, extractedOf, List.map_map]
  exact Store.Entries.lookup_graph (fun name => Json.string (value name)) listed

theorem Undotted.append {part rest : List Char} (undotted : Undotted names (part ++ rest)) :
    Undotted names rest := by
  rintro name listed front back rfl
  exact undotted name listed (part ++ front) back (by simp)

/-- A round at a string variable with no dot behind it. -/
theorem placeholder_string {name : String} (listed : name ∈ names) {after : List Char}
    (found : templateName (stringVariables (extractedOf names value)) (name.toList ++ after) =
      some name) (noDot : after.head? ≠ some '.') :
    placeholder (stringVariables (extractedOf names value)) (name.toList ++ after) =
      (if after.head?.any isTemplateIdentifierByte then .copy ('$' :: name.toList)
        else .value (value name).toList, name.toList.length) := by
  have noPath : templatePath after = none := by
    cases after with
    | nil => rfl
    | cons first after =>
        cases after with
        | nil => exact templatePath_single first
        | cons second after =>
            rw [templatePath_cons, if_neg fun both => noDot (congrArg some both.1)]
  unfold placeholder
  rw [found]
  dsimp only
  rw [List.drop_left, noPath, lookup_stringVariables listed]
  simp only [Option.getD_some, templateValueString]
  split_ifs
  · rfl
  · rfl

/-- A name that goes on is no whole name. -/
theorem wholeName_goesOn {name : List Char} {after : List Char}
    (found : firstName (replacedNames names) (name ++ after) = some name)
    (order : LongestFirst (replacedNames names)) (symbols : ∀ char ∈ name, isTemplateIdentifierByte char)
    (goesOn : after.head?.any isTemplateIdentifierByte) :
    wholeName isTemplateIdentifierByte (replacedNames names) (name ++ after) = none := by
  refine if_neg fun listed => ?_
  obtain ⟨chosen, again, longer⟩ := order.firstName listed (List.takeWhile_prefix _)
  obtain rfl := Option.some.inj (found.symm.trans again)
  have length := longer.length_le
  cases after with
  | nil => cases goesOn
  | cons symbol after =>
      have first : isTemplateIdentifierByte symbol := goesOn
      rw [List.takeWhile_append_of_pos symbols, List.takeWhile_cons_of_pos first,
        List.length_append, List.length_cons] at length
      omega

/-- A round without dots writes the value of the run behind the `$`, or copies a part of it. -/
theorem flatMap_renderWrites (distinct : names.Nodup)
    (identifiers : ∀ name ∈ names, IsIdentifier name) {template : List Char}
    (undotted : Undotted names template) :
    (renderWrites (stringVariables (extractedOf names value)) 0 template).flatMap unescaped =
      simultaneous '$' (wholeName isTemplateIdentifierByte (replacedNames names))
        (valueOf (extractedOf names value)) template := by
  have setting := setting_replacedNames distinct identifiers
  have named : (stringVariables (extractedOf names value)).map Prod.fst = names := by
    rw [stringVariables, List.map_map]
    exact extractedOf_names names value
  unfold simultaneous
  induction length : template.length using Nat.strong_induction_on generalizing template with
  | _ length ih =>
    cases template with
    | nil => rfl
    | cons char rest =>
        rw [List.length_cons] at length
        have undottedRest : Undotted names rest :=
          Undotted.append (show Undotted names ([char] ++ rest) from undotted)
        by_cases dollar : char = '$'
        · subst dollar
          cases found : firstName (replacedNames names) rest with
          | none =>
              have round : placeholder (stringVariables (extractedOf names value)) ([] ++ rest) =
                  (.copy ['$'], 0) := by
                rw [placeholder, List.nil_append, templateName_eq identifiers named, found]
                rfl
              have noName : wholeName isTemplateIdentifierByte (replacedNames names) rest = none := by
                refine if_neg fun listed => ?_
                obtain ⟨chosen, again, -⟩ := setting.order.firstName listed (List.takeWhile_prefix _)
                cases found.symm.trans again
              have copied := @renderWrites_dollar (stringVariables (extractedOf names value)) [] rest
                (by rw [round]; rfl)
              rw [round, List.nil_append] at copied
              rw [copied, List.flatMap_cons, ih rest.length (by omega) undottedRest rfl,
                pieces_plain fun _ => noName, render_cons]
              rfl
          | some key =>
              obtain ⟨name, listed, rfl⟩ := mem_replacedNames.mp (mem_of_firstName found)
              obtain ⟨⟨after, rfl⟩, alone⟩ := setting.chooses _ _ found
              have symbols := setting.symbols _ (mem_of_firstName found)
              have later := @ih after.length (by rw [← length, List.length_append]; omega) after
                undottedRest.append rfl
              have noDot : after.head? ≠ some '.' := by
                intro dot
                obtain ⟨back, rfl⟩ := List.head?_eq_some_iff.mp dot
                exact undotted name listed [] back rfl
              have named_ : templateName (stringVariables (extractedOf names value))
                  (name.toList ++ after) = some name := by
                rw [templateName_eq identifiers named, found, Option.map_some, String.ofList_toList]
              have round := placeholder_string listed named_ noDot
              rw [renderWrites_dollar (by rw [round]), round, List.flatMap_cons, later]
              by_cases goesOn : after.head?.any isTemplateIdentifierByte
              · have noName := wholeName_goesOn found setting.order symbols goesOn
                rw [if_pos goesOn, pieces_plain fun _ => noName, render_cons,
                  render_pieces_append alone]
                rfl
              · have isRun : IsRun isTemplateIdentifierByte name.toList after := by
                  refine ⟨symbols, fun symbol first => ?_⟩
                  rw [first] at goesOn
                  simpa using goesOn
                have whole : wholeName isTemplateIdentifierByte (replacedNames names)
                    (name.toList ++ after) = some name.toList := by
                  rw [wholeName_eq, isRun.takeWhile, if_pos (mem_of_firstName found)]
                rw [if_neg goesOn, pieces_slot whole, render_cons, Piece.put, Option.getD_some,
                  valueOf_extractedOf value listed]
                rfl
        · rw [renderWrites_copy dollar, List.flatMap_cons, ih rest.length (by omega) undottedRest rfl,
            pieces_plain fun same => absurd same dollar, render_cons]
          rfl

/-! ### Where the engines agree -/

/-- The two engines make the same of a text, up to the escaping of values. -/
def EnginesAgree (text : String) (extracted : List (String × String)) : Prop :=
  replaceWebhookVariables (.string text) (sortedWebhookVariables extracted) =
    .string (renderUnescaped (stringVariables extracted) text)

theorem enginesAgree_iff (distinct : names.Nodup) (identifiers : ∀ name ∈ names, IsIdentifier name)
    (undotted : Undotted names text.toList) : EnginesAgree text (extractedOf names value) ↔
      sequential '$' (replacedNames names) (valueOf (extractedOf names value)) text.toList =
        simultaneous '$' (wholeName isTemplateIdentifierByte (replacedNames names))
          (valueOf (extractedOf names value)) text.toList := by
  rw [EnginesAgree, replaceWebhookVariables, mapLeaves, Json.string.injEq, replaceInText_eq,
    extractedOf_names, renderUnescaped, flatMap_renderWrites distinct identifiers undotted]
  exact ⟨fun same => String.ofList_injective same, congrArg String.ofList⟩

/-- On a text without dotted names the engines agree for given values without a `$` where runs
that begin with a name are names and the occurrences stay apart. They agree for all such values if
and only if the runs are names and no value can complete one. -/
theorem engines_agree_iff (distinct : names.Nodup)
    (identifiers : ∀ name ∈ names, IsIdentifier name) (undotted : Undotted names text.toList) :
    (∀ value, (∀ name ∈ names, '$' ∉ (value name).toList) → WholeNames names text →
      StaysApart (extractedOf names value) text → EnginesAgree text (extractedOf names value)) ∧
    ((∀ value, (∀ name ∈ names, '$' ∉ (value name).toList) →
        EnginesAgree text (extractedOf names value)) ↔
      WholeNames names text ∧ NothingCompleted names text) := by
  have setting := setting_replacedNames distinct identifiers
  constructor
  · intro value plain whole apart
    rw [StaysApart, placeholders, extractedOf_names] at apart
    rw [enginesAgree_iff distinct identifiers undotted,
      sequential_eq_simultaneous setting.chooses setting.order.nodup
        (fun _ listed => mem_of_slot setting.alone listed) apart,
      simultaneous, simultaneous, setting.pieces_eq whole]
  · rw [WholeNames, NothingCompleted, ← setting.sequential_eq_wholeName_iff isFresh_blank]
    constructor
    · intro agree value plain
      have same := eq_valueOf_extractedOf names value
      have here := (enginesAgree_iff distinct identifiers undotted).mp
        (agree (fun key => String.ofList (value key.toList)) fun name listed => by
          rw [String.toList_ofList]
          exact plain _ (mem_replacedNames.mpr ⟨name, listed, rfl⟩))
      rw [sequential_congr same, here]
      exact (simultaneous_congr setting.chooses_wholeName
        (fun _ name found => same name (mem_of_wholeName found)) _).symm
    · intro agree value plain
      refine (enginesAgree_iff distinct identifiers undotted).mpr (agree _ fun name listed => ?_)
      obtain ⟨key, member, rfl⟩ := mem_replacedNames.mp listed
      rw [valueOf_extractedOf _ member]
      exact plain key member

theorem undotted_of_not_mem {template : List Char} (noDot : '.' ∉ template) :
    Undotted names template := by
  rintro name - front back rfl
  exact noDot (by simp)

theorem engines_agree_iff_title :
    (∀ value, (∀ name ∈ titleNames, '$' ∉ (value name).toList) → WholeNames titleNames "$title!" →
      StaysApart (extractedOf titleNames value) "$title!" →
        EnginesAgree "$title!" (extractedOf titleNames value)) ∧
    ((∀ value, (∀ name ∈ titleNames, '$' ∉ (value name).toList) →
        EnginesAgree "$title!" (extractedOf titleNames value)) ↔
      WholeNames titleNames "$title!" ∧ NothingCompleted titleNames "$title!") :=
  engines_agree_iff (by decide) isIdentifier_titleNames (undotted_of_not_mem (by decide))

/-- The rule engine takes the title out of a longer name that is not defined. -/
theorem undefined_name_is_cut :
    ¬ ∀ names text value, names.Nodup → (∀ name ∈ names, IsIdentifier name) →
      Undotted names text.toList → (∀ name ∈ names, '$' ∉ (value name).toList) →
      EnginesAgree text (extractedOf names value) := by
  intro claimed
  have agree := claimed titleNames "$title_extra" (fun _ => "x") (by decide)
    isIdentifier_titleNames (undotted_of_not_mem (by decide)) (by decide)
  have same := Json.string.inj agree
  revert same
  decide

end MessagePusher.Template
