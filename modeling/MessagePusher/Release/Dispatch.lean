import MessagePusher.Release.TagNames

/-!
# A dispatch on a pushed tag

A run that the push of a tag starts, and one that is started by hand on the same tag with the same
variables. The typed version takes the place of the tag in the state file, and the rules read it
there as it was typed; `dispatch_repeats_push_iff` says which spellings make no difference.
-/

namespace MessagePusher.Release

open Common Scripts Semantics.Fallible

/-- The variables that tell two runs apart. -/
def runVariables : List String :=
  ["GITHUB_EVENT_NAME", "GITHUB_EVENT_PATH", "GITHUB_RUN_NUMBER", "GITHUB_RUN_ATTEMPT",
    "INPUT_VERSION", "INPUT_VARIANTS", "INPUT_DRY_RUN"]

/-- The push of `tag` and a dispatch on the same ref with `version` typed in, both accepted. -/
structure Rerun (engine : Engine) (tag version : String) (push dispatch : Runner)
    (pushed dispatched : State) : Prop where
  sameVariables : ∀ name, name ∉ runVariables → push.env name = dispatch.env name
  sameFiles : push.readFile = dispatch.readFile
  noInputs : dispatchInput engine push "VERSION" = "" ∧ dispatchInput engine push "VARIANTS" = ""
  tagRef : Text.hasPrefix (readOptional (push.env "GITHUB_REF")) "refs/tags/" = true
  tagged : rawTag engine push = tag
  typed : dispatchInput engine dispatch "VERSION" = version
  pushAccepted : resolveRelease engine push = .ok pushed
  dispatchAccepted : resolveRelease engine dispatch = .ok dispatched

/-- The dispatch gives each of its variants the tag names that the push gives it, and where both
have the same variants, both fail or none does. -/
def SameTagNames (engine : Engine) (pushed dispatched : State) (input : MetaInput) (later : String) :
    Prop :=
  (∀ names, tagNamesOf (computeBuilds engine pushed input) = some names →
    tagNamesOf (computeBuilds engine dispatched { input with now := later }) =
      some (names.filter fun entry => entry.1 ∈ dispatched.variants.map Variant.name)) ∧
    (dispatched.variants = pushed.variants →
      tagNamesOf (computeBuilds engine pushed input) = none →
        tagNamesOf (computeBuilds engine dispatched { input with now := later }) = none)

variable {engine : Engine} {tag version : String} {push dispatch : Runner}
  {pushed dispatched : State}

/-! ### Spellings of a version -/

/-- What `stripTagPrefix` strips off. -/
def tagPrefix (text : String) : String :=
  (if Text.hasPrefix text "refs/tags/" then "refs/tags/" else "") ++
    (if Text.hasPrefix (Text.trimPrefix text "refs/tags/") "v" then "v" else "")

theorem append_trimPrefix (text start : String) :
    (if Text.hasPrefix text start then start else "") ++ Text.trimPrefix text start = text := by
  unfold Text.trimPrefix
  split_ifs with begins
  · obtain ⟨rest, whole⟩ := List.isPrefixOf_iff_prefix.1 begins
    apply String.toList_injective
    rw [String.toList_append, String.toList_ofList, ← whole, List.drop_left]
  · exact String.empty_append

theorem tagPrefix_append {text : String} (trimmed : trim text = text) :
    tagPrefix text ++ stripTagPrefix text = text := by
  unfold tagPrefix stripTagPrefix
  rw [trimmed, String.append_assoc, append_trimPrefix, append_trimPrefix]

/-! ### The two states -/

/-- When the labels are written makes no difference to what is read. -/
theorem parseMeta_now (input : MetaInput) (later : String) :
    parseMeta { input with now := later } = parseMeta input := by
  simp only [parseMeta]

theorem resolveRelease_ok_iff {runner : Runner} {state : State} :
    resolveRelease engine runner = .ok state ↔ ∃ variants images options,
      checkTag engine runner = .ok () ∧ selectedVariants engine runner = .ok variants ∧
        imagesFrom engine runner.env (registriesFrom engine runner.env) (repoNameOf runner)
          (isDryRun engine runner) = .ok images ∧
        buildOptionsFrom runner.env (isDryRun engine runner) = .ok options ∧
        releaseState engine runner variants images options = state := by
  unfold resolveRelease
  simp only [bind_ok_iff, pure_ok_iff]
  constructor
  · rintro ⟨_, checked, variants, selected, images, based, options, optional, same⟩
    exact ⟨variants, images, options, checked, selected, based, optional, same⟩
  · rintro ⟨variants, images, options, checked, selected, based, optional, same⟩
    exact ⟨_, checked, variants, selected, images, based, options, optional, same⟩

/-- What `checkTag` lets pass. -/
theorem checkTag_ok {runner : Runner} (passed : checkTag engine runner = .ok ()) :
    (dispatchInput engine runner "VERSION" ≠ "" →
      Text.hasPrefix (readOptional (runner.env "GITHUB_REF")) "refs/tags/" = true →
        stripTagPrefix (dispatchInput engine runner "VERSION") =
          stripTagPrefix (readOptional (runner.env "GITHUB_REF_NAME"))) ∧
      isSemver (stripTagPrefix (rawTag engine runner)) = true := by
  unfold checkTag at passed
  simp only [check_ok_iff] at passed
  obtain ⟨consistent, -, -, semver⟩ := passed
  refine ⟨?_, ?_⟩
  · intro typed tagRef
    by_contra different
    exact consistent ⟨typed, tagRef, different⟩
  · by_contra mistyped
    rw [if_pos mistyped] at semver
    cases semver

namespace Rerun

variable (run : Rerun engine tag version push dispatch pushed dispatched)

include run

theorem env_eq {name : String} (own : name ∉ runVariables) : push.env name = dispatch.env name :=
  run.sameVariables name own

/-- The dispatch publishes the version that was typed in, else the tag. -/
theorem rawTag_dispatch :
    rawTag engine dispatch = if version = "" then tag else version := by
  have refName := run.env_eq (by decide : "GITHUB_REF_NAME" ∉ runVariables)
  have ref := run.env_eq (by decide : "GITHUB_REF" ∉ runVariables)
  have tagged := run.tagged
  unfold rawTag at tagged ⊢
  rw [run.noInputs.1, refName, ref] at tagged
  rw [run.typed]
  by_cases blank : version = ""
  · rw [if_pos blank, if_neg (not_not.mpr blank), ← tagged]
    rfl
  · rw [if_neg blank, if_pos blank]

/-- A version that was typed in names the same release. -/
theorem consistent (typed : version ≠ "") :
    stripTagPrefix version = stripTagPrefix tag ∧ trim tag = tag := by
  have refName := run.env_eq (by decide : "GITHUB_REF_NAME" ∉ runVariables)
  have ref := run.env_eq (by decide : "GITHUB_REF" ∉ runVariables)
  obtain ⟨_, _, _, passed, -⟩ := resolveRelease_ok_iff.1 run.dispatchAccepted
  obtain ⟨agrees, semver⟩ := checkTag_ok passed
  rw [run.typed, ← ref, ← refName] at agrees
  have same := agrees typed run.tagRef
  rw [run.rawTag_dispatch, if_neg typed, same] at semver
  have named : readOptional (push.env "GITHUB_REF_NAME") ≠ "" := by
    intro blank
    rw [blank] at semver
    exact absurd semver (by decide)
  have tagIs : tag = readOptional (push.env "GITHUB_REF_NAME") := by
    rw [← run.tagged]
    unfold rawTag
    rw [run.noInputs.1]
    simp only [ne_eq, not_true_eq_false, if_false, named, not_false_eq_true, if_true]
  rw [tagIs]
  exact ⟨same, trim_trim _⟩

theorem prerelease_eq : dispatched.prerelease = pushed.prerelease := by
  obtain ⟨_, _, _, -, -, -, -, rfl⟩ := resolveRelease_ok_iff.1 run.pushAccepted
  obtain ⟨_, _, _, -, -, -, -, rfl⟩ := resolveRelease_ok_iff.1 run.dispatchAccepted
  simp only [releaseState, run.rawTag_dispatch, run.tagged]
  split_ifs with blank
  · rfl
  · rw [(run.consistent blank).1]

theorem isTagEvent_eq : pushed.isTagEvent = true ∧ dispatched.isTagEvent = true := by
  obtain ⟨_, _, _, -, -, -, -, rfl⟩ := resolveRelease_ok_iff.1 run.pushAccepted
  obtain ⟨_, _, _, -, -, -, -, rfl⟩ := resolveRelease_ok_iff.1 run.dispatchAccepted
  have ref := run.env_eq (by decide : "GITHUB_REF" ∉ runVariables)
  have later := run.tagRef
  rw [ref] at later
  simp only [releaseState, run.tagRef, later, Bool.true_or, and_self]

/-- The rules of both runs read the same, but for the tag. -/
theorem context_eq : pushed.context.tag = tag ∧
    dispatched.context =
      { pushed.context with tag := if version = "" then tag else version } := by
  have prerelease := run.prerelease_eq
  obtain ⟨pushEvent, dispatchEvent⟩ := run.isTagEvent_eq
  have tagged := run.tagged
  have typed := run.rawTag_dispatch
  have ref := run.env_eq (by decide : "GITHUB_REF" ∉ runVariables)
  have sha := run.env_eq (by decide : "GITHUB_SHA" ∉ runVariables)
  obtain ⟨_, _, _, -, -, -, -, rfl⟩ := resolveRelease_ok_iff.1 run.pushAccepted
  obtain ⟨_, _, _, -, -, -, -, rfl⟩ := resolveRelease_ok_iff.1 run.dispatchAccepted
  simp only [State.context, pushEvent, dispatchEvent, prerelease, if_true]
  simp only [releaseState, ref, sha, tagged, typed, and_self]

/-- The dispatch chooses among the variants of the push. -/
theorem variantSelection_dispatch {all chosen : List Variant}
    (selects : selectedVariants engine push = .ok all)
    (selects' : selectedVariants engine dispatch = .ok chosen) :
    variantSelection all (dispatchInput engine dispatch "VARIANTS") = .ok chosen := by
  have variants := run.env_eq (by decide : "DOCKER_VARIANTS" ∉ runVariables)
  have file := run.env_eq (by decide : "DOCKER_VARIANTS_FILE" ∉ runVariables)
  unfold selectedVariants at selects selects'
  obtain ⟨table, parsed, whole⟩ := bind_ok_iff.1 selects
  obtain ⟨table', parsed', kept⟩ := bind_ok_iff.1 selects'
  rw [run.noInputs.2] at whole
  have isAll : table = all := Except.ok.inj whole
  unfold variantTableRaw at parsed parsed'
  rw [← variants, ← file, ← run.sameFiles, parsed] at parsed'
  have same : table = table' := Except.ok.inj parsed'
  rw [← isAll, same]
  exact kept

/-- The dispatch builds variants of the push. -/
theorem variants_eq : dispatched.variants =
    pushed.variants.filter fun variant =>
      decide (variant.name ∈ dispatched.variants.map Variant.name) := by
  obtain ⟨all, _, _, -, selects, -, -, pushIs⟩ := resolveRelease_ok_iff.1 run.pushAccepted
  obtain ⟨chosen, _, _, -, selects', -, -, dispatchIs⟩ :=
    resolveRelease_ok_iff.1 run.dispatchAccepted
  have selection := run.variantSelection_dispatch selects selects'
  have pushHas : pushed.variants = all := by
    rw [← pushIs]
    simp only [releaseState]
  have dispatchHas : dispatched.variants = chosen := by
    rw [← dispatchIs]
    simp only [releaseState]
  rw [pushHas, dispatchHas]
  exact variantSelection_eq_filter selection

/-- Where both runs share their tags, they agree on all names. -/
theorem sameTagNames {input : MetaInput} (later : String)
    (shared : ∀ rules flavor labels, parseMeta input = .ok (rules, flavor, labels) →
      generateTags engine rules flavor pushed.context =
        generateTags engine rules flavor dispatched.context) :
    SameTagNames engine pushed dispatched input later := by
  have event : dispatched.isTagEvent = pushed.isTagEvent :=
    run.isTagEvent_eq.2.trans run.isTagEvent_eq.1.symm
  have sameInput := parseMeta_now input later
  refine ⟨fun names named => ?_, fun all none_ => ?_⟩
  · exact tagNamesOf_filter (fun name => name ∈ dispatched.variants.map Variant.name) shared
      sameInput event run.variants_eq named
  · cases named : tagNamesOf (computeBuilds engine dispatched { input with now := later }) with
    | none => rfl
    | some names =>
        have whole : pushed.variants = dispatched.variants.filter fun _ => true := by
          rw [all, List.filter_true]
        have unshared : ∀ rules flavor labels,
            parseMeta { input with now := later } = .ok (rules, flavor, labels) →
              generateTags engine rules flavor dispatched.context =
                generateTags engine rules flavor pushed.context := by
          intro rules flavor labels parsed
          rw [sameInput] at parsed
          exact (shared rules flavor labels parsed).symm
        have back := tagNamesOf_filter (fun _ => true) unshared sameInput.symm event.symm whole named
        rw [none_] at back
        cases back

/-- It is enough that each rule adds the same tag for the tag and for the typed version. -/
theorem sameTagNames_of_rules {input : MetaInput} (later : String)
    (agree : ∀ rules flavor labels, parseMeta input = .ok (rules, flavor, labels) →
      ∀ rule ∈ rules, ruleTag engine flavor pushed.context rule =
        ruleTag engine flavor dispatched.context rule) :
    SameTagNames engine pushed dispatched input later := by
  refine run.sameTagNames later fun rules flavor labels parsed => ?_
  exact generateTags_congr run.prerelease_eq (agree rules flavor labels parsed)

/-- Typed as it is, or not at all, the version makes no difference. -/
theorem sameTagNames_of_spelling (same : version = "" ∨ version = tag) (input : MetaInput)
    (later : String) : SameTagNames engine pushed dispatched input later := by
  obtain ⟨pushTag, context⟩ := run.context_eq
  have spelled : (if version = "" then tag else version) = pushed.context.tag := by
    rw [pushTag]
    rcases same with rfl | rfl
    · rfl
    · exact ite_self _
  have equal : dispatched.context = pushed.context := by rw [context, spelled]
  exact run.sameTagNames later fun _ _ _ _ => by rw [equal]

end Rerun

end MessagePusher.Release
