import MessagePusher.Release.Dispatch

/-!
# The spelling of a typed version

The consistency check of a dispatch compares versions without `refs/tags/` and `v`, but the rules
read the version as it was typed. A rule that matches what is in front of the number tells any two
spellings apart, so only a version that is spelled as the tag repeats the push for all rules.
-/

namespace MessagePusher.Release

open Common Scripts Semantics.Fallible

/-- The regular expression that finds what is in front of a version. -/
def FindsTagPrefix (engine : Engine) : Prop :=
  ∃ find, engine.regExp "^(refs/tags/)?v?" = .ok find ∧
    ∀ text, ∃ groups, find text = some (some (tagPrefix text) :: groups)

/-- One rule, whose tag is what is in front of the version. -/
def prefixInput : MetaInput where
  tagsRaw := "type=match,pattern=^(refs/tags/)?v?"
  flavorRaw := "latest=false"

/-- The rule that tags with the prefix of the tag. -/
def prefixRule : Rule :=
  ⟨.match_, [("pattern", "^(refs/tags/)?v?"), ("type", "match")],
    "type=match,pattern=^(refs/tags/)?v?"⟩

/-- The variant of the table `a`. -/
def onlyVariant : Variant := ⟨"a", "Dockerfile.a", "", "-a", true, [], []⟩

/-- The names of the builds under that rule, by what is in front of the version. -/
def prefixNames (start : String) : Option (List (String × List String)) :=
  if start = "" then none
  else some [("a", [cleanTagName start, cleanTagName start ++ "-a", "a"])]

/-- A run with the same release, variant table `a`, and no images. -/
def plainRun (runner : Runner) (wanted : String) : Runner where
  env := fun name =>
    if name = "DOCKER_VARIANTS" then "a"
    else if name = "GITHUB_REPOSITORY" then "/r"
    else if name = "INPUT_VARIANTS" then wanted
    else if name ∈ ["GITHUB_REF", "GITHUB_REF_NAME", "INPUT_VERSION"] then runner.env name
    else ""
  eventInputs := runner.eventInputs

variable {engine : Engine} {tag version : String} {push dispatch runner : Runner}
  {pushed dispatched state : State} {ctx : Context}

/-! ### The names under the rule -/

/-- A text that can be in front of a version. -/
def IsTagPrefix (start : String) : Prop := start ∈ ["", "v", "refs/tags/", "refs/tags/v"]

/-- What stands before the version is one of the four prefixes. -/
theorem isTagPrefix (text : String) : IsTagPrefix (tagPrefix text) := by
  unfold IsTagPrefix tagPrefix
  split_ifs <;> decide

/-- The rule names the prefix. -/
theorem ruleTagName_prefixRule (finds : FindsTagPrefix engine) :
    ruleTagName engine prefixRule ctx = .ok (tagPrefix ctx.tag) := by
  obtain ⟨find, compiled, found⟩ := finds
  obtain ⟨groups, found⟩ := found ctx.tag
  have noValue : renderExpression (prefixRule.attr "value") ctx = "" := rfl
  have pattern : prefixRule.attr "pattern" = "^(refs/tags/)?v?" := rfl
  have group : groupIndex (if prefixRule.attr "group" = "" then "0" else prefixRule.attr "group") =
      some 0 := by decide
  unfold ruleTagName
  simp only [noValue, pattern, group, compiled, if_true]
  rw [show prefixRule.type = .match_ from rfl]
  simp [bind, Except.bind, pure, Except.pure, found]

/-- What the rule adds, by what is in front of the version. -/
theorem ruleTag_prefixRule (finds : FindsTagPrefix engine) :
    ruleTag engine { latest := "false" } ctx prefixRule =
      .ok (if tagPrefix ctx.tag = "" then none else some (cleanTagName (tagPrefix ctx.tag))) := by
  have unchanged : renderExpression "" ctx = "" := rfl
  have noPrefix : prefixRule.attr "prefix" = "" := rfl
  have noSuffix : prefixRule.attr "suffix" = "" := rfl
  have enabled : ¬ prefixRule.attr? "enable" = some "false" := by decide
  unfold ruleTag
  rw [ruleTagName_prefixRule finds, if_neg enabled, noPrefix, noSuffix, unchanged]
  have known := isTagPrefix ctx.tag
  generalize tagPrefix ctx.tag = start at known ⊢
  unfold IsTagPrefix at known
  revert start
  decide

/-- The shared tags under the rule. -/
def prefixTags (start : String) : List Tag :=
  if start = "" then [] else [{ name := cleanTagName start, priority := .ofInt 800 }]

theorem generateTags_prefixRule (finds : FindsTagPrefix engine) :
    generateTags engine [prefixRule] { latest := "false" } ctx =
      .ok (prefixTags (tagPrefix ctx.tag)) := by
  unfold generateTags
  simp only [collectTags, ruleTag_prefixRule finds]
  unfold prefixTags
  split_ifs with bare
  · rfl
  · have rank : prefixRule.rank engine = .ofInt 800 := rfl
    simp only [rank]
    cases (prefixRule.latestAfter engine ctx none) <;> rfl

/-- The three names of a prefix for the one variant. -/
theorem variantTagNames_onlyVariant {start : String} (known : IsTagPrefix start)
    (some_ : start ≠ "") : variantTagNames (prefixTags start) onlyVariant true =
      .ok [cleanTagName start, cleanTagName start ++ "-a", "a"] := by
  revert start
  unfold IsTagPrefix
  decide +kernel

/-- One build shares no tag. -/
theorem Unshared.singleton (entry : String × List String) : Unshared [entry] := by
  unfold Unshared
  rw [List.flatMap_singleton, List.pairwise_map]
  exact List.pairwise_of_forall fun _ _ _ => rfl

theorem tagNamesOf_prefixInput (finds : FindsTagPrefix engine)
    (only : state.variants = [onlyVariant]) (event : state.isTagEvent = true) (later : String) :
    tagNamesOf (computeBuilds engine state { prefixInput with now := later }) =
      prefixNames (tagPrefix state.context.tag) := by
  have read : parseMeta prefixInput = .ok ([prefixRule], { latest := "false" }, []) := by
    decide
  rw [← parseMeta_now prefixInput later] at read
  have known := isTagPrefix state.context.tag
  unfold prefixNames
  split_ifs with bare
  · cases named : tagNamesOf (computeBuilds engine state { prefixInput with now := later }) with
    | none => rfl
    | some names =>
        obtain ⟨_, _, _, tags, parsed, generated, some_, -⟩ := tagNamesOf_eq_some_iff.1 named
        rw [read] at parsed
        cases parsed
        rw [generateTags_prefixRule finds, prefixTags, if_pos bare] at generated
        exact absurd (Except.ok.inj generated).symm some_
  · refine tagNamesOf_eq_some_iff.2 ⟨_, _, _, _, read, generateTags_prefixRule finds, ?_, ?_, ?_⟩
    · rw [prefixTags, if_neg bare]
      exact List.cons_ne_nil _ _
    · rw [only, event]
      exact .cons ⟨rfl, variantTagNames_onlyVariant known bare⟩ .nil
    · exact Unshared.singleton _

/-! ### A run with the same release -/

/-- The run has the release of the other one. -/
theorem plainRun_release {wanted name : String}
    (kept : name ∈ ["GITHUB_REF", "GITHUB_REF_NAME", "INPUT_VERSION"]) :
    (plainRun runner wanted).env name = runner.env name := by
  have table : name ≠ "DOCKER_VARIANTS" := ne_of_mem_of_not_mem kept (by decide)
  have repository : name ≠ "GITHUB_REPOSITORY" := ne_of_mem_of_not_mem kept (by decide)
  have variants : name ≠ "INPUT_VARIANTS" := ne_of_mem_of_not_mem kept (by decide)
  simp only [plainRun, if_neg table, if_neg repository, if_neg variants, if_pos kept]

/-- It has the version that was typed. -/
theorem dispatchInput_plainRun (wanted : String) :
    dispatchInput engine (plainRun runner wanted) "VERSION" =
      dispatchInput engine runner "VERSION" := by
  unfold dispatchInput
  rw [show "INPUT_" ++ "VERSION" = "INPUT_VERSION" from rfl, plainRun_release (by decide)]
  rfl

/-- It has the same tag. -/
theorem rawTag_plainRun (wanted : String) :
    rawTag engine (plainRun runner wanted) = rawTag engine runner := by
  unfold rawTag
  rw [dispatchInput_plainRun, plainRun_release (by decide), plainRun_release (by decide)]

/-- It accepts the same tag. -/
theorem checkTag_plainRun (wanted : String) :
    checkTag engine (plainRun runner wanted) = checkTag engine runner := by
  unfold checkTag
  rw [rawTag_plainRun, dispatchInput_plainRun, plainRun_release (by decide),
    plainRun_release (by decide)]

/-- It selects its one variant. -/
theorem selectedVariants_plainRun {wanted : String}
    (selects : variantSelection [onlyVariant]
      (dispatchInput engine (plainRun runner wanted) "VARIANTS") = .ok [onlyVariant]) :
    selectedVariants engine (plainRun runner wanted) = .ok [onlyVariant] := by
  have table : readOptional ((plainRun runner wanted).env "DOCKER_VARIANTS") = "a" := by
    simp only [plainRun, if_true]
    decide
  have parsed : parseVariants "a" = .ok [onlyVariant] := by decide
  unfold selectedVariants
  simp only [table]
  rw [if_pos (by decide)]
  exact bind_ok_iff.2 ⟨_, parsed, selects⟩

/-- It has no image. -/
theorem imagesFrom_plainRun (wanted : String) :
    imagesFrom engine (plainRun runner wanted).env
      (registriesFrom engine (plainRun runner wanted).env) (repoNameOf (plainRun runner wanted))
      (isDryRun engine (plainRun runner wanted)) = .ok [] := by
  have noToken : ∀ id : RegistryId,
      readOptional ((plainRun runner wanted).env id.tokenVar) = "" := by
    intro id
    cases id <;> rfl
  have disabled : (registriesFrom engine (plainRun runner wanted).env).filter Registry.enabled =
      [] := by
    simp only [registriesFrom, noToken]
    rfl
  have repository : (plainRun runner wanted).env "GITHUB_REPOSITORY" = "/r" := rfl
  have noImages : (plainRun runner wanted).env "DOCKER_META_IMAGES" = "" := rfl
  have explicit : splitList "" = [] := by decide
  have owner : (Text.split (readOptional "/r") '/').headD "" = "" := by decide
  have name : readOptional ((Text.split (readOptional "/r") '/').getLastD "") = "r" := by decide
  unfold imagesFrom repoNameOf
  simp only [repository, noImages, explicit, name, disabled, owner, List.mapM_nil]
  simp [pure, Except.pure, bind, Except.bind]

/-- It resolves a release with the one variant. -/
theorem resolveRelease_plainRun {wanted : String} (passed : checkTag engine runner = .ok ())
    (selects : variantSelection [onlyVariant]
      (dispatchInput engine (plainRun runner wanted) "VARIANTS") = .ok [onlyVariant]) :
    ∃ state, resolveRelease engine (plainRun runner wanted) = .ok state ∧
      state.variants = [onlyVariant] := by
  refine ⟨_, resolveRelease_ok_iff.2 ⟨[onlyVariant], [], _,
    (checkTag_plainRun wanted).trans passed, selectedVariants_plainRun selects,
    imagesFrom_plainRun wanted, rfl, rfl⟩, ?_⟩
  simp only [releaseState]

/-! ### The spelling decides -/

/-- A push and a dispatch on its tag have a plain push and a plain dispatch beside them. -/
theorem Rerun.exists_plain (run : Rerun engine tag version push dispatch pushed dispatched) :
    ∃ pushed' dispatched',
      Rerun engine tag version (plainRun push (push.env "INPUT_VARIANTS")) (plainRun dispatch "a")
        pushed' dispatched' ∧
      pushed'.variants = [onlyVariant] ∧ dispatched'.variants = [onlyVariant] := by
  obtain ⟨_, _, _, pushPassed, -⟩ := resolveRelease_ok_iff.1 run.pushAccepted
  obtain ⟨_, _, _, dispatchPassed, -⟩ := resolveRelease_ok_iff.1 run.dispatchAccepted
  have noVariants : dispatchInput engine (plainRun push (push.env "INPUT_VARIANTS")) "VARIANTS" =
      "" := run.noInputs.2
  have asked : dispatchInput engine (plainRun dispatch "a") "VARIANTS" = "a" := by
    have raw : readOptional ((plainRun dispatch "a").env ("INPUT_" ++ "VARIANTS")) = "a" := by
      rw [show (plainRun dispatch "a").env ("INPUT_" ++ "VARIANTS") = "a" from rfl]
      decide
    unfold dispatchInput
    rw [raw]
    exact if_neg (by decide)
  obtain ⟨pushed', pushDone, pushVariants⟩ := resolveRelease_plainRun pushPassed
    (by rw [noVariants]; decide : variantSelection [onlyVariant]
      (dispatchInput engine (plainRun push (push.env "INPUT_VARIANTS")) "VARIANTS") = _)
  obtain ⟨dispatched', dispatchDone, dispatchVariants⟩ := resolveRelease_plainRun dispatchPassed
    (by rw [asked]; decide : variantSelection [onlyVariant]
      (dispatchInput engine (plainRun dispatch "a") "VARIANTS") = _)
  refine ⟨pushed', dispatched', ?_, pushVariants, dispatchVariants⟩
  exact {
    sameVariables := by
      intro name shared
      have notVariants : name ≠ "INPUT_VARIANTS" := by
        rintro rfl
        exact shared (by decide)
      simp only [plainRun, if_neg notVariants, run.sameVariables name shared]
    sameFiles := rfl
    noInputs := ⟨(dispatchInput_plainRun _).trans run.noInputs.1, noVariants⟩
    tagRef := by
      rw [plainRun_release (by decide)]
      exact run.tagRef
    tagged := (rawTag_plainRun _).trans run.tagged
    typed := (dispatchInput_plainRun _).trans run.typed
    pushAccepted := pushDone
    dispatchAccepted := dispatchDone }

/-- Different prefixes give different names. -/
theorem prefixNames_injective {first second : String} (one : IsTagPrefix first)
    (other : IsTagPrefix second) (same : prefixNames first = prefixNames second) :
    first = second := by
  have apart : ∀ first ∈ ["", "v", "refs/tags/", "refs/tags/v"],
      ∀ second ∈ ["", "v", "refs/tags/", "refs/tags/v"],
        prefixNames first = prefixNames second → first = second := by decide
  exact apart first one second other same

/-- An input of the dispatch is trimmed already. -/
theorem trim_dispatchInput (name : String) :
    trim (dispatchInput engine runner name) = dispatchInput engine runner name := by
  unfold dispatchInput
  dsimp only
  split_ifs
  · exact trim_trim _
  · exact trim_trim _

/-- Two spellings of one version that the rule does not tell apart are the same. -/
theorem Rerun.spelling_of_sameTagNames (finds : FindsTagPrefix engine)
    (run : Rerun engine tag version push dispatch pushed dispatched) (typed : version ≠ "")
    (pushOnly : pushed.variants = [onlyVariant])
    (dispatchOnly : dispatched.variants = [onlyVariant])
    (agree : SameTagNames engine pushed dispatched prefixInput "") : version = tag := by
  obtain ⟨pushEvent, dispatchEvent⟩ := run.isTagEvent_eq
  obtain ⟨pushTag, context⟩ := run.context_eq
  have dispatchTag : dispatched.context.tag = version := by rw [context, if_neg typed]
  have pushNames := tagNamesOf_prefixInput finds pushOnly pushEvent ""
  have dispatchNames := tagNamesOf_prefixInput finds dispatchOnly dispatchEvent ""
  rw [pushTag] at pushNames
  rw [dispatchTag] at dispatchNames
  have sameNames : prefixNames (tagPrefix tag) = prefixNames (tagPrefix version) := by
    cases names : prefixNames (tagPrefix tag) with
    | none =>
        rw [names] at pushNames
        rw [← dispatchNames]
        exact (agree.2 (dispatchOnly.trans pushOnly.symm) pushNames).symm
    | some entries =>
        have kept : entries.filter
            (fun entry => entry.1 ∈ dispatched.variants.map Variant.name) = entries := by
          unfold prefixNames at names
          split_ifs at names
          rw [← Option.some.inj names, dispatchOnly]
          rfl
        rw [names] at pushNames
        rw [← dispatchNames, agree.1 entries pushNames, kept]
  have samePrefix := prefixNames_injective (isTagPrefix tag) (isTagPrefix version) sameNames
  obtain ⟨sameVersion, trimmed⟩ := run.consistent typed
  have typedTrimmed : trim version = version := by
    rw [← run.typed]
    exact trim_dispatchInput _
  calc version = tagPrefix version ++ stripTagPrefix version := (tagPrefix_append typedTrimmed).symm
    _ = tagPrefix tag ++ stripTagPrefix tag := by rw [samePrefix, sameVersion]
    _ = tag := tagPrefix_append trimmed

/-- A dispatch repeats the push under all rules if and only if its version is empty or spelled as
the tag; under rules that add the same tags for both spellings, it repeats the push anyway. -/
theorem dispatch_repeats_push_iff (finds : FindsTagPrefix engine)
    (run : Rerun engine tag version push dispatch pushed dispatched) :
    ((∀ push dispatch pushed dispatched input later,
        Rerun engine tag version push dispatch pushed dispatched →
          SameTagNames engine pushed dispatched input later) ↔
      version = "" ∨ version = tag) ∧
    ∀ input later,
      (∀ rules flavor labels, parseMeta input = .ok (rules, flavor, labels) → ∀ rule ∈ rules,
        ruleTag engine flavor pushed.context rule = ruleTag engine flavor dispatched.context rule) →
      SameTagNames engine pushed dispatched input later := by
  refine ⟨⟨fun repeats => ?_, fun same _ _ _ _ input later other => ?_⟩, fun _ later agree => ?_⟩
  · by_cases typed : version = ""
    · exact .inl typed
    · obtain ⟨pushed', dispatched', plain, pushOnly, dispatchOnly⟩ := run.exists_plain
      exact .inr (plain.spelling_of_sameTagNames finds typed pushOnly dispatchOnly
        (repeats _ _ _ _ prefixInput "" plain))
  · exact other.sameTagNames_of_spelling same input later
  · exact run.sameTagNames_of_rules later agree

/-- An engine that compiles that regular expression only. -/
def prefixEngine : Engine where
  toLowerCase := id
  localeCompare left right := if left < right then -1 else if right < left then 1 else 0
  number _ := none
  regExp pattern :=
    let ref := fun text => if Text.hasPrefix text "refs/tags/" then some "refs/tags/" else none
    if pattern = "^(refs/tags/)?v?" then .ok fun text => some [some (tagPrefix text), ref text]
    else .error "Invalid regular expression"

theorem findsTagPrefix_prefixEngine : FindsTagPrefix prefixEngine :=
  ⟨_, rfl, fun _ => ⟨_, rfl⟩⟩

/-- A run on the tag `v1.2.3`, with a version typed in. -/
def releaseRun (version : String) : Runner where
  env := fun name =>
    if name = "INPUT_VERSION" then version
    else ([("GITHUB_REF", "refs/tags/v1.2.3"), ("GITHUB_REF_NAME", "v1.2.3"),
      ("GITHUB_REPOSITORY", "o/r"), ("DOCKER_VARIANTS", "a")].lookup name).getD ""

/-- A version that is accepted can be dispatched again. -/
theorem exists_rerun (version : String)
    (typed : dispatchInput prefixEngine (releaseRun version) "VERSION" = version)
    (accepted : (resolveRelease prefixEngine (releaseRun version)).isOk = true) :
    ∃ pushed dispatched, Rerun prefixEngine "v1.2.3" version (releaseRun "") (releaseRun version)
      pushed dispatched := by
  obtain ⟨pushed, pushDone⟩ := exists_ok
    (by decide : (resolveRelease prefixEngine (releaseRun "")).isOk = true)
  obtain ⟨dispatched, dispatchDone⟩ := exists_ok accepted
  refine ⟨pushed, dispatched, ?_⟩
  exact {
    sameVariables := by
      intro name shared
      have notVersion : name ≠ "INPUT_VERSION" := by
        rintro rfl
        exact shared (by decide)
      simp only [releaseRun, if_neg notVersion]
    sameFiles := rfl
    noInputs := ⟨rfl, rfl⟩
    tagRef := by decide
    tagged := by decide
    typed
    pushAccepted := pushDone
    dispatchAccepted := dispatchDone }

/-- A version that is typed as the tag gives the same names. -/
theorem dispatch_repeats_push_iff_typed_as_tag :
    ∃ pushed dispatched, Rerun prefixEngine "v1.2.3" "v1.2.3" (releaseRun "") (releaseRun "v1.2.3")
      pushed dispatched ∧ SameTagNames prefixEngine pushed dispatched {} "later" := by
  obtain ⟨pushed, dispatched, run⟩ := exists_rerun "v1.2.3" (by decide) (by decide)
  exact ⟨pushed, dispatched, run,
    (dispatch_repeats_push_iff findsTagPrefix_prefixEngine run).1.mpr (.inr rfl) _ _ _ _ {} _ run⟩

/-- The tag names that a run publishes. -/
def publishedNames (runner : Runner) (input : MetaInput) : Option (List (String × List String)) :=
  (resolveRelease prefixEngine runner).toOption.bind fun state =>
    tagNamesOf (computeBuilds prefixEngine state input)

/-- A dispatch on the tag `v1.2.3` with the version `1.2.3` publishes another tag. -/
theorem typed_version_changes_names :
    ¬ ∀ tag version push dispatch pushed dispatched input later,
      Rerun prefixEngine tag version push dispatch pushed dispatched →
        SameTagNames prefixEngine pushed dispatched input later := by
  intro claimed
  obtain ⟨pushed, dispatched, run⟩ := exists_rerun "1.2.3" (by decide) (by decide)
  have same := (claimed _ _ _ _ _ _ { tagsRaw := "type=ref,event=tag" } "" run).1
  have pushNames : publishedNames (releaseRun "") { tagsRaw := "type=ref,event=tag" } =
      some [("a", ["latest", "v1.2.3", "v1.2.3-a", "a"])] := by decide
  have dispatchNames : publishedNames (releaseRun "1.2.3") { tagsRaw := "type=ref,event=tag" } =
      some [("a", ["1.2.3", "latest", "1.2.3-a", "a"])] := by decide
  unfold publishedNames at pushNames dispatchNames
  rw [run.pushAccepted] at pushNames
  rw [run.dispatchAccepted] at dispatchNames
  have kept := Option.some.inj (dispatchNames.symm.trans (same _ pushNames))
  have among : ("a", ["1.2.3", "latest", "1.2.3-a", "a"]) ∈
      [("a", ["latest", "v1.2.3", "v1.2.3-a", "a"])] :=
    List.mem_of_mem_filter (kept ▸ List.mem_cons_self)
  exact absurd among (by decide)

end MessagePusher.Release
