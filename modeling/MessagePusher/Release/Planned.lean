import MessagePusher.Release.Dispatch
import MessagePusher.Release.FailedPublish
import MessagePusher.Release.LatestOwner
import MessagePusher.Release.LegalTags
import MessagePusher.Scripts.BuildPush

/-!
# The state file of a planned release

What the steps behind `meta` find in the state file: the variants of the table with the tags that
were computed for them, under each image base. Between the build and the publish step the images are
known by their staging tags. These tell the variants of a release apart, and where no tag of the
release is called after them, no final reference is a staging reference.
-/

namespace MessagePusher.Release

open Common Scripts Semantics.Fallible

/-! ### The staging tag -/

/-- The tag that a build is staged under. -/
def StagedAs (state : State) (build : Build) (tag : String) : Prop :=
  stagingTagName state.version state.shortSha build.variant = .ok tag

/-- What stands in front of the variant. -/
def stagingStart (version shortSha : String) : String :=
  "staging-" ++ version ++ "-" ++ (if shortSha = "" then "nosha" else shortSha) ++ "-"

/-- What starts with a letter and ends with a hyphen leaves the text behind it alone. -/
theorem scan_lead_start {start : List Char} {first : Char} {middle : List Char}
    (shape : start = first :: middle ++ ['-']) (word : isWordChar first = true) {text : List Char}
    (legal : ∀ char ∈ text, isTagChar char = true) :
    scan .lead (start ++ text) = scan .lead start ++ text := by
  have inside : Scan.lead.after (first :: middle) ≠ .lead := by
    rw [ne_eq, Scan.after_eq_lead_iff]
    exact fun none_ => none_ first List.mem_cons_self word
  have ends : Scan.lead.after start = .tag := by
    rw [shape, Scan.after_append]
    have hyphen : isTagChar '-' = true := by decide
    cases behind : Scan.lead.after (first :: middle) with
    | lead => exact absurd behind inside
    | tag | spaces | run => simp [Scan.after, Scan.step, hyphen]
  have kept : scan .tag text = text := by
    simpa [scan] using scan_tag_of_legal legal []
  rw [scan_append, ends, kept]

/-- A staging tag begins with `staging-`, and ends in a dash before its variant. -/
theorem stagingStart_shape (version shortSha : String) :
    ∃ middle, (stagingStart version shortSha).toList =
      's' :: ("taging-".toList ++ middle) ++ ['-'] := by
  refine ⟨version.toList ++ ['-'] ++
    (if shortSha = "" then "nosha" else shortSha).toList, ?_⟩
  simp [stagingStart]

/-- The characters of a variant may stand in a tag. -/
theorem isTagChar_of_isVariantName {name : String} (legal : isVariantName name = true) :
    ∀ char ∈ name.toList, isTagChar char = true := by
  have clean := cleanTagName_of_isVariantName legal
  intro char member
  rw [← clean, cleanTagName, String.toList_ofList] at member
  exact isTagChar_of_collapseInvalid ((List.dropWhile_sublist _).subset member)

/-- The staging tag ends with the name of the variant, as it is. -/
theorem stagingTagName_ok {version shortSha variant tag : String}
    (staged : stagingTagName version shortSha variant = .ok tag)
    (legal : isVariantName variant = true) :
    tag.toList = scan .lead (stagingStart version shortSha).toList ++ variant.toList := by
  have cleaned := sanitizeTagName_ok staged
  obtain ⟨middle, shape⟩ := stagingStart_shape version shortSha
  have whole : ("staging-" ++ version ++ "-" ++ (if shortSha = "" then "nosha" else shortSha) ++
      "-" ++ variant) = stagingStart version shortSha ++ variant := rfl
  rw [whole, cleanTagName_eq_scan, String.toList_append,
    scan_lead_start shape (by decide) (isTagChar_of_isVariantName legal)] at cleaned
  rw [cleaned, String.toList_ofList]

/-- Staging tags of one release tell the variants apart. -/
theorem stagingTagName_injective {version shortSha first second tag : String}
    (one : stagingTagName version shortSha first = .ok tag)
    (two : stagingTagName version shortSha second = .ok tag)
    (firstLegal : isVariantName first = true) (secondLegal : isVariantName second = true) :
    first = second := by
  have left := stagingTagName_ok one firstLegal
  rw [stagingTagName_ok two secondLegal] at left
  exact String.toList_injective (List.append_cancel_left left).symm

/-- A staging tag begins with `staging-`. -/
theorem stagingTagName_staging {version shortSha variant tag : String}
    (staged : stagingTagName version shortSha variant = .ok tag)
    (legal : isVariantName variant = true) : "staging-".toList <+: tag.toList := by
  obtain ⟨middle, shape⟩ := stagingStart_shape version shortSha
  have begins : scan .lead ('s' :: "taging-".toList) = "staging-".toList := by decide
  refine ⟨scan (Scan.lead.after ('s' :: "taging-".toList)) (middle ++ ['-']) ++ variant.toList, ?_⟩
  rw [stagingTagName_ok staged legal, shape, ← begins, ← List.append_assoc, ← scan_append]
  simp

/-- What is staged is staged under a legal tag. -/
theorem StagedAs.legal {state : State} {build : Build} {tag : String}
    (staged : StagedAs state build tag) : LegalTag tag :=
  LegalTag.of_sanitizeTagName staged

/-! ### References -/

/-- What stands behind the last colon of a reference is its tag. -/
theorem reference_injective {base other tag name : String} (tagLegal : LegalTag tag)
    (nameLegal : LegalTag name) (same : base ++ ":" ++ tag = other ++ ":" ++ name) :
    base = other ∧ tag = name := by
  have noColon : ∀ {tag : String}, LegalTag tag →
      ∀ char ∈ tag.toList.reverse, decide (char ≠ ':') = true := by
    intro tag legal char member
    refine decide_eq_true ?_
    rintro rfl
    have known := legal.chars ':' (List.mem_reverse.mp member)
    revert known
    decide
  have chars := congrArg (fun text : String => text.toList.reverse) same
  have colon : (":" : String).toList.reverse = [':'] := by decide
  simp only [String.toList_append, List.reverse_append, colon] at chars
  have tags := congrArg (List.takeWhile fun char => decide (char ≠ ':')) chars
  have bases := congrArg (List.dropWhile fun char => decide (char ≠ ':')) chars
  rw [List.takeWhile_append_of_pos (noColon tagLegal),
    List.takeWhile_append_of_pos (noColon nameLegal)] at tags
  rw [List.dropWhile_append_of_pos (noColon tagLegal),
    List.dropWhile_append_of_pos (noColon nameLegal)] at bases
  simp only [List.cons_append, List.nil_append, ne_eq, not_true_eq_false, decide_false,
    Bool.false_eq_true, not_false_eq_true, List.takeWhile_cons_of_neg, List.append_nil,
    List.dropWhile_cons_of_neg, List.cons.injEq, true_and] at tags bases
  exact ⟨String.toList_injective (List.reverse_injective bases),
    String.toList_injective (List.reverse_injective tags)⟩

section Promotions

variable {state : State} {build : Build} {staging : List StagingRef} {plan : List Promotion}
  {entry : Promotion}

/-- There are staging references exactly when there is a staging tag, one for each image. -/
theorem stagingRefsFor_ok_iff : stagingRefsFor build state = .ok staging ↔
    ∃ tag, StagedAs state build tag ∧ staging = build.images.map fun image =>
      { base := image.base, registryId := image.registryId, tag, ref := image.base ++ ":" ++ tag } := by
  unfold stagingRefsFor StagedAs
  simp only [bind_ok_iff, pure_ok_iff]
  exact exists_congr fun tag => and_congr_right fun _ => eq_comm

/-- The references that a build is staged under. -/
theorem stagingRefsFor_refs (staged : stagingRefsFor build state = .ok staging) :
    ∃ tag, StagedAs state build tag ∧
      staging.map StagingRef.ref = build.images.map fun image => image.base ++ ":" ++ tag := by
  obtain ⟨tag, named, rfl⟩ := stagingRefsFor_ok_iff.mp staged
  exact ⟨tag, named, by simp⟩

/-- The entries of the plan: one for each image of each build, from its staging reference. -/
theorem mem_publishPlan_iff (planned : publishPlan state = .ok plan) :
    entry ∈ plan ↔ ∃ build ∈ state.builds, ∃ image ∈ build.images, ∃ tag, StagedAs state build tag ∧
      entry = { variant := build.variant, base := image.base, registryId := image.registryId,
                source := image.base ++ ":" ++ tag, tags := image.tags } := by
  obtain ⟨entries, mapped, same⟩ := bind_ok_iff.1 planned
  obtain rfl := pure_ok_iff.1 same
  have each : ∀ {build promotions}, buildPromotions state build = .ok promotions →
      ∃ tag, StagedAs state build tag ∧ promotions = build.images.map fun image =>
        { variant := build.variant, base := image.base, registryId := image.registryId,
          source := image.base ++ ":" ++ tag, tags := image.tags } := by
    intro build promotions done
    obtain ⟨staging, staged, same⟩ := bind_ok_iff.1 done
    obtain rfl := pure_ok_iff.1 same
    obtain ⟨tag, named, rfl⟩ := stagingRefsFor_ok_iff.mp staged
    refine ⟨tag, named, ?_⟩
    refine List.filterMap_eq_map_iff_forall_eq_some.mpr fun image member => ?_
    obtain ⟨found, hit⟩ := stagingRefsFor_ok staged member
    -- The map by base gives an image of the same base, which has the same reference.
    obtain ⟨other, _, rfl⟩ :=
      List.mem_map.mp (List.mem_reverse.mp (List.mem_of_find?_eq_some hit))
    have base : other.base = image.base := by simpa using List.find?_some hit
    rw [hit]
    simp [base]
  rw [List.mem_flatten]
  constructor
  · rintro ⟨promotions, listed, member⟩
    obtain ⟨build, known, done⟩ := mem_of_mapM mapped listed
    obtain ⟨tag, named, rfl⟩ := each done
    obtain ⟨image, shown, rfl⟩ := List.mem_map.mp member
    exact ⟨build, known, image, shown, tag, named, rfl⟩
  · rintro ⟨build, known, image, shown, tag, named, rfl⟩
    obtain ⟨promotions, listed, done⟩ := mapM_mem mapped known
    obtain ⟨other, alsoNamed, rfl⟩ := each done
    obtain rfl : tag = other := Except.ok.inj (named.symm.trans alsoNamed)
    exact ⟨_, listed, List.mem_map_of_mem shown⟩

end Promotions

/-! ### The state file -/

/-- What `main` of resolve writes: the state with the build arguments that it fills in. -/
def resolvedWith (engine : Engine) (env : ProcessEnv) (endpoints : Endpoints) (state : State) :
    State :=
  { state with
    options := withDefaultBuildArgs engine state.options state.version env endpoints }

/-- The state file that `resolve` and then `meta` leave. -/
def Planned (engine : Engine) (state : State) : Prop :=
  ∃ (env : ProcessEnv) (runner : Runner) (endpoints : Endpoints) (input : MetaInput)
    (resolved : State) (builds : List Build),
    (runner.env = fun name => (env name).getD "") ∧
    resolveRelease engine runner = .ok resolved ∧
    computeBuilds engine (resolvedWith engine env endpoints resolved) input = .ok builds ∧
    state = { resolvedWith engine env endpoints resolved with builds }

/-- What the steps `resolve` and `meta` of a job read. -/
structure JobRun where
  env : ProcessEnv
  readFile : String → Option String := fun _ => none
  eventInputs : String → Option String := fun _ => none
  endpoints : Endpoints := {}
  now : String := ""

namespace JobRun

/-- The machine of a job. -/
def runner (job : JobRun) : Runner where
  env := fun name => (job.env name).getD ""
  readFile := job.readFile
  eventInputs := job.eventInputs

/-- The state file once `resolve` went through. -/
def resolvedFile (engine : Engine) (job : JobRun) : Except String State := do
  let resolved ← resolveRelease engine job.runner
  return resolvedWith engine job.env job.endpoints resolved

/-- The state file once `meta` went through, too. -/
def stateFile (engine : Engine) (job : JobRun) : Except String State := do
  let resolved ← job.resolvedFile engine
  let builds ← computeBuilds engine resolved (metaInput job.env job.now)
  return { resolved with builds }

end JobRun

/-- No tag of the release is called after the staging tags. -/
def SparesStaging (state : State) : Prop :=
  ∀ build ∈ state.builds, ∀ name ∈ build.tagNames, ¬ "staging-".toList <+: name.toList

variable {engine : Engine} {state : State} {build : Build}

/-! ### Image bases -/

/-- An accepted base begins with a letter or a digit. -/
theorem normalizeImageBase_head {base value : String}
    (done : normalizeImageBase engine base = .ok value) : value.toList.head? ≠ some '-' := by
  have plain : ∀ {value : String},
      value.toList.head?.any (fun char => char.isDigit || ('a' ≤ char && char ≤ 'z')) = true →
        value.toList.head? ≠ some '-' := by
    intro value begins hyphen
    rw [hyphen] at begins
    exact absurd begins (by decide)
  unfold normalizeImageBase at done
  dsimp only at done
  split_ifs at done
  -- Two ways are open: a host in front that is `ghcr.io`, and no host.
  all_goals first
    | (cases done; done)
    | (next legal => obtain rfl := pure_ok_iff.1 done; exact plain legal.1)

/-- An explicit image does not begin with a dash. -/
theorem explicitImage_base {registries : List Registry} {preview : Bool} {raw : String}
    {image : Image} (done : explicitImage engine registries preview raw = .ok image) :
    image.base.toList.head? ≠ some '-' := by
  unfold explicitImage at done
  obtain ⟨base, normal, rest⟩ := bind_ok_iff.1 done
  obtain ⟨id, _, rest⟩ := bind_ok_iff.1 rest
  obtain ⟨_, rest⟩ := check_ok_iff.1 rest
  obtain rfl := pure_ok_iff.1 rest
  exact normalizeImageBase_head normal

/-- A derived image does not begin with a dash. -/
theorem derivedImage_base {name : String} {entry : Registry} {image : Image}
    (done : derivedImage engine name entry = .ok image) : image.base.toList.head? ≠ some '-' := by
  obtain ⟨base, normal, rest⟩ := bind_ok_iff.1 done
  obtain rfl := pure_ok_iff.1 rest
  exact normalizeImageBase_head normal

/-- No image of a release begins with a dash. -/
theorem imagesFrom_base {env : Env} {registries : List Registry} {repoName : String}
    {preview : Bool} {images : List Image}
    (done : imagesFrom engine env registries repoName preview = .ok images) :
    ∀ image ∈ images, image.base.toList.head? ≠ some '-' := by
  intro image member
  unfold imagesFrom at done
  dsimp only at done
  split_ifs at done with explicit blank
  · obtain ⟨raw, _, one⟩ := mem_of_mapM done member
    exact explicitImage_base one
  · cases done
  · obtain ⟨derived, mapped, rest⟩ := bind_ok_iff.1 done
    split_ifs at rest with preview
    · obtain ⟨base, normal, same⟩ := bind_ok_iff.1 rest
      obtain rfl := pure_ok_iff.1 same
      obtain rfl := List.mem_singleton.mp member
      exact normalizeImageBase_head normal
    · obtain rfl := pure_ok_iff.1 rest
      obtain ⟨entry, _, one⟩ := mem_of_mapM mapped member
      exact derivedImage_base one

/-! ### The selection -/

/-- A table that is accepted has a variant. -/
theorem parseVariants_ne_nil {raw : String} {table : List Variant}
    (parsed : parseVariants raw = .ok table) : table ≠ [] := by
  have grows : ∀ {lines : List String} {before after : List Variant},
      parseVariantLines lines before = .ok after → before.length + lines.length = after.length := by
    intro lines
    induction lines with
    | nil =>
        rintro before _ ⟨⟩
        rfl
    | cons line rest ih =>
        intro before after done
        obtain ⟨variant, _, more⟩ := bind_ok_iff.1 done
        rw [← ih more, List.length_append, List.length_cons, List.length_singleton]
        omega
  unfold parseVariants at parsed
  simp only [check_ok_iff, bind_ok_iff] at parsed
  obtain ⟨some_, variants, lines, _, _, rest⟩ := parsed
  have counted := grows lines
  have full : variants ≠ [] := by
    rintro rfl
    exact some_ (List.length_eq_zero_iff.mp (by simpa using counted))
  split_ifs at rest
  · cases rest
    cases variants with
    | nil => exact absurd rfl full
    | cons first others => exact List.cons_ne_nil _ _
  · cases rest
    exact full

/-- A selection that is accepted has a variant. -/
theorem variantSelection_ne_nil {table selected : List Variant} {raw : String} (some_ : table ≠ [])
    (chosen : variantSelection table raw = .ok selected) : selected ≠ [] := by
  unfold variantSelection at chosen
  dsimp only at chosen
  split_ifs at chosen with none_ unknown
  · cases chosen
    exact some_
  · cases chosen
    obtain ⟨name, wanted⟩ := List.exists_mem_of_ne_nil _ none_
    have known : name ∈ table.map Variant.name := by
      by_contra missing
      rw [not_not] at unknown
      exact List.filter_eq_nil_iff.mp unknown name wanted (decide_eq_true missing)
    obtain ⟨variant, listed, rfl⟩ := List.mem_map.mp known
    exact List.ne_nil_of_mem (List.mem_filter.mpr ⟨listed, decide_eq_true wanted⟩)

/-! ### The plan -/

/-- The first step of a job leaves the resolved release in the state file. -/
theorem JobRun.resolvedFile_ok_iff {job : JobRun} : job.resolvedFile engine = .ok state ↔
    ∃ resolved, resolveRelease engine job.runner = .ok resolved ∧
      state = resolvedWith engine job.env job.endpoints resolved := by
  simp only [JobRun.resolvedFile, bind_ok_iff, pure_ok_iff]
  exact exists_congr fun _ => and_congr_right fun _ => eq_comm

/-- The second step leaves the release with its builds. -/
theorem JobRun.stateFile_ok_iff {job : JobRun} : job.stateFile engine = .ok state ↔
    ∃ resolved builds, job.resolvedFile engine = .ok resolved ∧
      computeBuilds engine resolved (metaInput job.env job.now) = .ok builds ∧
      state = { resolved with builds } := by
  simp only [JobRun.stateFile, bind_ok_iff, pure_ok_iff]
  constructor
  · rintro ⟨resolved, resolves, builds, computed, rfl⟩
    exact ⟨resolved, builds, resolves, computed, rfl⟩
  · rintro ⟨resolved, builds, resolves, computed, rfl⟩
    exact ⟨resolved, resolves, builds, computed, rfl⟩

/-- What a job works on is a planned release. -/
theorem JobRun.planned {job : JobRun} (done : job.stateFile engine = .ok state) :
    Planned engine state := by
  obtain ⟨_, builds, file, computed, rfl⟩ := JobRun.stateFile_ok_iff.mp done
  obtain ⟨resolved, resolves, rfl⟩ := JobRun.resolvedFile_ok_iff.mp file
  exact ⟨job.env, job.runner, job.endpoints, _, resolved, builds, rfl, resolves, computed, rfl⟩

namespace Planned

/-- What the plan is made of. -/
theorem parts (planned : Planned engine state) : ∃ (runner : Runner) (resolved : State)
    (tags : List Tag) (labels : List KeyValue),
      selectedVariants engine runner = .ok state.variants ∧ resolved.images = state.images ∧
      (∀ image ∈ state.images, image.base.toList.head? ≠ some '-') ∧
      state.variants.mapM (planBuild resolved tags labels) = .ok state.builds ∧
      findDuplicateTags state.builds = [] := by
  obtain ⟨env, runner, endpoints, input, resolved, builds, _, resolves, computed, rfl⟩ := planned
  obtain ⟨variants, images, options, _, selected, based, _, rfl⟩ := resolveRelease_ok_iff.mp resolves
  obtain ⟨rules, flavor, labels, tags, _, _, _, mapped, unique⟩ := computeBuilds_ok_iff.mp computed
  exact ⟨runner, resolvedWith engine env endpoints (releaseState engine runner variants images options),
    tags, _, selected, rfl, imagesFrom_base based, mapped, unique⟩

/-- Each build is that of a variant, under the bases of the release. -/
theorem build_ok (planned : Planned engine state) (member : build ∈ state.builds) :
    ∃ variant ∈ state.variants, build.variant = variant.name ∧
      (∀ name ∈ build.tagNames, LegalTag name) ∧ build.tagNames.Nodup ∧
      build.images = state.images.map fun image =>
        ⟨image.base, image.registryId, build.tagNames.map fun name => image.base ++ ":" ++ name⟩ := by
  obtain ⟨runner, resolved, tags, labels, _, images, _, mapped, _⟩ := planned.parts
  obtain ⟨variant, known, done⟩ := mem_of_mapM mapped member
  obtain ⟨names, computed, same⟩ := bind_ok_iff.1 done
  obtain rfl := pure_ok_iff.1 same
  exact ⟨variant, known, rfl, fun name named => legalTag_of_variantTagNames computed named,
    nodup_variantTagNames computed, by rw [images]⟩

/-- The variants of a planned release have legal names. -/
theorem tableNames (planned : Planned engine state) : TableNames state.variants := by
  obtain ⟨runner, _, _, _, selected, _⟩ := planned.parts
  obtain ⟨table, parsed, chosen⟩ := bind_ok_iff.1 selected
  exact (TableNames.of_parseVariants parsed).variantSelection chosen

/-- A build of a planned release has a legal variant. -/
theorem variantName (planned : Planned engine state) (member : build ∈ state.builds) :
    isVariantName build.variant = true := by
  obtain ⟨variant, known, same, _⟩ := planned.build_ok member
  exact same ▸ planned.tableNames.legal variant known

/-- A planned release builds each variant once. -/
theorem distinct (planned : Planned engine state) : (state.builds.map Build.variant).Nodup := by
  obtain ⟨_, _, _, _, _, _, _, mapped, _⟩ := planned.parts
  rw [map_of_mapM mapped fun variant build done => (planBuild_ok done).2.1]
  exact planned.tableNames.distinct

/-- There is something to build. -/
theorem builds_ne_nil (planned : Planned engine state) : state.builds ≠ [] := by
  obtain ⟨runner, _, _, _, selected, _, _, mapped, _⟩ := planned.parts
  obtain ⟨table, parsed, chosen⟩ := bind_ok_iff.1 selected
  have some_ := variantSelection_ne_nil (parseVariants_ne_nil parsed) chosen
  intro none_
  rw [none_] at mapped
  have names : ([] : List Build).map Build.variant = state.variants.map Variant.name :=
    map_of_mapM mapped fun variant build done => (planBuild_ok done).2.1
  exact some_ (List.map_eq_nil_iff.mp names.symm)

/-- A run pushes unless it is a dry one. -/
theorem push (planned : Planned engine state) : (optionsOf state).push = !state.dryRun := by
  obtain ⟨env, runner, endpoints, input, resolved, builds, _, resolves, _, rfl⟩ := planned
  obtain ⟨variants, images, options, _, _, _, optioned, rfl⟩ := resolveRelease_ok_iff.mp resolves
  obtain ⟨args, _, same⟩ := bind_ok_iff.1 optioned
  obtain rfl := pure_ok_iff.1 same
  cases dry : isDryRun engine runner <;>
    simp [optionsOf, resolvedWith, releaseState, withDefaultBuildArgs, dry]

/-- No two builds of a planned release share a final tag. -/
theorem tagsDisjoint (planned : Planned engine state) : TagsDisjoint state.builds := by
  obtain ⟨_, _, _, _, _, _, _, _, unique⟩ := planned.parts
  exact tagsDisjoint_of_findDuplicateTags planned.distinct unique

/-- An image of a build: a base of the release, with the tags of the build. -/
theorem image (planned : Planned engine state) (member : build ∈ state.builds)
    {image : TaggedImage} (known : image ∈ build.images) :
    image.base.toList.head? ≠ some '-' ∧
      image.tags = build.tagNames.map fun name => image.base ++ ":" ++ name := by
  obtain ⟨_, _, _, _, _, _, bases, _⟩ := planned.parts
  obtain ⟨_, _, _, _, _, images⟩ := planned.build_ok member
  rw [images] at known
  obtain ⟨base, listed, rfl⟩ := List.mem_map.mp known
  exact ⟨bases base listed, rfl⟩

end Planned

/-! ### A small release -/

/-- The push of the tag `v1.2.3` with two variants and a token for one registry. -/
def smallEnv : ProcessEnv := fun name =>
  [("GITHUB_REF", "refs/tags/v1.2.3"), ("GITHUB_REF_NAME", "v1.2.3"), ("GITHUB_REPOSITORY", "o/r"),
    ("GITHUB_SHA", "0123abc"), ("GHCR_TOKEN", "t"), ("DOCKER_VARIANTS", "a\nb||||true")].lookup name

/-- A machine with the environment of the small release. -/
def smallRun : Runner where
  env := fun name => (smallEnv name).getD ""

/-- The build of one of its variants, with the tags that the rule `x` gives it. -/
def smallBuild (name : String) (isDefault : Bool) (tagNames : List String) : Build where
  variant := name
  suffix := "-" ++ name
  dockerfile := "Dockerfile." ++ name
  isDefault
  tagNames
  labels :=
    [⟨"org.opencontainers.image.created", ""⟩, ⟨"org.opencontainers.image.revision", "0123abc"⟩,
      ⟨"org.opencontainers.image.version", "1.2.3"⟩, ⟨"org.opencontainers.image.source", "o/r"⟩,
      ⟨"org.opencontainers.image.url", "o/r"⟩, ⟨"org.opencontainers.image.title", "r"⟩]
  images := [⟨"ghcr.io/o/r", .ghcr, tagNames.map fun name => "ghcr.io/o/r:" ++ name⟩]

/-- A release with two variants. -/
def smallRelease : State where
  version := "1.2.3"
  tag := "v1.2.3"
  sha := "0123abc"
  shortSha := "0123abc"
  repo := "o/r"
  repoName := "r"
  runUrl := "/o/r/actions/runs/"
  refName := "v1.2.3"
  ref := "refs/tags/v1.2.3"
  isTagEvent := true
  variants :=
    [⟨"a", "Dockerfile.a", "", "-a", false, [], []⟩, ⟨"b", "Dockerfile.b", "", "-b", true, [], []⟩]
  registries := [⟨.ghcr, "o", true⟩, ⟨.dockerhub, "", false⟩]
  images := [{ base := "ghcr.io/o/r", registryId := .ghcr }]
  options := { platforms := [], buildArgs := [⟨"VERSION", "1.2.3"⟩], dryRun := false, push := true }
  builds := [smallBuild "a" false ["x-a", "a"], smallBuild "b" true ["x", "x-b", "b"]]

/-- The release is what the machine resolves and computes. -/
theorem planned_smallRelease : Planned plainEngine smallRelease := by
  refine ⟨smallEnv, smallRun, {}, { tagsRaw := "x" }, { smallRelease with
    options := { smallRelease.options with buildArgs := [] }, builds := [] }, smallRelease.builds,
    rfl, ?_, ?_, ?_⟩
  · decide
  · decide
  · decide

theorem sparesStaging_smallRelease : SparesStaging smallRelease := by
  unfold SparesStaging
  decide

end MessagePusher.Release
