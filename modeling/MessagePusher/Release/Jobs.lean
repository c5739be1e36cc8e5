import MessagePusher.Release.Planned

/-!
# What the jobs of a release start

The scripts put texts of the variant table, of the tags and of the environment on command lines.
Each of them stands behind an option that takes it as its value, so that docker reads what was
meant, whatever the text is. Of all that a build job starts, only the builds touch the registries,
and they push the staging references; of all that a publish job starts, only the promotions of its
plan do.
-/

namespace MessagePusher.Scripts

open CommandLine Semantics Store

/-! ### What docker reads off a build -/

/-- The tags that a build is given. -/
def buildTags (build : Build) (images : Option (List StagingRef)) : List String :=
  match images with
  | some staging => staging.map StagingRef.ref
  | none => build.images.flatMap TaggedImage.tags

/-- What the command line of a build means. -/
def buildReading (build : Build) (options : BuildOptions) (metadataFile builder : String)
    (images : Option (List StagingRef)) (env : ProcessEnv) : Reading where
  options :=
    (if builder = "" then [] else [("builder", builder)]) ++
      [("file", build.dockerfile)] ++
      (if build.target = "" then [] else [("target", build.target)]) ++
      (buildTags build images).map (fun tag => ("tag", tag)) ++
      build.labels.map (fun label => ("label", label.key ++ "=" ++ label.value)) ++
      (if platformsFor build.platforms options = [] then []
        else [("platform", Common.Text.join (platformsFor build.platforms options) ",")]) ++
      (effectiveBuildArgs build options env).map (fun arg =>
        ("build-arg", arg.key ++ "=" ++ arg.value)) ++
      [("provenance", "false")] ++
      (if metadataFile = "" then [] else [("metadata-file", metadataFile)]) ++
      (if options.push then [("push", "true")] else [("output", "type=cacheonly")])
  operands := ["."]

variable {build : Build} {options : BuildOptions} {metadataFile builder : String}
  {images : Option (List StagingRef)} {env : ProcessEnv}

/-- The options that say what becomes of the image. -/
theorem reads_output {reader : Reader}
    (takes : TakesOptions Writer.build.switches Writer.build.valued reader) (push : Bool) :
    Reads reader (if push then ["--push"] else ["--output", "type=cacheonly"])
      { options := if push then [("push", "true")] else [("output", "type=cacheonly")] } := by
  cases push with
  | true => exact Reads.switch takes "push" (by decide)
  | false => exact Reads.behind takes "output" (by decide) _

/-- A build command begins with the words of one. -/
theorem buildxArgv_words : buildxArgv build options metadataFile builder images env =
    Writer.build.words ++ (buildxArgv build options metadataFile builder images env).drop 2 := rfl

/-- A program with the options of `buildx build` reads the command line of a build as it is meant,
whatever the texts in it are. -/
theorem reader_buildxArgv {reader : Reader}
    (takes : TakesOptions Writer.build.switches Writer.build.valued reader) :
    reader ((buildxArgv build options metadataFile builder images env).drop 2) =
      some (buildReading build options metadataFile builder images env) := by
  let platforms := platformsFor build.platforms options
  have builderOption : Reads reader (if builder = "" then [] else ["--builder", builder])
      { options := if builder = "" then [] else [("builder", builder)] } :=
    Reads.optional _ (Reads.behind takes "builder" (by decide) builder)
  have file : Reads reader ["--file", build.dockerfile]
      { options := [("file", build.dockerfile)] } := Reads.behind takes "file" (by decide) _
  have target : Reads reader (if build.target = "" then [] else ["--target", build.target])
      { options := if build.target = "" then [] else [("target", build.target)] } :=
    Reads.optional _ (Reads.behind takes "target" (by decide) build.target)
  have tags : Reads reader ((buildTags build images).flatMap fun tag => ["--tag", tag])
      { options := (buildTags build images).map fun tag => ("tag", tag) } :=
    Reads.flatMap (fun tag => Reads.behind takes "tag" (by decide) tag) _
  have labels : Reads reader (labelArgs build.labels)
      { options := build.labels.map fun label => ("label", label.key ++ "=" ++ label.value) } :=
    Reads.flatMap (fun label => Reads.behind takes "label" (by decide) _) _
  have platform : Reads reader
      (if platforms = [] then [] else ["--platform", Common.Text.join platforms ","])
      { options := if platforms = [] then []
          else [("platform", Common.Text.join platforms ",")] } :=
    Reads.optional _ (Reads.behind takes "platform" (by decide) _)
  have args : Reads reader
      ((effectiveBuildArgs build options env).flatMap fun arg =>
        ["--build-arg", arg.key ++ "=" ++ arg.value])
      { options := (effectiveBuildArgs build options env).map fun arg =>
          ("build-arg", arg.key ++ "=" ++ arg.value) } :=
    Reads.flatMap (fun arg => Reads.behind takes "build-arg" (by decide) _) _
  have provenance : Reads reader ["--provenance=false"]
      { options := [("provenance", "false")] } := Reads.joined takes "provenance" (by decide) "false"
  have metadata : Reads reader
      (if metadataFile = "" then [] else ["--metadata-file", metadataFile])
      { options := if metadataFile = "" then [] else [("metadata-file", metadataFile)] } :=
    Reads.optional _ (Reads.behind takes "metadata-file" (by decide) metadataFile)
  have context : Reads reader ["."] { operands := ["."] } := Reads.operand takes (by decide)
  have whole := builderOption.append file |>.append target |>.append tags |>.append labels
    |>.append platform |>.append args |>.append provenance |>.append metadata
    |>.append (reads_output takes options.push) |>.append context
  refine (Reads.reader_eq takes whole).trans ?_
  simp [buildReading, Reading.append, platforms]

/-- A build command tags its staging references. -/
theorem buildReading_tags :
    (buildReading build options metadataFile builder images env).values "tag" =
      buildTags build images := by
  have optional : ∀ (condition : Prop) [Decidable condition] (name value : String), name ≠ "tag" →
      (if condition then [] else [(name, value)]).filter (fun entry => entry.1 = "tag") = [] := by
    intro condition _ name value other
    split <;> simp [other]
  have output : (if options.push then [("push", "true")]
      else [("output", "type=cacheonly")]).filter (fun entry => entry.1 = "tag") = [] := by
    split <;> simp
  simp [buildReading, Reading.values, optional, output, List.filter_map, Function.comp_def]

/-- A build command pushes when it is told to. -/
theorem buildReading_push :
    (buildReading build options metadataFile builder images env).has "push" = options.push := by
  have optional : ∀ (condition : Prop) [Decidable condition] (name value : String), name ≠ "push" →
      (if condition then [] else [(name, value)]).any (fun entry => entry.1 = "push") = false := by
    intro condition _ name value other
    split <;> simp [other]
  have output : (if options.push then [("push", "true")]
      else [("output", "type=cacheonly")]).any (fun entry => entry.1 = "push") = options.push := by
    cases options.push <;> simp
  have none : ∀ {α : Type} (items : List α), items.any (fun _ => false) = false :=
    fun items => List.any_eq_false.mpr fun _ _ => Bool.false_ne_true
  simp [buildReading, Reading.has, optional, output, Function.comp_def, none]

/-- The options that a build is given: the last one is where the image goes. -/
theorem buildReading_names :
    ∀ entry ∈ (buildReading build options metadataFile builder images env).options,
      entry.1 ∈ ["builder", "file", "target", "tag", "label", "platform", "build-arg", "provenance",
        "metadata-file", if options.push then "push" else "output"] := by
  intro entry member
  have optional : ∀ (condition : Prop) [Decidable condition] (option : String × String),
      entry ∈ (if condition then [] else [option]) → entry = option := by
    intro condition _ option there
    split at there
    · cases there
    · exact List.mem_singleton.mp there
  simp only [buildReading, List.mem_append, List.mem_map, List.mem_singleton] at member
  rcases member with (((((((((there | there) | there) | ⟨_, _, rfl⟩) | ⟨_, _, rfl⟩) | there) |
    ⟨_, _, rfl⟩) | there) | there) | there)
  · simp [optional _ _ there]
  · simp [there]
  · simp [optional _ _ there]
  · simp
  · simp
  · simp [optional _ _ there]
  · simp
  · simp [there]
  · simp [optional _ _ there]
  · cases push : options.push <;> simp [push] at there <;> simp [there]

/-- A dry run keeps the image in the cache. -/
theorem buildReading_output (dry : options.push = false) :
    (buildReading build options metadataFile builder images env).values "output" =
      ["type=cacheonly"] := by
  have optional : ∀ (condition : Prop) [Decidable condition] (name value : String),
      name ≠ "output" →
      (if condition then [] else [(name, value)]).filter (fun entry => entry.1 = "output") = [] := by
    intro condition _ name value other
    split <;> simp [other]
  simp [buildReading, Reading.values, optional, dry, List.filter_map, Function.comp_def]

/-! ### What docker reads off a promotion -/

/-- What the command line of a promotion means. -/
def promotionReading (entry : Promotion) (metadataFile : String) : Reading where
  options := entry.tags.map (fun tag => ("tag", tag)) ++
    (if metadataFile = "" then [] else [("metadata-file", metadataFile)])
  operands := [entry.source]

variable {entry : Promotion}

/-- A promotion begins with its words. -/
theorem promotionArgv_words : promotionArgv entry metadataFile =
    Writer.create.words ++ (promotionArgv entry metadataFile).drop 3 := by
  unfold promotionArgv
  rw [List.append_assoc, List.append_assoc]
  rfl

/-- A program with the options of `imagetools create` reads the command line of a promotion as it is
meant, where the source looks like no option. -/
theorem reader_promotionArgv {reader : Reader}
    (takes : TakesOptions Writer.create.switches Writer.create.valued reader)
    (plain : entry.source.toList.head? ≠ some '-') :
    reader ((promotionArgv entry metadataFile).drop 3) =
      some (promotionReading entry metadataFile) := by
  have tags : Reads reader (entry.tags.flatMap fun tag => ["--tag", tag])
      { options := entry.tags.map fun tag => ("tag", tag) } :=
    Reads.flatMap (fun tag => Reads.behind takes "tag" (by decide) tag) _
  have metadata : Reads reader
      (if metadataFile = "" then [] else ["--metadata-file", metadataFile])
      { options := if metadataFile = "" then [] else [("metadata-file", metadataFile)] } :=
    Reads.optional _ (Reads.behind takes "metadata-file" (by decide) metadataFile)
  have whole := tags.append metadata |>.append (Reads.operand takes plain)
  refine (Reads.reader_eq takes whole).trans ?_
  simp [promotionReading, Reading.append]

/-- A promotion tags the final references of its entry. -/
theorem promotionReading_tags : (promotionReading entry metadataFile).values "tag" = entry.tags := by
  have optional : (if metadataFile = "" then [] else [("metadata-file", metadataFile)]).filter
      (fun entry => entry.1 = "tag") = [] := by
    split <;> simp
  simp [promotionReading, Reading.values, optional, List.filter_map, Function.comp_def]

/-- A promotion has no other options. -/
theorem promotionReading_names :
    ∀ option ∈ (promotionReading entry metadataFile).options,
      option.1 ∈ ["tag", "metadata-file"] := by
  intro option member
  simp only [promotionReading, List.mem_append, List.mem_map] at member
  rcases member with ⟨_, _, rfl⟩ | there
  · simp
  · split at there
    · cases there
    · simp [List.mem_singleton.mp there]

/-! ### What they do to the registries -/

namespace Cli.Documented

variable {cli : Cli} {refs after : Refs} {exit : Exit}

/-- A build pushes its tags, unless nothing is pushed at all. -/
theorem build_leaves (documented : cli.Documented) (served : cli.serves refs
      ⟨"docker", buildxArgv build options metadataFile builder images env⟩ exit after) :
    ∃ serial, (if options.push then Effect.fresh (buildTags build images)
        ⟨buildxArgv build options metadataFile builder images env, serial⟩ else .idle).Leaves
      (exit.status = some 0) refs after := by
  have reads := @reader_buildxArgv build options metadataFile builder images env _
    (documented.options .build)
  have names := @buildReading_names build options metadataFile builder images env
  cases push : options.push with
  | true =>
      rw [push, if_pos rfl] at names
      have others : ∀ name ∈ ["check", "load", "output"],
          (buildReading build options metadataFile builder images env).has name = false :=
        fun name member => Reading.has_eq_false names (by revert name; decide)
      obtain ⟨serial, leaves⟩ :=
        documented.pushes reads (buildReading_push.trans push) others served
      rw [buildReading_tags] at leaves
      exact ⟨serial, leaves⟩
  | false =>
      rw [push, if_neg Bool.false_ne_true] at names
      have others : ∀ name ∈ ["check", "load", "push"],
          (buildReading build options metadataFile builder images env).has name = false :=
        fun name member => Reading.has_eq_false names (by revert name; decide)
      obtain rfl := documented.cacheOnly reads others (buildReading_output push) served
      exact ⟨0, Effect.leaves_idle⟩

/-- A promotion gives its tags what its source names. -/
theorem promotion_leaves (documented : cli.Documented)
    (plain : entry.source.toList.head? ≠ some '-')
    (served : cli.serves refs ⟨"docker", promotionArgv entry metadataFile⟩ exit after) :
    (Effect.copy entry.source entry.tags).Leaves (exit.status = some 0) refs after := by
  have reads := @reader_promotionArgv metadataFile entry _ (documented.options .create) plain
  have others : ∀ name ∈ Writer.create.switches,
      (promotionReading entry metadataFile).has name = false :=
    fun name member => Reading.has_eq_false promotionReading_names (by revert name; decide)
  have leaves := documented.creates reads rfl others served
  rwa [promotionReading_tags] at leaves

end Cli.Documented

end MessagePusher.Scripts

namespace MessagePusher.Release

open CommandLine Scripts Semantics Store

/-- A command line that builds a variant for its staging references. -/
def BuildsFor (state : State) (build : Build) (staging : List StagingRef) (argv : List String) :
    Prop :=
  stagingRefsFor build state = .ok staging ∧ ∃ metadataFile builder env,
    argv = buildxArgv build (optionsOf state) metadataFile builder (some staging) env

/-- What a build job may start. -/
inductive BuildAsks (state : State) : Spawn → Prop where
  | quiet {spawn : Spawn} (quiet : Quiet spawn) : BuildAsks state spawn
  | build {build : Build} {staging : List StagingRef} {argv : List String}
      (member : build ∈ state.builds) (builds : BuildsFor state build staging argv) :
      BuildAsks state ⟨"docker", argv⟩

/-- What a publish job may start. -/
inductive PublishAsks (state : State) : Spawn → Prop where
  | quiet {spawn : Spawn} (quiet : Quiet spawn) : PublishAsks state spawn
  | promote {plan : List Promotion} {entry : Promotion} {metadataFile : String}
      (planned : publishPlan state = .ok plan) (member : entry ∈ plan) :
      PublishAsks state ⟨"docker", promotionArgv entry metadataFile⟩

variable {state : State}

/-! ### Commands that only look -/

/-- A call that writes nothing is none of the pushes. -/
theorem buildAsks_quiet (state : State) (spawn : Spawn) (quiet : Quiet spawn) :
    BuildAsks state spawn := .quiet quiet

/-- A start asks for its own call. -/
theorem asks_start {allowed : Spawn → Prop} {program : String} {args : List String}
    (permitted : allowed ⟨program, args⟩) : (start program args).Asks allowed :=
  ⟨permitted, fun _ => trivial⟩

/-- To look a reference up writes nothing. -/
theorem asks_refExists (ref : String) : (refExists ref).Asks Quiet :=
  (asks_start (.inspect ref)).bind fun _ => trivial

/-- To look references up writes nothing. -/
theorem asks_allExist (refs : List StagingRef) : (allExist refs).Asks Quiet := by
  induction refs with
  | nil => trivial
  | cons entry rest ih =>
      refine (asks_refExists entry.ref).bind fun found => ?_
      cases found with
      | true => exact ih
      | false => trivial

/-- The test for a staged build writes nothing. -/
theorem asks_stagingComplete (refs : List StagingRef) : (stagingComplete refs).Asks Quiet := by
  unfold stagingComplete
  split
  · trivial
  · exact asks_allExist refs

/-- The test for a build that may be reused writes nothing. -/
theorem asks_canReuse (options : BuildOptions) (force : Bool) (refs : List StagingRef) :
    (canReuse options force refs).Asks Quiet := by
  unfold canReuse
  split
  · exact asks_stagingComplete refs
  · trivial

/-- The probe of docker writes nothing. -/
theorem asks_probeDocker (env : ProcessEnv) (fileExists : String → Bool) :
    (probeDocker env fileExists).Asks Quiet := by
  have docker : (hasBinary "docker").Asks Quiet := (asks_start .findDocker).bind fun _ => trivial
  have buildx : (hasBinary "buildx").Asks Quiet := (asks_start .buildxVersion).bind fun _ => trivial
  refine docker.bind fun found => ?_
  cases found with
  | false => trivial
  | true => exact (asks_start (.version _)).bind fun _ => buildx.bind fun _ => trivial

/-! ### The build job -/

/-- A build asks for its own pushes. -/
theorem asks_buildOneVariant {build : Build} {staging : List StagingRef} {env : ProcessEnv}
    {builder workDir : String} (member : build ∈ state.builds)
    (staged : stagingRefsFor build state = .ok staging) :
    (buildOneVariant build (optionsOf state) env builder workDir staging).Asks
      (BuildAsks state) := by
  refine (asks_start (.build member ⟨staged, _, _, _, rfl⟩)).bind fun exit => ?_
  split <;> trivial

/-- The builds ask for their own pushes, one after the other. -/
theorem asks_buildVariants {env : ProcessEnv} {force : Bool} {builder workDir : String}
    {builds : List Build} (within : ∀ build ∈ builds, build ∈ state.builds)
    (results : List BuildResult) :
    (buildVariants env state (optionsOf state) force builder workDir builds results).Asks
      (BuildAsks state) := by
  induction builds generalizing results with
  | nil => trivial
  | cons build rest ih =>
      have others := fun other member => within other (List.mem_cons_of_mem build member)
      rw [buildVariants]
      split
      · trivial
      · next staging staged =>
        have looks := (asks_canReuse (optionsOf state) force staging).mono (buildAsks_quiet state)
        refine looks.bind fun reuse => ?_
        cases reuse with
        | true => exact ih others _
        | false =>
            refine (asks_buildOneVariant (within build List.mem_cons_self) staged).bind
              fun built => ?_
            cases built with
            | error text => trivial
            | ok result => exact ih others _

/-- A build job asks for the pushes of its builds. -/
theorem asks_buildPush (engine : Engine) (place : Workplace) (state : State) :
    (buildPush engine place state).Asks (BuildAsks state) := by
  have created : (createBuilder place (builderName place state)).Asks (BuildAsks state) := by
    unfold createBuilder
    split
    · trivial
    · exact (asks_start (.quiet (.createBuilder _))).bind fun _ => trivial
  have removed : (removeBuilder (builderName place state)).Asks (BuildAsks state) := by
    unfold removeBuilder
    split
    · trivial
    · exact (asks_start (.quiet (.removeBuilder _))).bind fun _ => trivial
  have built : (buildWith engine place state (builderName place state)).Asks (BuildAsks state) := by
    refine (asks_buildVariants (fun _ => id) []).bind fun outcome => removed.bind fun _ => ?_
    obtain ⟨results, failure⟩ := outcome
    cases failure <;> trivial
  unfold buildPush
  split
  · trivial
  · refine ((asks_probeDocker _ _).mono (buildAsks_quiet state)).bind fun docker => ?_
    split
    · trivial
    · refine created.bind fun ready => ?_
      cases ready with
      | false => trivial
      | true => exact built

/-! ### The publish job -/

/-- To look for what is missing writes nothing. -/
theorem asks_askMissing (plan : List Promotion) : (askMissing plan).Asks Quiet := by
  induction plan with
  | nil => trivial
  | cons entry rest ih =>
      exact (asks_refExists entry.source).bind fun _ => ih.bind fun _ => trivial

/-- The promotions ask for what the plan says. -/
theorem asks_promoteAll {plan : List Promotion} (planned : publishPlan state = .ok plan)
    {workDir : String} {rest : List Promotion} (within : ∀ entry ∈ rest, entry ∈ plan)
    (promoted : List Promotion) (results : List PublishResult) :
    (promoteAll workDir rest promoted results).Asks (PublishAsks state) := by
  induction rest generalizing promoted results with
  | nil => trivial
  | cons entry rest ih =>
      refine (asks_start (.promote planned (within entry List.mem_cons_self))).bind fun exit => ?_
      split
      · trivial
      · exact ih (fun other member => within other (List.mem_cons_of_mem entry member)) _ _

/-- A publish job asks for the promotions of its plan. -/
theorem asks_publishJob (workDir : String) (state : State) :
    (publishJob workDir state).Asks (PublishAsks state) := by
  unfold publishJob
  split
  · trivial
  · next plan planned =>
    split
    · trivial
    · split
      · trivial
      · refine ((asks_askMissing plan).mono fun spawn quiet => .quiet quiet).bind fun missing => ?_
        split
        · trivial
        · exact asks_promoteAll planned (fun _ => id) [] []

/-! ### What they do to the registries -/

/-- The references that a build is staged under. -/
def StagingOf (state : State) (build : Build) (ref : String) : Prop :=
  ∃ tag, StagedAs state build tag ∧ ∃ image ∈ build.images, ref = image.base ++ ":" ++ tag

/-- The references that a build is published under. -/
def FinalOf (build : Build) (ref : String) : Prop := ∃ image ∈ build.images, ref ∈ image.tags

theorem mem_staging_iff {build : Build} {staging : List StagingRef}
    (staged : stagingRefsFor build state = .ok staging) {ref : String} :
    ref ∈ staging.map StagingRef.ref ↔ StagingOf state build ref := by
  obtain ⟨tag, named, refs⟩ := stagingRefsFor_refs staged
  rw [refs, List.mem_map]
  constructor
  · rintro ⟨image, member, rfl⟩
    exact ⟨tag, named, image, member, rfl⟩
  · rintro ⟨other, alsoNamed, image, member, rfl⟩
    obtain rfl : tag = other := Except.ok.inj (named.symm.trans alsoNamed)
    exact ⟨image, member, rfl⟩

/-- A staging reference that is promoted looks like no option. -/
theorem source_plain {engine : Engine} (release : Planned engine state) {plan : List Promotion}
    (planned : publishPlan state = .ok plan) {entry : Promotion} (member : entry ∈ plan) :
    entry.source.toList.head? ≠ some '-' := by
  obtain ⟨build, known, image, listed, tag, _, rfl⟩ := (mem_publishPlan_iff planned).mp member
  obtain ⟨plain, _⟩ := release.image known listed
  cases chars : image.base.toList with
  | nil => simp [chars]
  | cons first rest => simpa [chars] using plain

/-- Whatever the variant table, the tags and the environment have in them, docker reads each command
of a job that could write as the plan means it. -/
theorem commands_read_as_planned {reader : Writer → Reader}
    (options : ∀ writer, TakesOptions writer.switches writer.valued (reader writer))
    {engine : Engine} (release : Planned engine state) (place : Workplace) (workDir : String) :
    (buildPush engine place state).Asks (fun spawn => Quiet spawn ∨
      ∃ build ∈ state.builds, ∃ staging metadataFile builder env args,
        stagingRefsFor build state = .ok staging ∧
        spawn = ⟨"docker", Writer.build.words ++ args⟩ ∧
        reader .build args =
          some (buildReading build (optionsOf state) metadataFile builder (some staging) env)) ∧
    (publishJob workDir state).Asks (fun spawn => Quiet spawn ∨
      ∃ plan, publishPlan state = .ok plan ∧ ∃ entry ∈ plan, ∃ metadataFile args,
        spawn = ⟨"docker", Writer.create.words ++ args⟩ ∧
        reader .create args = some (promotionReading entry metadataFile)) := by
  constructor
  · refine (asks_buildPush engine place state).mono fun spawn asked => ?_
    cases asked with
    | quiet quiet => exact .inl quiet
    | build member builds =>
        obtain ⟨staged, metadataFile, builder, env, rfl⟩ := builds
        exact .inr ⟨_, member, _, metadataFile, builder, env, _, staged,
          congrArg (Spawn.mk "docker") buildxArgv_words, reader_buildxArgv (options .build)⟩
  · refine (asks_publishJob workDir state).mono fun spawn asked => ?_
    cases asked with
    | quiet quiet => exact .inl quiet
    | promote planned member =>
        exact .inr ⟨_, planned, _, member, _, _,
          congrArg (Spawn.mk "docker") promotionArgv_words,
          reader_promotionArgv (options .create) (source_plain release planned member)⟩

/-- A release whose texts look like options, read by `read`. -/
theorem commands_read_as_planned_smallRelease :
    (buildPush plainEngine { env := smallEnv } smallRelease).Asks (fun spawn => Quiet spawn ∨
      ∃ build ∈ smallRelease.builds, ∃ staging metadataFile builder env args,
        stagingRefsFor build smallRelease = .ok staging ∧
        spawn = ⟨"docker", Writer.build.words ++ args⟩ ∧
        read Writer.build.switches args =
          some (buildReading build (optionsOf smallRelease) metadataFile builder (some staging)
            env)) ∧
    (publishJob "/tmp" smallRelease).Asks (fun spawn => Quiet spawn ∨
      ∃ plan, publishPlan smallRelease = .ok plan ∧ ∃ entry ∈ plan, ∃ metadataFile args,
        spawn = ⟨"docker", Writer.create.words ++ args⟩ ∧
        read Writer.create.switches args = some (promotionReading entry metadataFile)) :=
  commands_read_as_planned plainCli_documented.options planned_smallRelease { env := smallEnv } "/tmp"

/-! ### What the jobs do to the registries -/

section Registries

variable {cli : Cli} {refs after : Refs} {spawn : Spawn} {exit : Exit}

/-- What a command of a build job does: nothing, or a build for its staging references. -/
theorem BuildAsks.leaves (documented : cli.Documented) (asks : BuildAsks state spawn)
    (served : cli.serves refs spawn exit after) :
    after = refs ∨ ∃ build ∈ state.builds, ∃ staging serial, BuildsFor state build staging spawn.args ∧
      spawn = ⟨"docker", spawn.args⟩ ∧ (optionsOf state).push = true ∧
      (Effect.fresh (staging.map StagingRef.ref) (Artifact.mk spawn.args serial)).Leaves
        (exit.status = some 0) refs after := by
  cases asks with
  | quiet quiet => exact .inl (documented.quiet quiet served)
  | @build build staging argv member builds =>
      obtain ⟨staged, metadataFile, builder, env, rfl⟩ := builds
      obtain ⟨serial, leaves⟩ := documented.build_leaves served
      cases push : (optionsOf state).push with
      | false =>
          rw [push, if_neg Bool.false_ne_true] at leaves
          exact .inl leaves.idle
      | true =>
          rw [push, if_pos rfl] at leaves
          exact .inr ⟨build, member, staging, serial, ⟨staged, _, _, _, rfl⟩, rfl, rfl, leaves⟩

/-- What a command of a publish job does: nothing, or a promotion of its plan. -/
theorem PublishAsks.leaves (documented : cli.Documented) {engine : Engine}
    (release : Planned engine state) (asks : PublishAsks state spawn)
    (served : cli.serves refs spawn exit after) :
    after = refs ∨ ∃ plan, publishPlan state = .ok plan ∧ ∃ entry ∈ plan, ∃ metadataFile,
      spawn = ⟨"docker", promotionArgv entry metadataFile⟩ ∧
      (Effect.copy entry.source entry.tags).Leaves (exit.status = some 0) refs after := by
  cases asks with
  | quiet quiet => exact .inl (documented.quiet quiet served)
  | @promote plan entry metadataFile planned member =>
      exact .inr ⟨plan, planned, entry, member, metadataFile, rfl,
        documented.promotion_leaves (source_plain release planned member) served⟩

end Registries

/-! ### Staging and final references -/

/-- A final reference of one release is no staging reference of another. -/
theorem final_not_staging {engine : Engine} {state other : State} {build built : Build}
    {ref : String} (planned : Planned engine state) (spares : SparesStaging state)
    (alsoPlanned : Planned engine other) (member : build ∈ state.builds)
    (known : built ∈ other.builds) (final : FinalOf build ref) :
    ¬ StagingOf other built ref := by
  rintro ⟨tag, staged, image, _, rfl⟩
  obtain ⟨owner, listed, named⟩ := final
  rw [(planned.image member listed).2] at named
  obtain ⟨name, hasName, same⟩ := List.mem_map.mp named
  obtain ⟨_, _, _, legal, _⟩ := planned.build_ok member
  obtain ⟨_, rfl⟩ := reference_injective (legal name hasName) staged.legal same
  exact spares build member name hasName
    (stagingTagName_staging staged (alsoPlanned.variantName known))

/-- Builds of one version and commit that share a staging reference are of one variant. -/
theorem staging_same_variant {engine : Engine} {state other : State} {build built : Build}
    {ref : String} (planned : Planned engine state) (alsoPlanned : Planned engine other)
    (member : build ∈ state.builds) (known : built ∈ other.builds)
    (version : state.version = other.version) (sha : state.shortSha = other.shortSha)
    (one : StagingOf state build ref) (two : StagingOf other built ref) :
    build.variant = built.variant := by
  obtain ⟨tag, staged, image, _, rfl⟩ := one
  obtain ⟨_, alsoStaged, _, _, same⟩ := two
  obtain ⟨_, rfl⟩ := reference_injective staged.legal alsoStaged.legal same
  rw [StagedAs, ← version, ← sha] at alsoStaged
  exact stagingTagName_injective staged alsoStaged (planned.variantName member)
    (alsoPlanned.variantName known)

/-! ### What is kept -/

/-- No reference is lost. -/
def Grows (before after : Refs) : Prop := ∀ ref, (before ref).isSome → (after ref).isSome

/-- The staging references of a build name something. -/
def Staged (state : State) (build : Build) (refs : Refs) : Prop :=
  ∀ ref, StagingOf state build ref → (refs ref).isSome

/-- All variants of the release are staged. -/
def AllStaged (state : State) (refs : Refs) : Prop := ∀ build ∈ state.builds, Staged state build refs

/-- What is staged stays so while no reference is lost. -/
theorem AllStaged.grows {state : State} {before after : Refs} (staged : AllStaged state before)
    (grows : Grows before after) : AllStaged state after :=
  fun build member ref staging => grows ref (staged build member ref staging)

theorem Grows.refl (refs : Refs) : Grows refs refs := fun _ => id

/-- No command takes a reference away. -/
theorem Grows.of_leaves {effect : Effect String Artifact} {complete : Prop} {refs after : Refs}
    (leaves : effect.Leaves complete refs after) : Grows refs after :=
  fun _ full => leaves.isSome full

theorem Grows.trans {first second third : Refs} (one : Grows first second)
    (two : Grows second third) : Grows first third := fun ref full => two ref (one ref full)

/-! ### The publication, step by step

`publish` is given what docker answers to each question at once, `publishJob` asks one question
after the other. Where docker answers alike, both end alike (`publishJob_runs_iff`). -/

section PublishSteps

/-- Docker as `publish` is given it; the world is the number of promotions so far. -/
def answersOf (docker : Docker) : Environment Nat Spawn Exit := fun step spawn exit after =>
  (∀ ref, spawn = ⟨"docker", inspectArgv ref⟩ →
    (exit.code = 0 ↔ docker.refExists ref = true) ∧ after = step) ∧
  ∀ entry file, spawn = ⟨"docker", promotionArgv entry file⟩ →
    exit.code = docker.create step (promotionArgv entry file) ∧ exit.digest = docker.digest step ∧
      after = step + 1

/-- No command line is both a question and a promotion. -/
theorem inspectArgv_ne_promotionArgv (ref : String) (entry : Promotion) (file : String) :
    inspectArgv ref ≠ promotionArgv entry file := by
  intro same
  have third := congrArg (fun args => args.getD 2 "") same
  exact absurd third (by simp [inspectArgv, promotionArgv])

/-- What the steps end with, and the number of promotions then. -/
structure Ends {α : Type} (docker : Docker) (job : Job α) (step : Nat) (post : α → Nat → Prop) :
    Prop where
  safe : job.Safe (answersOf docker) Eq (fun _ spawn => (∃ ref, spawn = ⟨"docker", inspectArgv ref⟩) ∨
    ∃ entry file, spawn = ⟨"docker", promotionArgv entry file⟩) post step

variable {α β : Type} {docker : Docker} {step : Nat} {workDir : String}

/-- A job ends as its parts do. -/
theorem Ends.bind {job : Job α} {next : α → Job β} {last : β → Nat → Prop}
    (ends : Ends docker job step fun result after => Ends docker (next result) after last) :
    Ends docker (job >>= next) step last :=
  ⟨(ends.safe.mono (fun _ _ => id) fun _ _ rest => rest.safe).bind fun _ => rfl⟩

theorem ends_pure {result : α} {post : α → Nat → Prop} (holds : post result step) :
    Ends docker (.done result) step post := by
  constructor
  rintro _ rfl
  exact holds

/-- A lookup takes no promotion, and answers what the plan is checked against. -/
theorem ends_refExists (ref : String) : Ends docker (refExists ref) step fun found after =>
    after = step ∧ found = docker.refExists ref := by
  constructor
  rintro _ rfl
  refine ⟨.inl ⟨ref, rfl⟩, fun exit after answered => ?_⟩
  rintro _ rfl
  obtain ⟨exact_, rfl⟩ := answered.1 ref rfl
  exact ⟨rfl, (Bool.decide_congr exact_).trans Bool.decide_eq_true⟩

/-- The lookups answer what is missing. -/
theorem ends_askMissing (plan : List Promotion) : Ends docker (askMissing plan) step
    fun missing after => after = step ∧ missing = missingStaging plan docker := by
  induction plan with
  | nil => exact ends_pure ⟨rfl, rfl⟩
  | cons entry rest ih =>
      refine Ends.bind ⟨(ends_refExists entry.source).safe.mono (fun _ _ => id) ?_⟩
      rintro _ _ ⟨rfl, rfl⟩
      refine Ends.bind ⟨ih.safe.mono (fun _ _ => id) ?_⟩
      rintro _ _ ⟨rfl, rfl⟩
      refine ends_pure ⟨rfl, ?_⟩
      cases found : docker.refExists entry.source <;> simp [missingStaging, found]

/-- The promotions end as those of `publish` do. -/
theorem ends_promoteAll (rest promoted : List Promotion) (results : List PublishResult) :
    Ends docker (promoteAll workDir rest promoted results) step fun outcome _ =>
      outcome = promoteFrom docker workDir step rest promoted results := by
  induction rest generalizing step promoted results with
  | nil => exact ends_pure rfl
  | cons entry rest ih =>
      constructor
      rintro _ rfl
      refine ⟨.inr ⟨entry, _, rfl⟩, fun exit after answered => ?_⟩
      obtain ⟨status, digest, rfl⟩ := answered.2 entry _ rfl
      show Process.Safe _ _ _ _ (if exit.code ≠ 0 then _ else _) _
      rw [promoteFrom, status, digest]
      unfold promotionFile
      by_cases failed : docker.create step (promotionArgv entry (workDir ++ "/publish-" ++
          entry.variant ++ "-" ++ entry.registryId.text ++ ".json")) ≠ 0
      · rw [if_pos failed, if_pos failed]
        exact fun _ _ => rfl
      · rw [if_neg failed, if_neg failed]
        exact (ih _ _).safe

/-- Every run of `publishJob` ends as `publish` says. -/
theorem ends_publishJob (state : State) : Ends docker (publishJob workDir state) 0
    fun outcome _ => outcome = publish docker workDir state := by
  unfold publishJob publish
  cases publishPlan state with
  | error text => exact ends_pure rfl
  | ok plan =>
      dsimp only
      by_cases none_ : plan = []
      · rw [if_pos none_, if_pos none_]
        exact ends_pure rfl
      · rw [if_neg none_, if_neg none_]
        by_cases dry : state.dryRun = true
        · rw [if_pos dry, if_pos dry]
          exact ends_pure rfl
        · rw [if_neg dry, if_neg dry]
          refine Ends.bind ⟨(ends_askMissing plan).safe.mono (fun _ _ => id) ?_⟩
          rintro _ _ ⟨rfl, rfl⟩
          by_cases missing : missingStaging plan docker ≠ []
          · rw [if_pos missing, if_pos missing]
            exact ends_pure rfl
          · rw [if_neg missing, if_neg missing]
            exact ends_promoteAll plan [] []

/-- What docker is asked it answers. -/
theorem exists_answer (step : Nat) (spawn : Spawn)
    (known : (∃ ref, spawn = ⟨"docker", inspectArgv ref⟩) ∨
      ∃ entry file, spawn = ⟨"docker", promotionArgv entry file⟩) :
    ∃ exit after, answersOf docker step spawn exit after := by
  rcases known with ⟨ref, rfl⟩ | ⟨entry, file, rfl⟩
  · refine ⟨{ status := some (if docker.refExists ref then 0 else 1) }, step, ?_, ?_⟩
    · rintro other same
      obtain rfl : ref = other := by simpa [inspectArgv] using same
      refine ⟨?_, rfl⟩
      cases found : docker.refExists ref <;> simp [Exit.code]
    · rintro entry file same
      exact absurd (Spawn.mk.inj same).2 (inspectArgv_ne_promotionArgv ref entry file)
  · let argv := promotionArgv entry file
    refine ⟨{ status := some (docker.create step argv), digest := docker.digest step }, step + 1, ?_, ?_⟩
    · rintro ref same
      exact absurd (Spawn.mk.inj same).2.symm (inspectArgv_ne_promotionArgv ref entry file)
    · rintro other path same
      rw [← (Spawn.mk.inj same).2]
      exact ⟨rfl, rfl, rfl⟩

/-- Where docker answers as `publish` is told, the steps end as it says, and only so. -/
theorem publishJob_runs_iff {state : State} {outcome : PublishOutcome} :
    (∃ last, (publishJob workDir state).Runs (answersOf docker) 0 outcome last) ↔
      outcome = publish docker workDir state := by
  have ends : Ends docker (publishJob workDir state) 0
      fun outcome _ => outcome = publish docker workDir state := ends_publishJob state
  constructor
  · rintro ⟨last, runs⟩
    exact runs.meets ends.safe
  · rintro rfl
    obtain ⟨_, last, runs, rfl⟩ := ends.safe.exists_run exists_answer
    exact ⟨last, runs⟩

end PublishSteps

end MessagePusher.Release
