import MessagePusher.Release.Jobs
import Mathlib.Data.List.Pairwise

/-!
# Running a release again

Whatever earlier attempts left in the registries, a build and a publish job that docker serves well
complete the release: only what is not staged is built, each final reference names what is staged
for it, and a second round changes nothing (`rerun_completes`).
-/

namespace MessagePusher.Release

open CommandLine Scripts Semantics Semantics.Fallible Store

/-- The commands of a round that docker can serve: a promotion needs its source. -/
inductive Servable (state : State) (refs : Refs) : Spawn → Prop where
  | quiet {spawn : Spawn} (quiet : Quiet spawn) : Servable state refs spawn
  | build {build : Build} {staging : List StagingRef} {argv : List String}
      (member : build ∈ state.builds) (builds : BuildsFor state build staging argv) :
      Servable state refs ⟨"docker", argv⟩
  | promote {plan : List Promotion} {entry : Promotion} {metadataFile : String}
      (plans : publishPlan state = .ok plan) (member : entry ∈ plan)
      (staged : (refs entry.source).isSome) :
      Servable state refs ⟨"docker", promotionArgv entry metadataFile⟩

/-- What a job ends with when nobody else is at work and docker does not fail. -/
structure Works {α : Type} (cli : Cli) (state : State) (job : Job α) (refs : Refs)
    (post : α → Refs → Prop) : Prop where
  safe : job.Safe cli.working Eq (Servable state) post refs

section Works

variable {α β : Type} {cli : Cli} {state : State} {refs : Refs} {job : Job α}
  {post : α → Refs → Prop}

/-- A job works as its parts do. -/
theorem Works.bind {next : α → Job β} {last : β → Refs → Prop}
    (works : Works cli state job refs fun result after =>
      Works cli state (next result) after last) :
    Works cli state (job >>= next) refs last :=
  ⟨(works.safe.mono (fun _ _ => id) fun _ _ rest => rest.safe).bind fun _ => rfl⟩

/-- What holds in the end implies what is asked. -/
theorem Works.mono {strong : α → Refs → Prop} (works : Works cli state job refs strong)
    (implies : ∀ result after, strong result after → post result after) :
    Works cli state job refs post :=
  ⟨works.safe.mono (fun _ _ => id) implies⟩

theorem works_pure {result : α} (holds : post result refs) :
    Works cli state (.done result) refs post := by
  constructor
  rintro _ rfl
  exact holds

/-- A command that can be served ends as docker ends it. -/
theorem works_start {program : String} {args : List String} {post : Exit → Refs → Prop}
    (servable : Servable state refs ⟨program, args⟩)
    (ends : ∀ exit after, cli.working refs ⟨program, args⟩ exit after → post exit after) :
    Works cli state (start program args) refs post := by
  constructor
  rintro _ rfl
  refine ⟨servable, fun exit after answered => ?_⟩
  rintro _ rfl
  exact ends exit after answered

variable (documented : cli.Documented)

include documented

/-- What only looks at something else than a reference succeeds. -/
theorem works_quiet {program : String} {args : List String} (quiet : Quiet ⟨program, args⟩)
    (other : ∀ ref, args ≠ inspectArgv ref) :
    Works cli state (start program args) refs fun exit after =>
      after = refs ∧ exit.status = some 0 := by
  refine works_start (.quiet quiet) ?_
  rintro exit after ⟨served, succeeds⟩
  refine ⟨documented.quiet quiet served, succeeds.resolve_right ?_⟩
  rintro ⟨ref, same, _⟩
  exact other ref (Spawn.mk.inj same).2

/-- To look a reference up tells whether it is there. -/
theorem works_refExists (ref : String) :
    Works cli state (refExists ref) refs fun found after =>
      after = refs ∧ (found = true ↔ (refs ref).isSome) := by
  refine Works.bind (works_start (.quiet (.inspect ref)) ?_)
  rintro exit after ⟨served, succeeds⟩
  refine works_pure ⟨documented.quiet (.inspect ref) served, ?_⟩
  rw [decide_eq_true_iff, Exit.code_eq_zero]
  constructor
  · exact documented.inspect served
  · intro full
    refine succeeds.resolve_right ?_
    rintro ⟨other, same, absent⟩
    obtain rfl : ref = other := by simpa [inspectArgv] using same
    simp [absent] at full

/-- To look references up tells whether all are there. -/
theorem works_allExist (staging : List StagingRef) :
    Works cli state (allExist staging) refs fun found after =>
      after = refs ∧ (found = true ↔ ∀ ref ∈ staging.map StagingRef.ref, (refs ref).isSome) := by
  induction staging with
  | nil => exact works_pure ⟨rfl, by simp⟩
  | cons entry rest ih =>
      refine Works.bind ((works_refExists documented entry.ref).mono ?_)
      rintro found after ⟨rfl, first⟩
      rw [List.map_cons]
      simp only [List.forall_mem_cons]
      cases found with
      | true => exact ih.mono fun all later ⟨same, others⟩ =>
          ⟨same, others.trans (and_iff_right (first.mp rfl)).symm⟩
      | false => exact works_pure ⟨rfl, iff_of_false Bool.false_ne_true fun both =>
          Bool.false_ne_true (first.mpr both.1)⟩

/-- A variant is left out exactly when it has staging references and all of them are there. -/
theorem works_canReuse {options : BuildOptions} {force : Bool} {staging : List StagingRef}
    (push : options.push = true) (unforced : force = false) :
    Works cli state (canReuse options force staging) refs fun reuse after =>
      after = refs ∧ (reuse = true ↔
        staging ≠ [] ∧ ∀ ref ∈ staging.map StagingRef.ref, (refs ref).isSome) := by
  unfold canReuse stagingComplete
  rw [push, unforced]
  by_cases none_ : staging = []
  · rw [if_pos (by rfl), if_pos none_]
    exact works_pure ⟨rfl, by simp [none_]⟩
  · rw [if_pos (by rfl), if_neg none_]
    exact (works_allExist documented staging).mono fun _ _ ⟨same, iff⟩ =>
      ⟨same, iff.trans (and_iff_right none_).symm⟩

end Works

/-! ### The build job -/

variable {cli : Cli} {engine : Engine} {state : State} {refs : Refs}

/-- Every staging tag of the release is a legal one. -/
def Stageable (state : State) : Prop := ∀ build ∈ state.builds, ∃ tag, StagedAs state build tag

/-- What running the builds leaves: all of them are staged, one image for each that was not staged
before, and a reference is as before unless it is one of those. -/
structure Completes (state : State) (builds : List Build) (before after : Refs) : Prop where
  staged : ∀ build ∈ builds, Staged state build after
  built : ∀ build ∈ builds, ¬ Staged state build before →
    ∃ artifact, ∀ ref, StagingOf state build ref → after ref = some artifact
  grows : Grows before after
  kept : ∀ ref, (∀ build ∈ builds, StagingOf state build ref → Staged state build before) →
    after ref = before ref

/-- A build succeeds, stages its references under one image and touches no others. -/
theorem works_buildOneVariant (documented : cli.Documented) {build : Build}
    {staging : List StagingRef} {env : ProcessEnv} {builder workDir : String}
    (member : build ∈ state.builds) (push : (optionsOf state).push = true)
    (staged : stagingRefsFor build state = .ok staging) :
    Works cli state (buildOneVariant build (optionsOf state) env builder workDir staging) refs
      fun built after => built.isOk = true ∧
        (∃ artifact, ∀ ref, StagingOf state build ref → after ref = some artifact) ∧
        Grows refs after ∧ ∀ ref, ¬ StagingOf state build ref → after ref = refs ref := by
  refine Works.bind (works_start (.build member ⟨staged, _, _, _, rfl⟩) ?_)
  · rintro exit after ⟨served, succeeds⟩
    have status : exit.status = some 0 := succeeds.resolve_right (by
      rintro ⟨ref, same, _⟩
      have second := congrArg (fun args => args.getD 1 "") (Spawn.mk.inj same).2
      exact absurd second (by simp [buildxArgv, inspectArgv]))
    obtain ⟨serial, leaves⟩ := documented.build_leaves served
    rw [push, if_pos rfl] at leaves
    rw [if_neg (not_not.mpr (Exit.code_eq_zero.mpr status))]
    have given : ∀ ref, StagingOf state build ref → _ := fun ref known =>
      (leaves.target status ((mem_staging_iff staged).mpr known)).2
    exact works_pure ⟨rfl, ⟨_, given⟩, fun _ full => leaves.isSome full, fun ref other =>
      leaves.frame fun known => other ((mem_staging_iff staged).mp known)⟩

/-- No two builds share a staging reference. -/
def StagedApart (state : State) (builds : List Build) : Prop :=
  builds.Pairwise fun first second => ∀ ref, StagingOf state first ref → ¬ StagingOf state second ref

/-- The builds of a planned release are staged apart. -/
theorem Planned.stagedApart (planned : Planned engine state) : StagedApart state state.builds := by
  have distinct := List.pairwise_map.mp planned.distinct
  refine distinct.imp_of_mem fun first second different ref one two => different ?_
  exact staging_same_variant planned planned first second rfl rfl one two

/-- A build that is staged completely is passed over. -/
theorem Completes.cons_staged {build : Build} {rest : List Build} {before after : Refs}
    (completes : Completes state rest before after) (full : Staged state build before) :
    Completes state (build :: rest) before after where
  staged := List.forall_mem_cons.mpr
    ⟨fun ref known => completes.grows ref (full ref known), completes.staged⟩
  built := List.forall_mem_cons.mpr ⟨fun missing => absurd full missing, completes.built⟩
  grows := completes.grows
  kept ref quiet := completes.kept ref (List.forall_mem_cons.mp quiet).2

/-- A build that is not is given one image first, which the others leave alone. -/
theorem Completes.cons_built {build : Build} {rest : List Build} {before middle after : Refs}
    {artifact : Artifact} (completes : Completes state rest middle after)
    (missing : ∀ ref, StagingOf state build ref → ¬ Staged state build before)
    (distinct : ∀ other ∈ rest, ∀ ref, StagingOf state build ref → ¬ StagingOf state other ref)
    (now : ∀ ref, StagingOf state build ref → middle ref = some artifact)
    (grows : Grows before middle)
    (frame : ∀ ref, ¬ StagingOf state build ref → middle ref = before ref) :
    Completes state (build :: rest) before after := by
  have still : ∀ other ∈ rest, ∀ ref, StagingOf state other ref → middle ref = before ref :=
    fun other member ref known => frame ref fun own => distinct other member ref own known
  have own : ∀ ref, StagingOf state build ref → after ref = some artifact := by
    intro ref known
    rw [completes.kept ref fun other member also => absurd also (distinct other member ref known),
      now ref known]
  refine ⟨?_, ?_, grows.trans completes.grows, ?_⟩
  · refine List.forall_mem_cons.mpr ⟨fun ref known => ?_, completes.staged⟩
    rw [own ref known]
    rfl
  · refine List.forall_mem_cons.mpr ⟨fun _ => ⟨artifact, own⟩, fun other member absent => ?_⟩
    refine completes.built other member fun full => absent fun ref known => ?_
    rw [← still other member ref known]
    exact full ref known
  · intro ref quiet
    obtain ⟨first, later⟩ := List.forall_mem_cons.mp quiet
    rw [completes.kept ref fun other member known name staging =>
      grows name (later other member known name staging),
      frame ref fun known => missing ref known (first known)]

/-- The loop of the build job builds what is not staged, and nothing else. -/
theorem works_buildVariants (documented : cli.Documented) {env : ProcessEnv}
    {builder workDir : String} {builds : List Build} (within : ∀ build ∈ builds, build ∈ state.builds)
    (push : (optionsOf state).push = true)
    (stageable : ∀ build ∈ builds, ∃ tag, StagedAs state build tag) (apart : StagedApart state builds)
    (results : List BuildResult) :
    Works cli state (buildVariants env state (optionsOf state) false builder workDir builds results) refs
      fun outcome after => outcome.2 = none ∧ Completes state builds refs after := by
  induction builds generalizing results refs with
  | nil =>
      have none_ : ∀ build ∈ ([] : List Build), Staged state build refs := by rintro _ ⟨⟩
      have completes : Completes state [] refs refs :=
        ⟨none_, by rintro _ ⟨⟩, fun _ => id, fun _ _ => rfl⟩
      rw [buildVariants]
      exact works_pure ⟨rfl, completes⟩
  | cons build rest ih =>
      obtain ⟨tag, named⟩ := stageable build List.mem_cons_self
      have others := fun other member => stageable other (List.mem_cons_of_mem build member)
      have known := fun other member => within other (List.mem_cons_of_mem build member)
      obtain ⟨distinct, restApart⟩ := List.pairwise_cons.mp apart
      have staged := stagingRefsFor_ok_iff.mpr ⟨tag, named, rfl⟩
      rw [buildVariants, staged]
      refine Works.bind ((works_canReuse documented push rfl).mono ?_)
      rintro reuse refs ⟨rfl, reused⟩
      have complete : (∀ ref ∈ _, (refs ref).isSome) ↔ Staged state build refs :=
        forall_congr' fun _ => imp_congr_left (mem_staging_iff staged)
      cases reuse with
      | true =>
          have full : Staged state build refs := complete.mp (reused.mp rfl).2
          refine (ih known others restApart _).mono ?_
          rintro outcome after ⟨done, completes⟩
          exact ⟨done, completes.cons_staged full⟩
      | false =>
          refine Works.bind ((works_buildOneVariant documented (within build List.mem_cons_self)
            push staged).mono ?_)
          rintro built middle ⟨ok, ⟨artifact, now⟩, grows, frame⟩
          cases built with
          | error text => cases ok
          | ok result =>
              refine (ih known others restApart _).mono ?_
              rintro outcome after ⟨done, completes⟩
              have missing : ∀ ref, StagingOf state build ref → ¬ Staged state build refs := by
                intro ref known full
                have some_ := List.ne_nil_of_mem ((mem_staging_iff staged).mpr known)
                exact Bool.false_ne_true
                  (reused.mpr ⟨fun none_ => some_ (by rw [none_]; rfl), complete.mpr full⟩)
              exact ⟨done, completes.cons_built missing distinct now grows frame⟩

/-- The probe finds a docker that can build. -/
theorem works_probeDocker (documented : cli.Documented) (env : ProcessEnv)
    (fileExists : String → Bool) :
    Works cli state (probeDocker env fileExists) refs fun docker after =>
      after = refs ∧ docker.canBuild = true := by
  have found : ∀ {binary : String} {refs : Refs}, binary = "docker" ∨ binary = "buildx" →
      Works cli state (hasBinary binary) refs fun found after => after = refs ∧ found = true := by
    rintro binary refs (rfl | rfl)
    · refine Works.bind ((works_quiet documented .findDocker (by simp [inspectArgv])).mono ?_)
      rintro exit refs ⟨rfl, succeeds⟩
      exact works_pure ⟨rfl, decide_eq_true succeeds⟩
    · refine Works.bind ((works_quiet documented .buildxVersion (by simp [inspectArgv])).mono ?_)
      rintro exit refs ⟨rfl, succeeds⟩
      exact works_pure ⟨rfl, decide_eq_true succeeds⟩
  refine Works.bind ((found (.inl rfl)).mono ?_)
  rintro _ refs ⟨rfl, rfl⟩
  refine Works.bind ((works_quiet documented (.version _) (by simp [inspectArgv])).mono ?_)
  rintro version refs ⟨rfl, reached⟩
  refine Works.bind ((found (.inr rfl)).mono ?_)
  rintro _ refs ⟨rfl, rfl⟩
  exact works_pure ⟨rfl, by simp [Probe.canBuild, reached]⟩

/-- A builder is made. -/
theorem works_createBuilder (documented : cli.Documented) (place : Workplace) (builder : String) :
    Works cli state (createBuilder place builder) refs fun ready after =>
      after = refs ∧ ready = true := by
  unfold createBuilder
  split
  · exact works_pure ⟨rfl, rfl⟩
  · refine Works.bind ((works_quiet documented (.createBuilder _)
      (by simp [inspectArgv])).mono ?_)
    rintro exit refs ⟨rfl, succeeds⟩
    exact works_pure ⟨rfl, decide_eq_true (Exit.code_eq_zero.mpr succeeds)⟩

/-- To remove a builder changes no reference. -/
theorem works_removeBuilder (documented : cli.Documented) (builder : String) :
    Works cli state (removeBuilder builder) refs fun _ after => after = refs := by
  unfold removeBuilder
  split
  · exact works_pure rfl
  · refine Works.bind ((works_quiet documented (.removeBuilder _)
      (by simp [inspectArgv])).mono ?_)
    rintro exit refs ⟨rfl, _⟩
    exact works_pure rfl

/-- The build job goes through and completes the staging of the release. -/
theorem works_buildPush (documented : cli.Documented) {place : Workplace}
    (some_ : state.builds ≠ [])
    (push : (optionsOf state).push = true) (stageable : Stageable state)
    (apart : StagedApart state state.builds)
    (unforced : isTruthy engine (place.env.read "DOCKER_FORCE_BUILD") = false) :
    Works cli state (buildPush engine place state) refs fun outcome after =>
      outcome.exitCode = 0 ∧ Completes state state.builds refs after := by
  unfold buildPush
  rw [if_neg some_]
  refine Works.bind ((works_probeDocker documented _ _).mono ?_)
  rintro docker refs ⟨rfl, canBuild⟩
  rw [canBuild]
  refine Works.bind ((works_createBuilder documented place _).mono ?_)
  rintro ready refs ⟨rfl, rfl⟩
  unfold buildWith
  rw [unforced]
  refine Works.bind ((works_buildVariants documented (fun _ => id) push stageable apart []).mono ?_)
  rintro ⟨results, failure⟩ after ⟨rfl, completes⟩
  refine Works.bind ((works_removeBuilder documented _).mono ?_)
  rintro _ after rfl
  exact works_pure ⟨rfl, completes⟩

/-! ### The publish job -/

/-- Each final reference names what its staging reference names; nothing else is touched. -/
structure Published (state : State) (before after : Refs) : Prop where
  final : ∀ build ∈ state.builds, ∀ image ∈ build.images, ∀ tag, StagedAs state build tag →
    ∀ ref ∈ image.tags, after ref = before (image.base ++ ":" ++ tag)
  kept : ∀ ref, (∀ build ∈ state.builds, ¬ FinalOf build ref) → after ref = before ref

/-- Nothing is missing of what is staged. -/
theorem works_askMissing (documented : cli.Documented) {plan : List Promotion}
    (staged : ∀ entry ∈ plan, (refs entry.source).isSome) :
    Works cli state (askMissing plan) refs fun missing after => after = refs ∧ missing = [] := by
  induction plan generalizing refs with
  | nil => exact works_pure ⟨rfl, rfl⟩
  | cons entry rest ih =>
      obtain ⟨here, others⟩ := List.forall_mem_cons.mp staged
      refine Works.bind ((works_refExists documented entry.source).mono ?_)
      rintro found refs ⟨rfl, exact_⟩
      obtain rfl := exact_.mpr here
      refine Works.bind ((ih others).mono ?_)
      rintro missing refs ⟨rfl, rfl⟩
      exact works_pure ⟨rfl, rfl⟩

/-- No promotion writes what another one reads, and those that share a target have one source. -/
structure Independent (plan : List Promotion) : Prop where
  apart : ∀ entry ∈ plan, ∀ other ∈ plan, entry.source ∉ other.tags
  agree : ∀ entry ∈ plan, ∀ other ∈ plan, ∀ ref ∈ entry.tags, ref ∈ other.tags →
    entry.source = other.source

/-- The promotions of independent entries, one after the other. -/
theorem works_promoteAll (documented : cli.Documented) (planned : Planned engine state)
    {plan : List Promotion} (plans : publishPlan state = .ok plan) (independent : Independent plan)
    {workDir : String} {rest : List Promotion} (within : ∀ entry ∈ rest, entry ∈ plan)
    (promoted : List Promotion) (results : List PublishResult)
    (staged : ∀ entry ∈ plan, (refs entry.source).isSome) :
    Works cli state (promoteAll workDir rest promoted results) refs fun outcome after =>
      outcome.exitCode = 0 ∧
        (∀ entry ∈ rest, ∀ ref ∈ entry.tags, after ref = refs entry.source) ∧
        ∀ ref, (∀ entry ∈ rest, ref ∉ entry.tags) → after ref = refs ref := by
  induction rest generalizing promoted results refs with
  | nil => exact works_pure ⟨rfl, by rintro _ ⟨⟩, fun _ _ => rfl⟩
  | cons entry rest ih =>
      obtain ⟨known, others⟩ := List.forall_mem_cons.mp within
      refine Works.bind (works_start (.promote plans known (staged entry known)) ?_)
      · rintro exit middle ⟨served, succeeds⟩
        have status : exit.status = some 0 := succeeds.resolve_right (by
          rintro ⟨ref, same, _⟩
          have third := congrArg (fun args => args.getD 2 "") (Spawn.mk.inj same).2
          exact absurd third (by simp [promotionArgv, inspectArgv]))
        have leaves := documented.promotion_leaves (source_plain planned plans known) served
        rw [if_neg (not_not.mpr (Exit.code_eq_zero.mpr status))]
        have source : ∀ other ∈ plan, middle other.source = refs other.source :=
          fun other member => leaves.frame (independent.apart other member entry known)
        have still : ∀ other ∈ plan, (middle other.source).isSome := fun other member => by
          rw [source other member]
          exact staged other member
        refine (ih others _ _ still).mono ?_
        rintro outcome after ⟨done, given, kept⟩
        refine ⟨done, ?_, ?_⟩
        · refine List.forall_mem_cons.mpr ⟨fun ref target => ?_, fun other member ref target => ?_⟩
          · -- A later promotion of the same target copies from the same source.
            by_cases again : ∃ other ∈ rest, ref ∈ other.tags
            · obtain ⟨other, member, targets⟩ := again
              rw [given other member ref targets, source other (others other member),
                independent.agree entry known other (others other member) ref target targets]
            · rw [kept ref fun other member targets => again ⟨other, member, targets⟩]
              exact (leaves.target status target).2
          · rw [given other member ref target, source other (others other member)]
        · intro ref quiet
          obtain ⟨first, later⟩ := List.forall_mem_cons.mp quiet
          rw [kept ref later]
          exact leaves.frame first

/-- The plan of a release: its final tags are apart, and none of them is a staging tag. -/
theorem Planned.independent (planned : Planned engine state) (spares : SparesStaging state)
    {plan : List Promotion} (plans : publishPlan state = .ok plan) : Independent plan := by
  constructor
  · intro entry member other alsoMember inside
    obtain ⟨build, known, image, listed, tag, staged, rfl⟩ := (mem_publishPlan_iff plans).mp member
    obtain ⟨built, alsoKnown, shown, isShown, _, _, rfl⟩ :=
      (mem_publishPlan_iff plans).mp alsoMember
    exact final_not_staging planned spares planned alsoKnown known ⟨shown, isShown, inside⟩
      ⟨tag, staged, image, listed, rfl⟩
  · intro entry member other alsoMember ref named alsoNamed
    obtain ⟨build, known, image, listed, tag, staged, rfl⟩ := (mem_publishPlan_iff plans).mp member
    obtain ⟨built, alsoKnown, shown, isShown, otherTag, alsoStaged, rfl⟩ :=
      (mem_publishPlan_iff plans).mp alsoMember
    rw [(planned.image known listed).2] at named
    rw [(planned.image alsoKnown isShown).2] at alsoNamed
    obtain ⟨name, hasName, rfl⟩ := List.mem_map.mp named
    obtain ⟨_, alsoHas, same⟩ := List.mem_map.mp alsoNamed
    obtain ⟨_, _, _, legal, _⟩ := planned.build_ok known
    obtain ⟨_, _, _, alsoLegal, _⟩ := planned.build_ok alsoKnown
    obtain ⟨base, rfl⟩ := reference_injective (alsoLegal _ alsoHas) (legal name hasName) same
    -- One build has the tag, and so the reference has one source.
    have one : build = built := by
      by_contra different
      have symmetric : Std.Symm fun first second : Build =>
          ∀ name ∈ first.tagNames, name ∉ second.tagNames :=
        ⟨fun _ _ apart name second first => apart name first second⟩
      exact planned.tagsDisjoint.forall known alsoKnown different _ hasName alsoHas
    subst one
    obtain rfl : tag = otherTag := Except.ok.inj (staged.symm.trans alsoStaged)
    rw [base]

/-- A release that can be staged has a plan to publish. -/
theorem exists_publishPlan (stageable : Stageable state) :
    ∃ plan, publishPlan state = .ok plan := by
  have each : ∀ build ∈ state.builds, ∃ entries, buildPromotions state build = .ok entries := by
    intro build member
    obtain ⟨tag, named⟩ := stageable build member
    have staged := stagingRefsFor_ok_iff.mpr ⟨tag, named, rfl⟩
    exact ⟨_, bind_ok_iff.2 ⟨_, staged, rfl⟩⟩
  obtain ⟨entries, mapped⟩ := exists_mapM each
  exact ⟨_, bind_ok_iff.2 ⟨entries, mapped, rfl⟩⟩

/-- The publish job of a release that is staged goes through. -/
theorem works_publishJob (documented : cli.Documented) (planned : Planned engine state)
    (spares : SparesStaging state)
    (stageable : Stageable state) (wet : state.dryRun = false) (some_ : state.images ≠ [])
    (workDir : String) (staged : AllStaged state refs) :
    Works cli state (publishJob workDir state) refs fun outcome after =>
      outcome.exitCode = 0 ∧ Published state refs after := by
  obtain ⟨plan, plans⟩ := exists_publishPlan stageable
  have full : plan ≠ [] := by
    obtain ⟨build, known⟩ := List.exists_mem_of_ne_nil _ planned.builds_ne_nil
    obtain ⟨tag, named⟩ := stageable build known
    obtain ⟨_, _, _, _, _, images⟩ := planned.build_ok known
    have shown : build.images ≠ [] := by
      rw [images]
      exact List.map_eq_nil_iff.not.mpr some_
    obtain ⟨image, listed⟩ := List.exists_mem_of_ne_nil _ shown
    exact List.ne_nil_of_mem
      ((mem_publishPlan_iff plans).mpr ⟨build, known, image, listed, tag, named, rfl⟩)
  have sources : ∀ entry ∈ plan, (refs entry.source).isSome := by
    intro entry member
    obtain ⟨build, known, image, listed, tag, named, rfl⟩ := (mem_publishPlan_iff plans).mp member
    exact staged build known _ ⟨tag, named, image, listed, rfl⟩
  unfold publishJob
  rw [plans]
  dsimp only
  rw [if_neg full, wet, if_neg Bool.false_ne_true]
  refine Works.bind ((works_askMissing documented sources).mono ?_)
  rintro missing refs ⟨rfl, rfl⟩
  rw [if_neg (not_not.mpr rfl)]
  refine (works_promoteAll documented planned plans (planned.independent spares plans)
    (fun _ => id) [] [] sources).mono ?_
  rintro outcome after ⟨done, given, kept⟩
  refine ⟨done, fun build known image listed tag named ref target => ?_, fun ref other => ?_⟩
  · exact given _ ((mem_publishPlan_iff plans).mpr ⟨build, known, image, listed, tag, named, rfl⟩)
      ref target
  · refine kept ref fun entry member target => ?_
    obtain ⟨build, known, image, listed, _, _, rfl⟩ := (mem_publishPlan_iff plans).mp member
    exact other build known ⟨image, listed, target⟩

/-! ### Rounds of the workflow -/

/-- The build job, and the publish job once it went through; the exit code of the last one. -/
def round (engine : Engine) (place : Workplace) (workDir : String) (state : State) : Job Nat := do
  let built ← buildPush engine place state
  if built.exitCode ≠ 0 then return built.exitCode
  let published ← publishJob workDir state
  return published.exitCode

/-- A release that can be published, and is not a dry run. -/
structure Publishable (engine : Engine) (state : State) : Prop where
  planned : Planned engine state
  spares : SparesStaging state
  stageable : Stageable state
  wet : state.dryRun = false
  images : state.images ≠ []

/-- What a round leaves: the final references name what is staged, what was staged before was not
built again, what was not is one image under all bases, and nothing else is touched. -/
structure Released (state : State) (before after : Refs) : Prop where
  final : ∀ build ∈ state.builds, ∀ image ∈ build.images, ∀ tag, StagedAs state build tag →
    ∀ ref ∈ image.tags, (after ref).isSome ∧ after ref = after (image.base ++ ":" ++ tag)
  reused : ∀ build ∈ state.builds, Staged state build before →
    ∀ ref, StagingOf state build ref → after ref = before ref
  built : ∀ build ∈ state.builds, ¬ Staged state build before →
    ∃ artifact, ∀ ref, StagingOf state build ref → after ref = some artifact
  kept : ∀ ref, (∀ build ∈ state.builds, ¬ StagingOf state build ref ∧ ¬ FinalOf build ref) →
    after ref = before ref

/-- A round of both jobs ends with all that is asked. -/
theorem works_round (documented : cli.Documented) (able : Publishable engine state)
    {place : Workplace} (workDir : String)
    (unforced : isTruthy engine (place.env.read "DOCKER_FORCE_BUILD") = false) :
    Works cli state (round engine place workDir state) refs fun code after =>
      code = 0 ∧ ∃ middle, Completes state state.builds refs middle ∧
        Published state middle after := by
  have push : (optionsOf state).push = true := by rw [able.planned.push, able.wet]; rfl
  refine Works.bind
    ((works_buildPush documented able.planned.builds_ne_nil push able.stageable able.planned.stagedApart
      unforced).mono ?_)
  rintro built middle ⟨code, completes⟩
  rw [code, if_neg (not_not.mpr rfl)]
  refine Works.bind ((works_publishJob documented able.planned able.spares able.stageable able.wet
    able.images workDir completes.staged).mono ?_)
  rintro published after ⟨done, finals⟩
  exact works_pure ⟨done, middle, completes, finals⟩

section Rounds

variable {before middle after later again : Refs}

/-- A promotion leaves the staging references alone. -/
theorem Published.staging (able : Publishable engine state) (published : Published state middle after)
    {build : Build} (member : build ∈ state.builds) {ref : String}
    (staging : StagingOf state build ref) : after ref = middle ref :=
  published.kept ref fun _ known final =>
    final_not_staging able.planned able.spares able.planned known member final staging

/-- A release that is staged and published is released. -/
theorem Released.of_parts (able : Publishable engine state)
    (completes : Completes state state.builds before middle)
    (published : Published state middle after) : Released state before after := by
  refine ⟨fun build member image listed tag named ref target => ?_,
    fun build member staged ref own => ?_, fun build member missing => ?_, fun ref other => ?_⟩
  · have source : StagingOf state build (image.base ++ ":" ++ tag) :=
      ⟨tag, named, image, listed, rfl⟩
    have given := published.final build member image listed tag named ref target
    rw [published.staging able member source, given]
    exact ⟨completes.staged build member _ source, rfl⟩
  · rw [published.staging able member own]
    refine completes.kept ref fun other known also => ?_
    have variant := staging_same_variant able.planned able.planned member known rfl rfl own also
    rwa [← List.inj_on_of_nodup_map able.planned.distinct member known variant]
  · obtain ⟨artifact, one⟩ := completes.built build member missing
    exact ⟨artifact, fun ref own => (published.staging able member own).trans (one ref own)⟩
  · rw [published.kept ref fun build known => (other build known).2,
      completes.kept ref fun build known staging => absurd staging (other build known).1]

/-- After a round there is nothing left to do. -/
theorem Released.unchanged (able : Publishable engine state) (released : Released state before after)
    (completes : Completes state state.builds after later)
    (published : Published state later again)
    (staged : ∀ build ∈ state.builds, Staged state build after) : again = after := by
  have same : later = after :=
    funext fun ref => completes.kept ref fun build member _ => staged build member
  subst same
  funext ref
  by_cases final : ∃ build ∈ state.builds, FinalOf build ref
  · obtain ⟨build, member, image, listed, target⟩ := final
    obtain ⟨tag, named⟩ := able.stageable build member
    rw [published.final build member image listed tag named ref target]
    exact (released.final build member image listed tag named ref target).2.symm
  · exact published.kept ref fun build member is => final ⟨build, member, is⟩

end Rounds

/-- A runner with the environment of the small release. -/
def smallPlace : Workplace where
  env := smallEnv

/-- The small release can be published. -/
theorem publishable_smallRelease : Publishable plainEngine smallRelease where
  planned := planned_smallRelease
  spares := sparesStaging_smallRelease
  stageable := by
    have legal : ∀ build ∈ smallRelease.builds,
        (stagingTagName smallRelease.version smallRelease.shortSha build.variant).isOk = true := by
      decide
    exact fun build member => exists_ok (legal build member)
  wet := rfl
  images := List.cons_ne_nil _ _

/-- Whatever the registries hold, a round in which docker does not fail can be run to its end, where
docker can serve it; each such round completes the release, and any further one changes nothing. -/
theorem rerun_completes (documented : cli.Documented) (able : Publishable engine state)
    {place : Workplace} {workDir : String}
    (unforced : isTruthy engine (place.env.read "DOCKER_FORCE_BUILD") = false) (before : Refs) :
    ((∀ refs spawn, Servable state refs spawn → ∃ exit after, cli.working refs spawn exit after) →
      ∃ code after, (round engine place workDir state).Runs cli.working before code after) ∧
      ∀ code after, (round engine place workDir state).Runs cli.working before code after →
        code = 0 ∧ Released state before after ∧
          ∀ otherPlace otherDir, isTruthy engine (otherPlace.env.read "DOCKER_FORCE_BUILD") = false →
            ∀ result again,
              (round engine otherPlace otherDir state).Runs cli.working after result again →
                result = 0 ∧ again = after := by
  have first : Works cli state (round engine place workDir state) before fun code after =>
      code = 0 ∧ ∃ middle, Completes state state.builds before middle ∧
        Published state middle after := works_round documented able workDir unforced
  constructor
  · intro available
    obtain ⟨code, after, runs, _⟩ := first.safe.exists_run available
    exact ⟨code, after, runs⟩
  · intro code after runs
    obtain ⟨done, middle, completes, published⟩ := runs.meets first.safe
    have released := Released.of_parts able completes published
    refine ⟨done, released, fun otherPlace otherDir quiet result again more => ?_⟩
    have second : Works cli state (round engine otherPlace otherDir state) after fun code again =>
        code = 0 ∧ ∃ middle, Completes state state.builds after middle ∧
          Published state middle again := works_round documented able otherDir quiet
    obtain ⟨alsoDone, later, alsoCompletes, alsoPublished⟩ := more.meets second.safe
    refine ⟨alsoDone, released.unchanged able alsoCompletes alsoPublished fun build member ref own => ?_⟩
    rw [published.staging able member own]
    exact completes.staged build member ref own

/-! ### The small release -/

/-- The plain docker serves what there is something to give for. -/
theorem plainCli_answers {spawn : Spawn} (given : (plainEffect spawn 0).targets ≠ [] →
      ((plainEffect spawn 0).content refs).isSome) :
    ∃ exit after, plainCli.working refs spawn exit after := by
  by_cases missing : ∃ ref, spawn = ⟨"docker", inspectArgv ref⟩ ∧ refs ref = none
  · obtain ⟨ref, rfl, absent⟩ := missing
    refine ⟨{ status := some 1 }, refs, ⟨⟨0, ?_⟩, fun _ _ failed => ?_⟩, .inr ⟨ref, rfl, absent⟩⟩
    · rw [plainEffect_quiet (.inspect ref)]
      exact Effect.leaves_idle
    · cases failed
  · refine ⟨{ status := some 0 }, _, ⟨⟨0, Effect.leaves_assign given⟩, ?_⟩, .inl rfl⟩
    intro ref same _
    rw [← Option.isNone_eq_false_iff, ← Bool.not_eq_true, Option.isNone_iff_eq_none]
    exact fun absent => missing ⟨ref, same, absent⟩

/-- So it serves all that a round of a planned release asks for. -/
theorem plainCli_available (planned : Planned engine state) (refs : Refs) (spawn : Spawn)
    (servable : Servable state refs spawn) :
    ∃ exit after, plainCli.working refs spawn exit after := by
  refine plainCli_answers ?_
  cases servable with
  | quiet quiet =>
      rw [plainEffect_quiet quiet]
      exact fun some_ => absurd rfl some_
  | @build build staging argv member builds =>
      obtain ⟨_, metadataFile, builder, env, rfl⟩ := builds
      have reads := @reader_buildxArgv build (optionsOf state) metadataFile builder (some staging) env
        _ (plainCli_documented.options .build)
      have start : (buildxArgv build (optionsOf state) metadataFile builder (some staging) env).take
          2 = Writer.build.words := rfl
      have here : read Writer.build.switches _ = _ := reads
      unfold plainEffect
      simp only [start, here, ne_eq, not_true_eq_false, if_false, if_true]
      split
      · exact fun _ => rfl
      · exact fun some_ => absurd rfl some_
  | @promote plan entry metadataFile plans member staged =>
      have reads := @reader_promotionArgv metadataFile entry _
        (plainCli_documented.options .create) (source_plain planned plans member)
      have build : (promotionArgv entry metadataFile).take 2 ≠ Writer.build.words := by
        simp [promotionArgv, Writer.words]
      have create : (promotionArgv entry metadataFile).take 3 = Writer.create.words := by
        simp [promotionArgv, Writer.words]
      have here : read Writer.create.switches _ = _ := reads
      unfold plainEffect
      simp only [build, create, here, ne_eq, not_true_eq_false, if_false, if_true]
      exact fun _ => staged

/-- A round of the small release from empty registries, and one more. -/
theorem rerun_completes_smallRelease :
    (∃ code after, (round plainEngine smallPlace "/tmp" smallRelease).Runs plainCli.working
      (fun _ => none) code after) ∧
      ∀ code after, (round plainEngine smallPlace "/tmp" smallRelease).Runs plainCli.working
        (fun _ => none) code after → code = 0 ∧ Released smallRelease (fun _ => none) after ∧
          ∀ result again, (round plainEngine smallPlace "/other" smallRelease).Runs plainCli.working
            after result again → result = 0 ∧ again = after := by
  have unforced : isTruthy plainEngine (smallPlace.env.read "DOCKER_FORCE_BUILD") = false := by
    decide
  obtain ⟨runs, completes⟩ := @rerun_completes plainCli plainEngine smallRelease plainCli_documented
    publishable_smallRelease smallPlace "/tmp" unforced fun _ => none
  refine ⟨runs (plainCli_available planned_smallRelease), fun code after done => ?_⟩
  obtain ⟨ends, released, further⟩ := completes code after done
  exact ⟨ends, released, further smallPlace "/other" unforced⟩

end MessagePusher.Release
