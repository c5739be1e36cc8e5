import MessagePusher.Release.Recovery

/-!
# Releases over one registry

Build and publish jobs of any number of releases, which interleave at each command, fail at any
command and may be gone at any time. In every run a final reference names what it named before or an
image that was built under the staging reference it was promoted from (`final_reference_origin`),
and nothing but a promotion changes it, when all variants of the release are staged
(`changes_when_complete`).
-/

namespace MessagePusher.Release

open CommandLine Scripts Semantics Store

/-- A job of a workflow run: the build step or the publish step of a release. -/
inductive ReleaseJob where
  | build (place : Workplace) (state : State)
  | publish (workDir : String) (state : State)

namespace ReleaseJob

def state : ReleaseJob → State
  | .build _ state => state
  | .publish _ state => state

/-- The step, with the exit code that it ends with. -/
def script (engine : Engine) : ReleaseJob → Job Nat
  | .build place state => do
      let outcome ← buildPush engine place state
      return outcome.exitCode
  | .publish workDir state => do
      let outcome ← publishJob workDir state
      return outcome.exitCode

/-- What a job may start. -/
def Allows : ReleaseJob → Spawn → Prop
  | .build _ state => BuildAsks state
  | .publish _ state => PublishAsks state

theorem asks_script (engine : Engine) (job : ReleaseJob) : (job.script engine).Asks job.Allows := by
  cases job with
  | build place state => exact (asks_buildPush engine place state).bind fun _ => trivial
  | publish workDir state => exact (asks_publishJob workDir state).bind fun _ => trivial

end ReleaseJob

/-- The jobs at work on registries that hold `start` in the beginning. -/
def pipeline (cli : Cli) (engine : Engine) (jobs : Nat → ReleaseJob) (start : Refs) :
    System (Pool Refs Nat Spawn Exit Nat) (PoolLabel Nat Spawn Exit) :=
  pool cli.serves (fun name => (jobs name).script engine) (fun _ => True) (· = start)

/-- The jobs are those of planned releases, and no tag is called after the staging tags. -/
structure Releases (engine : Engine) (jobs : Nat → ReleaseJob) : Prop where
  planned : ∀ name, Planned engine (jobs name).state
  spares : ∀ name, SparesStaging (jobs name).state

variable {cli : Cli} {engine : Engine} {jobs : Nat → ReleaseJob} {start refs after : Refs}
  {spawn : Spawn} {exit : Exit}

/-! ### Where images are from -/

/-- The image was there in the beginning, or a build of the release pushed it to the reference. -/
def Made (jobs : Nat → ReleaseJob) (start : Refs) (ref : String) (artifact : Artifact) : Prop :=
  start ref = some artifact ∨ ∃ name, ∃ build ∈ (jobs name).state.builds, ∃ staging,
    BuildsFor (jobs name).state build staging artifact.argv ∧
      StagingOf (jobs name).state build ref

/-- The plan of some job promotes one reference to the other. -/
def Feeds (jobs : Nat → ReleaseJob) (source target : String) : Prop :=
  ∃ name, ∃ build ∈ (jobs name).state.builds, StagingOf (jobs name).state build source ∧
    FinalOf build target

/-- What a job does keeps track of where images are from. -/
theorem Releases.traced (documented : cli.Documented) (releases : Releases engine jobs) {name : Nat}
    (traced : Traced (Made jobs start) (Feeds jobs) refs) (allowed : (jobs name).Allows spawn)
    (served : cli.serves refs spawn exit after) :
    Traced (Made jobs start) (Feeds jobs) after := by
  have planned := releases.planned name
  cases job : jobs name with
  | build place state =>
      have here : (jobs name).state = state := by rw [job]; rfl
      rw [job] at allowed
      rcases BuildAsks.leaves documented allowed served with
        rfl | ⟨build, member, staging, serial, builds, _, _, leaves⟩
      · exact traced
      · have pushed : (Effect.fresh (staging.map StagingRef.ref)
            (Artifact.mk spawn.args serial)).Respects (Made jobs start) (Feeds jobs) :=
          fun ref inside => .inr ⟨name, build, here ▸ member, staging, here ▸ builds,
            here ▸ (mem_staging_iff builds.1).mp inside⟩
        exact traced.leaves pushed leaves
  | publish workDir state =>
      have here : (jobs name).state = state := by rw [job]; rfl
      rw [job] at allowed
      rw [here] at planned
      rcases PublishAsks.leaves documented planned allowed served with
        rfl | ⟨plan, plans, entry, member, _, _, leaves⟩
      · exact traced
      · obtain ⟨build, known, image, listed, tag, staged, rfl⟩ :=
          (mem_publishPlan_iff plans).mp member
        have source : StagingOf state build (image.base ++ ":" ++ tag) :=
          ⟨tag, staged, image, listed, rfl⟩
        have fed : ∀ target ∈ image.tags, Feeds jobs (image.base ++ ":" ++ tag) target :=
          fun target named => ⟨name, build, here ▸ known, here ▸ source, image, listed, named⟩
        have unfed : ∀ key, ¬ Feeds jobs key (image.base ++ ":" ++ tag) := by
          rintro key ⟨other, built, alsoKnown, _, final⟩
          exact final_not_staging (releases.planned other) (releases.spares other) planned
            alsoKnown known final source
        have copied : (Effect.copy (image.base ++ ":" ++ tag) image.tags).Respects
            (Made jobs start) (Feeds jobs) := ⟨fed, unfed⟩
        exact traced.leaves copied leaves

/-- In every run what a reference names was made for it, or for one that feeds it. -/
theorem pipeline_traced (documented : cli.Documented) (releases : Releases engine jobs)
    {current : Pool Refs Nat Spawn Exit Nat}
    (reachable : (pipeline cli engine jobs start).Reachable current) :
    Traced (Made jobs start) (Feeds jobs) current.world := by
  have rules : PoolRules cli.serves (fun name => (jobs name).script engine) (fun _ => True)
      (Traced (Made jobs start) (Feeds jobs)) (fun _ _ _ => True)
      (fun name _ spawn => (jobs name).Allows spawn) (fun _ _ _ => True) := {
    refl := fun _ _ => trivial
    trans := fun _ _ _ _ _ _ => trivial
    safe := fun name world _ _ => (ReleaseJob.asks_script engine (jobs name)).safe world
    keeps := fun name _ _ _ _ _ traced allowed answered =>
      releases.traced documented traced allowed answered
    respects := by
      intros
      trivial }
  refine (pool_safe rules ?_ reachable).1
  rintro world rfl key value holds
  exact .inl (.inl holds)

/-- A final reference names what it named in the beginning, or what its staging reference was
given: by a build that is staged there, and that is of the same variant where version and commit
are the same. -/
theorem final_reference_origin (documented : cli.Documented) (releases : Releases engine jobs)
    {current : Pool Refs Nat Spawn Exit Nat}
    (reachable : (pipeline cli engine jobs start).Reachable current) {name : Nat} {build : Build}
    (member : build ∈ (jobs name).state.builds) {ref : String} (final : FinalOf build ref)
    {artifact : Artifact} (holds : current.world ref = some artifact) :
    start ref = some artifact ∨
      ∃ owner, ∃ owning ∈ (jobs owner).state.builds, FinalOf owning ref ∧
        ∃ source, StagingOf (jobs owner).state owning source ∧
          (start source = some artifact ∨
            ∃ maker, ∃ built ∈ (jobs maker).state.builds, ∃ staging,
              StagingOf (jobs maker).state built source ∧
              BuildsFor (jobs maker).state built staging artifact.argv ∧
              ((jobs maker).state.version = (jobs owner).state.version →
                (jobs maker).state.shortSha = (jobs owner).state.shortSha →
                  built.variant = owning.variant)) := by
  rcases pipeline_traced documented releases reachable ref artifact holds with own | ⟨source, fed, made⟩
  · rcases own with before | ⟨maker, built, known, staging, _, staged⟩
    · exact .inl before
    · exact absurd staged (final_not_staging (releases.planned name) (releases.spares name)
        (releases.planned maker) member known final)
  · obtain ⟨owner, owning, listed, staged, also⟩ := fed
    refine .inr ⟨owner, owning, listed, also, source, staged, made.imp_right ?_⟩
    rintro ⟨maker, built, known, staging, builds, stagedHere⟩
    exact ⟨maker, built, known, staging, stagedHere, builds, fun version sha =>
      staging_same_variant (releases.planned maker) (releases.planned owner) known listed version
        sha stagedHere staged⟩

/-! ### The jobs of the small release -/

/-- The build under the name 0, the publication under all others. -/
def smallJobs (name : Nat) : ReleaseJob :=
  if name = 0 then .build smallPlace smallRelease else .publish "/tmp" smallRelease

theorem state_smallJobs (name : Nat) : (smallJobs name).state = smallRelease := by
  unfold smallJobs
  split <;> rfl

theorem releases_smallJobs : Releases plainEngine smallJobs :=
  ⟨fun name => state_smallJobs name ▸ planned_smallRelease,
    fun name => state_smallJobs name ▸ sparesStaging_smallRelease⟩

/-- The build can be run to its end. -/
theorem exists_built (refs : Refs) : ∃ code after,
    ((smallJobs 0).script plainEngine).Runs plainCli.serves refs code after ∧
      AllStaged smallRelease after := by
  have works : Works plainCli smallRelease ((smallJobs 0).script plainEngine) refs fun _ after =>
      AllStaged smallRelease after :=
    Works.bind ((works_buildPush plainCli_documented (List.cons_ne_nil _ _) (by decide)
      publishable_smallRelease.stageable planned_smallRelease.stagedApart (by decide)).mono
        fun _ _ both => works_pure both.2.staged)
  obtain ⟨code, after, runs, staged⟩ := works.safe.exists_run
    (plainCli_available planned_smallRelease)
  exact ⟨code, after, runs.mono fun _ _ _ _ => And.left, staged⟩

/-- So can the publication, and then there is the tag `x`. -/
theorem exists_published {refs : Refs} (staged : AllStaged smallRelease refs) : ∃ code after,
    ((smallJobs 1).script plainEngine).Runs plainCli.serves refs code after ∧
      ∃ artifact, after "ghcr.io/o/r:x" = some artifact := by
  have able := publishable_smallRelease
  have works : Works plainCli smallRelease ((smallJobs 1).script plainEngine) refs fun _ after =>
      Published smallRelease refs after :=
    Works.bind ((works_publishJob plainCli_documented able.planned able.spares able.stageable
      able.wet able.images "/tmp" staged).mono fun _ _ both => works_pure both.2)
  obtain ⟨code, after, runs, published⟩ := works.safe.exists_run
    (plainCli_available planned_smallRelease)
  let build := smallBuild "b" true ["x", "x-b", "b"]
  have member : build ∈ smallRelease.builds := by decide
  obtain ⟨tag, named⟩ := able.stageable build member
  have given := published.final build member _ List.mem_cons_self tag named "ghcr.io/o/r:x"
    (by decide)
  have source := staged build member _ ⟨tag, named, _, List.mem_cons_self, rfl⟩
  rw [← given] at source
  exact ⟨code, after, runs.mono fun _ _ _ _ => And.left, Option.isSome_iff_exists.mp source⟩

/-- The tag `x` of the small release names what its build pushed. -/
theorem final_reference_origin_smallJobs :
    ∃ current, (pipeline plainCli plainEngine smallJobs fun _ => none).Reachable current ∧
      ∃ artifact, current.world "ghcr.io/o/r:x" = some artifact ∧
        ∃ owner, ∃ owning ∈ (smallJobs owner).state.builds, FinalOf owning "ghcr.io/o/r:x" ∧
          ∃ source, StagingOf (smallJobs owner).state owning source ∧
            ∃ maker, ∃ built ∈ (smallJobs maker).state.builds, ∃ staging,
              StagingOf (smallJobs maker).state built source ∧
              BuildsFor (smallJobs maker).state built staging artifact.argv ∧
                built.variant = owning.variant := by
  let empty : Pool Refs Nat Spawn Exit Nat := ⟨fun _ => none, fun _ => none⟩
  have initial : (pipeline plainCli plainEngine smallJobs fun _ => none).Reachable empty :=
    .initial ⟨rfl, fun _ => rfl⟩
  obtain ⟨_, _, built, staged⟩ := exists_built empty.world
  obtain ⟨middle, reached, rfl, others⟩ := exists_finished initial trivial rfl built
  obtain ⟨_, _, published, artifact, holds⟩ := exists_published staged
  have waiting : middle.jobs 1 = none := others 1 (by decide)
  obtain ⟨current, reachable, rfl, _⟩ := exists_finished reached trivial waiting published
  refine ⟨current, reachable, artifact, holds, ?_⟩
  have origin := final_reference_origin plainCli_documented releases_smallJobs reachable
    (by decide : smallBuild "b" true ["x", "x-b", "b"] ∈ (smallJobs 1).state.builds)
    ⟨_, List.mem_cons_self, by decide⟩ holds
  obtain ⟨owner, owning, member, final, source, staging, given⟩ :=
    origin.resolve_left fun before => Option.some_ne_none artifact before.symm
  obtain ⟨maker, made, known, refs, staged, builds, variant⟩ :=
    given.resolve_left fun before => Option.some_ne_none artifact before.symm
  refine ⟨owner, owning, member, final, source, staging, maker, made, known, refs, staged, builds, ?_⟩
  have state : ∀ name, (smallJobs name).state = smallRelease := state_smallJobs
  exact variant (by rw [state, state]) (by rw [state, state])

/-! ### When a final reference changes -/

theorem safe_refExists (documented : cli.Documented) (ref : String) (refs : Refs) :
    (refExists ref).Safe cli.serves Grows (fun _ => Quiet)
      (fun found refs => found = true → (refs ref).isSome) refs := by
  intro now _
  refine ⟨.inspect ref, fun exit next served => ?_⟩
  intro later grows found
  have status : exit.status = some 0 := Exit.code_eq_zero.mp (of_decide_eq_true found)
  have full := documented.inspect served status
  rw [← documented.quiet (.inspect ref) served] at full
  exact grows ref full

/-- What is not missing is there, and stays. -/
theorem safe_askMissing (documented : cli.Documented) (plan : List Promotion) (refs : Refs) :
    (askMissing plan).Safe cli.serves Grows (fun _ => Quiet)
      (fun missing refs => missing = [] → ∀ entry ∈ plan, (refs entry.source).isSome) refs := by
  induction plan generalizing refs with
  | nil =>
      rintro now _ _ entry ⟨⟩
  | cons entry rest ih =>
      have first := safe_refExists documented entry.source refs
      refine (first.mono (fun _ _ => id) fun found after here => ?_).bind fun _ _ => id
      cases found with
      | false =>
          refine ((ih after).mono (fun _ _ => id) fun missing last others => ?_).bind fun _ _ => id
          rintro now _ ⟨⟩
      | true =>
          have kept := (ih after).keep (here rfl) (fun _ _ full grows => grows entry.source full)
            fun _ _ _ _ full quiet served => by rwa [documented.quiet quiet served]
          refine (kept.mono (fun _ _ => id) fun missing last both => ?_).bind fun _ _ => id
          intro now grows none_
          exact List.forall_mem_cons.mpr ⟨grows _ both.2, fun other member =>
            grows _ (both.1 none_ other member)⟩

/-- Once all is staged, each promotion finds it so. -/
theorem safe_promoteAll (documented : cli.Documented) {state : State}
    (planned : Planned engine state) {plan : List Promotion} (plans : publishPlan state = .ok plan)
    (workDir : String) {rest : List Promotion} (within : ∀ entry ∈ rest, entry ∈ plan)
    (promoted : List Promotion) (results : List PublishResult) {refs : Refs}
    (staged : AllStaged state refs) :
    (promoteAll workDir rest promoted results).Safe cli.serves Grows
      (fun refs _ => AllStaged state refs) (fun _ _ => True) refs := by
  induction rest generalizing promoted results refs with
  | nil => exact fun _ _ => trivial
  | cons entry rest ih =>
      obtain ⟨known, others⟩ := List.forall_mem_cons.mp within
      intro now grows
      have still := staged.grows grows
      refine ⟨still, fun exit next served => ?_⟩
      have leaves := documented.promotion_leaves (source_plain planned plans known) served
      show Process.Safe _ _ _ _ (if exit.code ≠ 0 then _ else _) next
      split
      · exact fun _ _ => trivial
      · exact ih others _ _ (still.grows (.of_leaves leaves))

/-- A publish job starts a promotion only when all of its release is staged. -/
theorem safe_publishJob (documented : cli.Documented) (workDir : String) {state : State}
    (planned : Planned engine state) (refs : Refs) :
    (publishJob workDir state).Safe cli.serves Grows
      (fun refs spawn => Quiet spawn ∨ AllStaged state refs) (fun _ _ => True) refs := by
  unfold publishJob
  split
  · exact fun _ _ => trivial
  · next plan plans =>
    split
    · exact fun _ _ => trivial
    · split
      · exact fun _ _ => trivial
      · refine ((safe_askMissing documented plan refs).mono (fun _ _ => .inl)
          fun missing after found => ?_).bind fun _ _ => id
        split
        · exact fun _ _ => trivial
        · next complete =>
          have staged : AllStaged state after := by
            rintro build member _ ⟨tag, named, image, listed, rfl⟩
            exact found (not_not.mp complete) _
              ((mem_publishPlan_iff plans).mpr ⟨build, member, image, listed, tag, named, rfl⟩)
          exact (safe_promoteAll documented planned plans workDir (fun _ => id) [] []
            staged).mono (fun _ _ => .inr) fun _ _ => id

namespace ReleaseJob

/-- What a job starts over given registries. -/
def Permits (job : ReleaseJob) (refs : Refs) (spawn : Spawn) : Prop :=
  (∀ workDir state, job = .publish workDir state → Quiet spawn ∨ AllStaged state refs) ∧
    job.Allows spawn

theorem safe_script (documented : cli.Documented) (job : ReleaseJob)
    (planned : Planned engine job.state) (refs : Refs) :
    (job.script engine).Safe cli.serves Grows job.Permits (fun _ _ => True) refs := by
  refine Process.Safe.and_asks ?_ (job.asks_script engine)
  cases job with
  | build place state =>
      exact ((asks_script engine (.build place state)).safe refs).mono
        (by rintro _ _ _ _ _ ⟨⟩) fun _ _ => id
  | publish workDir state =>
      refine ((safe_publishJob documented workDir planned refs).mono ?_
        fun _ _ _ _ _ => trivial).bind fun _ _ => id
      rintro _ spawn allowed _ _ ⟨⟩
      exact allowed

/-- No command of a job empties a reference. -/
theorem Allows.grows (documented : cli.Documented) {job : ReleaseJob}
    (planned : Planned engine job.state) (allowed : job.Allows spawn)
    (served : cli.serves refs spawn exit after) : Grows refs after := by
  cases job with
  | build place state =>
      rcases BuildAsks.leaves documented allowed served with rfl | ⟨_, _, _, _, _, _, _, leaves⟩
      · exact .refl _
      · exact .of_leaves leaves
  | publish workDir state =>
      rcases PublishAsks.leaves documented planned allowed served with
        rfl | ⟨_, _, _, _, _, _, leaves⟩
      · exact .refl _
      · exact .of_leaves leaves

end ReleaseJob

/-- Every change of a reference is the answer to a build for that staging reference, or to a
promotion to that final reference by a job that finds all variants of its release staged. -/
theorem changes_when_complete (documented : cli.Documented)
    (planned : ∀ name, Planned engine (jobs name).state)
    {current next : Pool Refs Nat Spawn Exit Nat}
    (reachable : (pipeline cli engine jobs start).Reachable current)
    {label : PoolLabel Nat Spawn Exit}
    (transition : (pipeline cli engine jobs start).Step current label next) {ref : String}
    (changed : next.world ref ≠ current.world ref) :
    ∃ name argv exit, label = .answer name ⟨"docker", argv⟩ exit ∧
      ((∃ place state, jobs name = .build place state ∧
        ∃ build ∈ state.builds, ∃ staging, BuildsFor state build staging argv ∧
          StagingOf state build ref) ∨
      (∃ workDir state, jobs name = .publish workDir state ∧ AllStaged state current.world ∧
        ∃ plan, publishPlan state = .ok plan ∧ ∃ entry ∈ plan, ∃ metadataFile,
          argv = promotionArgv entry metadataFile ∧ ref ∈ entry.tags ∧
            ∃ build ∈ state.builds, FinalOf build ref)) := by
  have rules : PoolRules cli.serves (fun name => (jobs name).script engine) (fun _ => True)
      (fun _ => True) (fun _ => Grows) (fun name => (jobs name).Permits) (fun _ _ _ => True) := {
    refl := fun _ => Grows.refl
    trans := fun _ _ _ _ => Grows.trans
    safe := fun name world _ _ => (jobs name).safe_script documented (planned name) world
    keeps := by
      intros
      trivial
    respects := fun _ other _ _ _ _ _ _ _ _ permitted served =>
      permitted.2.grows documented (planned other) served }
  cases label with
  | start name =>
      obtain ⟨_, _, rfl⟩ := transition
      exact absurd rfl changed
  | stop name =>
      obtain rfl := transition
      exact absurd rfl changed
  | answer name spawn exit =>
      obtain ⟨_, ⟨staged, allowed⟩, served⟩ :=
        pool_permits rules (fun _ _ => trivial) reachable transition
      have noisy : ¬ Quiet spawn := fun quiet =>
        changed (congrFun (documented.quiet quiet served) ref)
      have release := planned name
      cases job : jobs name with
      | build place state =>
          rw [job] at allowed
          rcases BuildAsks.leaves documented allowed served with
            same | ⟨build, member, staging, serial, builds, spelled, _, leaves⟩
          · exact absurd (congrFun same ref) changed
          · have target : ref ∈ staging.map StagingRef.ref := by
              by_contra outside
              exact changed (leaves.frame outside)
            exact ⟨name, spawn.args, exit, spelled ▸ rfl, .inl ⟨place, state, job, build, member,
              staging, builds, (mem_staging_iff builds.1).mp target⟩⟩
      | publish workDir state =>
          rw [job] at allowed release
          rcases PublishAsks.leaves documented release allowed served with
            same | ⟨plan, plans, entry, member, metadataFile, rfl, leaves⟩
          · exact absurd (congrFun same ref) changed
          · have target : ref ∈ entry.tags := by
              by_contra outside
              exact changed (leaves.frame outside)
            have all := (staged workDir state job).resolve_left noisy
            obtain ⟨build, known, image, listed, tag, _, same⟩ :=
              (mem_publishPlan_iff plans).mp member
            have final : FinalOf build ref := ⟨image, listed, by rw [same] at target; exact target⟩
            exact ⟨name, _, exit, rfl, .inr ⟨workDir, state, job, all, plan, plans, entry, member,
              metadataFile, rfl, target, build, known, final⟩⟩

/-- The step of the publication that gives the tag `x` its image. -/
theorem changes_when_complete_smallJobs :
    ∃ (current next : Pool Refs Nat Spawn Exit Nat) (label : PoolLabel Nat Spawn Exit),
      next.world "ghcr.io/o/r:x" ≠ current.world "ghcr.io/o/r:x" ∧
      ∃ name argv exit, label = .answer name ⟨"docker", argv⟩ exit ∧
        ((∃ place state, smallJobs name = .build place state ∧
          ∃ build ∈ state.builds, ∃ staging, BuildsFor state build staging argv ∧
            StagingOf state build "ghcr.io/o/r:x") ∨
        (∃ workDir state, smallJobs name = .publish workDir state ∧
          AllStaged state current.world ∧
          ∃ plan, publishPlan state = .ok plan ∧ ∃ entry ∈ plan, ∃ metadataFile,
            argv = promotionArgv entry metadataFile ∧ "ghcr.io/o/r:x" ∈ entry.tags ∧
              ∃ build ∈ state.builds, FinalOf build "ghcr.io/o/r:x")) := by
  let start : Refs := fun ref => if ref = "ghcr.io/o/r:x" then none else some ⟨[], 0⟩
  have staged : AllStaged smallRelease start := by
    intro build member ref staging
    have other : ref ≠ "ghcr.io/o/r:x" := by
      rintro rfl
      exact final_not_staging planned_smallRelease sparesStaging_smallRelease planned_smallRelease
        (by decide : smallBuild "b" true ["x", "x-b", "b"] ∈ smallRelease.builds) member
        ⟨_, List.mem_cons_self, by decide⟩ staging
    rw [show start ref = some ⟨[], 0⟩ from if_neg other]
    rfl
  obtain ⟨_, last, published, artifact, holds⟩ := exists_published staged
  let empty : Pool Refs Nat Spawn Exit Nat := ⟨start, fun _ => none⟩
  let running : Pool Refs Nat Spawn Exit Nat :=
    ⟨start, Function.update empty.jobs 1 (some ((smallJobs 1).script plainEngine))⟩
  have started : (pipeline plainCli plainEngine smallJobs start).Step empty (.start 1) running :=
    ⟨trivial, rfl, rfl⟩
  have changed : last "ghcr.io/o/r:x" ≠ start "ghcr.io/o/r:x" := by
    rw [holds]
    exact Option.some_ne_none _
  have initial : (pipeline plainCli plainEngine smallJobs start).Reachable empty :=
    .initial ⟨rfl, fun _ => rfl⟩
  obtain ⟨current, label, next, reachable, transition, differs⟩ :=
    published.exists_step (fun refs => refs "ghcr.io/o/r:x") (initial.step started)
      (Function.update_self ..) rfl changed
  exact ⟨current, next, label, differs, changes_when_complete plainCli_documented
    releases_smallJobs.planned reachable transition differs⟩

end MessagePusher.Release
