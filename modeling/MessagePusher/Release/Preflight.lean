import MessagePusher.Release.Matrix
import MessagePusher.Release.Recovery
import MessagePusher.Scripts.Preflight

/-!
# What the checks before a run promise

`preflight` runs before the logins and before the tags are computed. It passes exactly where the
steps behind it find what they need: a plan, the files of its builds, docker, and for each image a
registry with a token (`preflight_passes_iff`). The logins then end well exactly where docker accepts
each of them (`login_ends_well_iff`), and after them every base of the release is logged in to.
-/

namespace MessagePusher.Release

open Common Scripts Semantics Semantics.Fallible

/-- What the steps behind `preflight` find in a job. -/
structure Ready (engine : Engine) (job : JobRun) (machine : Machine) (state : State) : Prop where
  planned : job.stateFile engine = .ok state
  files : ∀ build ∈ state.builds, machine.fileExists (dockerfilePath build) = true
  client : machine.docker.cli = true ∧ machine.docker.buildx = true
  daemon : publishOnly job.env = false → machine.docker.canBuild = true
  complete : ∀ entry ∈ state.registries, job.env.read entry.id.tokenVar ≠ "" → entry.enabled = true
  targets : state.dryRun = false → state.images ≠ [] ∧
    ∀ image ∈ state.images, ∃ entry ∈ planLogins state, entry.id = image.registryId

variable {engine : Engine} {job : JobRun} {machine : Machine} {state resolved : State}

/-! ### Registries and images -/

theorem mem_registriesFrom {env : Env} {entry : Registry}
    (member : entry ∈ registriesFrom engine env) :
    entry.enabled = true ↔ readOptional (env entry.id.tokenVar) ≠ "" ∧ entry.user ≠ "" := by
  simp only [registriesFrom, List.mem_cons, List.not_mem_nil, or_false] at member
  rcases member with rfl | rfl <;> exact decide_eq_true_iff

/-- Where something is to be published, the registry of each image is enabled. -/
theorem imagesFrom_enabled {env : Env} {registries : List Registry} {repoName : String}
    {images : List Image} (done : imagesFrom engine env registries repoName false = .ok images) :
    ∀ image ∈ images, ∃ entry ∈ registries, entry.enabled = true ∧ entry.id = image.registryId := by
  intro image member
  unfold imagesFrom at done
  dsimp only at done
  split_ifs at done with explicit blank
  · obtain ⟨raw, _, one⟩ := mem_of_mapM done member
    unfold explicitImage at one
    obtain ⟨base, _, rest⟩ := bind_ok_iff.1 one
    obtain ⟨id, _, rest⟩ := bind_ok_iff.1 rest
    obtain ⟨allowed, rest⟩ := check_ok_iff.1 rest
    obtain rfl := pure_ok_iff.1 rest
    have some_ : registries.any (fun entry => entry.enabled && entry.id = id) = true := by
      simpa using allowed
    obtain ⟨entry, known, both⟩ := List.any_eq_true.mp some_
    rw [Bool.and_eq_true, decide_eq_true_iff] at both
    exact ⟨entry, known, both⟩
  · cases done
  · obtain ⟨derived, mapped, rest⟩ := bind_ok_iff.1 done
    rw [if_neg (by simp)] at rest
    obtain rfl := pure_ok_iff.1 rest
    obtain ⟨entry, known, one⟩ := mem_of_mapM mapped member
    obtain ⟨known, enabled⟩ := List.mem_filter.mp known
    obtain ⟨base, _, rest⟩ := bind_ok_iff.1 one
    obtain rfl := pure_ok_iff.1 rest
    exact ⟨entry, known, enabled, rfl⟩

/-- The registries of a job are those of its variables. -/
theorem resolved_registries (file : job.resolvedFile engine = .ok resolved) :
    resolved.registries = registriesFrom engine job.runner.env := by
  obtain ⟨release, resolves, rfl⟩ := JobRun.resolvedFile_ok_iff.mp file
  obtain ⟨_, _, _, _, _, _, _, rfl⟩ := resolveRelease_ok_iff.mp resolves
  rfl

theorem resolved_targets (file : job.resolvedFile engine = .ok resolved)
    (wet : resolved.dryRun = false) :
    ∀ image ∈ resolved.images, ∃ entry ∈ planLogins resolved, entry.id = image.registryId := by
  obtain ⟨release, resolves, rfl⟩ := JobRun.resolvedFile_ok_iff.mp file
  obtain ⟨_, images, _, _, _, based, _, rfl⟩ := resolveRelease_ok_iff.mp resolves
  have dry : isDryRun engine job.runner = false := wet
  rw [dry] at based
  intro image member
  obtain ⟨entry, known, enabled, same⟩ := imagesFrom_enabled based image member
  exact ⟨entry, List.mem_filter.mpr ⟨known, enabled⟩, same⟩

/-! ### The errors -/

/-- A token without a user is what makes a registry half configured. -/
theorem halfConfigured_eq_nil_iff {env : ProcessEnv}
    (registries : state.registries = registriesFrom engine fun name => (env name).getD "") :
    halfConfigured state env = [] ↔
      ∀ entry ∈ state.registries, env.read entry.id.tokenVar ≠ "" → entry.enabled = true := by
  unfold halfConfigured
  rw [registries]
  simp only [registriesFrom, List.mem_cons, List.not_mem_nil, or_false, forall_eq_or_imp,
    forall_eq, List.append_eq_nil_iff]
  have read : ∀ name, readOptional ((env name).getD "") = env.read name := fun _ => rfl
  by_cases ghcr : env.read "GHCR_TOKEN" = "" <;>
    by_cases user : ghcrNamespaceFrom engine (fun name => (env name).getD "") = "" <;>
    by_cases hub : env.read "DOCKERHUB_TOKEN" = "" <;>
    by_cases name : env.read "DOCKERHUB_USERNAME" = "" <;>
    simp [RegistryId.tokenVar, read, ghcr, user, hub, name]

theorem error_eq_nil_iff {condition : Prop} [Decidable condition] (text : String) :
    (if condition then [text] else []) = [] ↔ ¬ condition := by
  by_cases holds : condition <;> simp [holds]

theorem registryErrors_eq_nil_iff {env : ProcessEnv} : registryErrors state env = [] ↔
    halfConfigured state env = [] ∧
      (state.dryRun = false → planLogins state ≠ [] ∧ state.images ≠ []) := by
  simp only [registryErrors, List.append_eq_nil_iff, error_eq_nil_iff]
  cases state.dryRun <;> simp [planLogins, and_assoc]

theorem dockerfileErrors_eq_nil_iff {builds : List Build} : dockerfileErrors machine builds = [] ↔
    ∀ build ∈ builds, machine.fileExists (dockerfilePath build) = true := by
  unfold dockerfileErrors
  dsimp only
  rw [error_eq_nil_iff, not_not, missingDockerfiles, List.map_eq_nil_iff, List.filter_eq_nil_iff]
  simp only [Bool.not_eq_true', Bool.not_eq_false]

theorem dockerErrors_eq_nil_iff {docker : Probe} {publishes : Bool} :
    dockerErrors docker publishes = [] ↔ (docker.cli = true ∧ docker.buildx = true) ∧
      (publishes = false → docker.canBuild = true) := by
  unfold dockerErrors Probe.canBuild
  cases docker.cli <;> cases docker.daemon <;> cases docker.buildx <;> cases publishes <;> simp

/-! ### The plan of the builds -/

theorem planBuild_labels {variant : Variant} {build : Build} {tags : List Tag}
    {labels : List KeyValue} (others : List KeyValue)
    (done : planBuild state tags labels variant = .ok build) :
    planBuild state tags others variant = .ok { build with labels := others } := by
  obtain ⟨names, computed, same⟩ := bind_ok_iff.1 done
  obtain rfl := pure_ok_iff.1 same
  exact bind_ok_iff.2 ⟨names, computed, rfl⟩

/-- The time of the checks makes a difference to the labels only. -/
theorem computeBuilds_now {env : ProcessEnv} {now : String} {builds : List Build} (later : String)
    (done : computeBuilds engine state (metaInput env now) = .ok builds) :
    ∃ labels, computeBuilds engine state (metaInput env later) =
      .ok (builds.map fun build => { build with labels }) := by
  obtain ⟨rules, flavor, labels, tags, parsed, generated, some_, mapped, unique⟩ :=
    computeBuilds_ok_iff.mp done
  refine ⟨buildLabels state labels later, computeBuilds_ok_iff.mpr
    ⟨rules, flavor, labels, tags, ?_, generated, some_, ?_, ?_⟩⟩
  · exact (parseMeta_now (metaInput env now) later).symm ▸ parsed
  · rw [mapM_ok_iff] at mapped ⊢
    rw [List.forall₂_map_right_iff]
    exact mapped.imp fun variant build one => planBuild_labels _ one
  · unfold findDuplicateTags at unique ⊢
    rwa [List.flatMap_map]

/-- The state file, when what was checked is planned again. -/
theorem stateFile_of_computeBuilds (file : job.resolvedFile engine = .ok resolved) {now : String}
    {builds : List Build} (done : computeBuilds engine resolved (metaInput job.env now) = .ok builds) :
    ∃ labels, job.stateFile engine =
      .ok { resolved with builds := builds.map fun build => { build with labels } } := by
  obtain ⟨labels, planned⟩ := computeBuilds_now job.now done
  exact ⟨labels, JobRun.stateFile_ok_iff.mpr ⟨resolved, _, file, planned, rfl⟩⟩

/-! ### The checks as a whole -/

theorem Ready.of_passed (file : job.resolvedFile engine = .ok resolved) {now : String}
    (passed : (preflightChecks engine resolved job.env machine now).errors = []) :
    ∃ state, Ready engine job machine state := by
  unfold preflightChecks at passed
  cases computed : computeBuilds engine resolved (metaInput job.env now) with
  | error text =>
      rw [computed] at passed
      simp [findingsOf] at passed
  | ok builds =>
      rw [computed] at passed
      simp only [findingsOf, List.append_eq_nil_iff] at passed
      obtain ⟨⟨registries, files⟩, docker⟩ := passed
      obtain ⟨half, wet⟩ := registryErrors_eq_nil_iff.mp registries
      obtain ⟨client, daemon⟩ := dockerErrors_eq_nil_iff.mp docker
      obtain ⟨labels, planned⟩ := stateFile_of_computeBuilds file computed
      refine ⟨_, planned, ?_, client, daemon, ?_, fun dry => ⟨(wet dry).2, ?_⟩⟩
      · intro build member
        obtain ⟨old, known, rfl⟩ := List.mem_map.mp member
        exact dockerfileErrors_eq_nil_iff.mp files old known
      · exact (halfConfigured_eq_nil_iff (resolved_registries file)).mp half
      · have targets := resolved_targets file dry
        exact targets

theorem Ready.passes (file : job.resolvedFile engine = .ok resolved)
    (ready : Ready engine job machine state) (now : String) :
    (preflightChecks engine resolved job.env machine now).errors = [] := by
  obtain ⟨other, builds, again, planned, rfl⟩ := JobRun.stateFile_ok_iff.mp ready.planned
  obtain rfl : resolved = other := Except.ok.inj (file.symm.trans again)
  obtain ⟨labels, computed⟩ := computeBuilds_now now planned
  unfold preflightChecks
  rw [computed]
  simp only [findingsOf, List.append_eq_nil_iff]
  refine ⟨⟨registryErrors_eq_nil_iff.mpr ⟨?_, fun dry => ?_⟩, ?_⟩,
    dockerErrors_eq_nil_iff.mpr ⟨ready.client, ready.daemon⟩⟩
  · exact (halfConfigured_eq_nil_iff (resolved_registries file)).mpr ready.complete
  · obtain ⟨some_, targets⟩ := ready.targets dry
    obtain ⟨image, listed⟩ := List.exists_mem_of_ne_nil _ some_
    obtain ⟨entry, known, _⟩ := targets image listed
    exact ⟨List.ne_nil_of_mem known, some_⟩
  · refine dockerfileErrors_eq_nil_iff.mpr fun build member => ?_
    obtain ⟨old, known, rfl⟩ := List.mem_map.mp member
    exact ready.files old known

/-- The checks pass exactly where the steps behind them find what they need. -/
theorem preflight_passes_iff (file : job.resolvedFile engine = .ok resolved) (now : String) :
    (preflightChecks engine resolved job.env machine now).errors = [] ↔
      ∃ state, Ready engine job machine state :=
  ⟨Ready.of_passed file, fun ⟨_, ready⟩ => ready.passes file now⟩

def smallMachine : Machine where
  docker := { cli := true, daemon := true, buildx := true }
  fileExists := fun path => path = "Dockerfile.a" ∨ path = "Dockerfile.b"
  arch := "amd64"

theorem ready_smallJobRun : Ready plainEngine smallJobRun smallMachine smallRelease where
  planned := by decide
  files := by decide
  client := by decide
  daemon := by decide
  complete := by decide
  targets := by decide

theorem preflight_passes_smallJobRun :
    (preflightChecks plainEngine { smallRelease with builds := [] } smallJobRun.env smallMachine
      "").errors = [] :=
  (preflight_passes_iff (by decide : smallJobRun.resolvedFile plainEngine = .ok _) "").mpr
    ⟨smallRelease, ready_smallJobRun⟩

/-! ### The logins -/

/-- A record of the registries whose login docker accepted, however it answers. -/
def signingIn : Environment (Set RegistryId) LoginCall Exit := fun signed call exit after =>
  ∀ entry, call.args = loginArgv entry →
    after = if exit.code = 0 then insert entry.id signed else signed

/-- A login with the token of its registry, which is not empty. -/
def LoginFor (env : ProcessEnv) (entries : List Registry) (call : LoginCall) : Prop :=
  ∃ entry ∈ entries, tokenOf env entry ≠ "" ∧ call = ⟨loginArgv entry, tokenOf env entry ++ "\n"⟩

theorem tokenOf_ne_empty {env : ProcessEnv} {entry : Registry}
    (known : env.read entry.id.tokenVar ≠ "") : tokenOf env entry ≠ "" := by
  intro none_
  refine known ?_
  have same : env.read entry.id.tokenVar = trim (tokenOf env entry) := rfl
  rw [same, none_]
  decide

variable {env : ProcessEnv} {entries : List Registry}

theorem asks_loginAll (tokens : ∀ entry ∈ entries, tokenOf env entry ≠ "") :
    (loginAll env entries).Asks (LoginFor env entries) := by
  induction entries with
  | nil => trivial
  | cons entry rest ih =>
      have token := tokens entry List.mem_cons_self
      unfold loginAll
      dsimp only
      rw [if_neg token]
      refine ⟨⟨entry, List.mem_cons_self, token, rfl⟩, fun exit => ?_⟩
      show Process.Asks _ (if exit.code ≠ 0 then _ else _)
      by_cases failed : exit.code ≠ 0
      · rw [if_pos failed]
        trivial
      · rw [if_neg failed]
        refine (ih fun other member => tokens other (List.mem_cons_of_mem _ member)).mono ?_
        rintro call ⟨other, member, kept⟩
        exact ⟨other, List.mem_cons_of_mem _ member, kept⟩

/-- The loop ends well exactly where all logins of its list were accepted. -/
theorem safe_loginAll {signed : Set RegistryId} (tokens : ∀ entry ∈ entries, tokenOf env entry ≠ "")
    (distinct : (entries.map Registry.id).Nodup) (fresh : ∀ entry ∈ entries, entry.id ∉ signed) :
    (loginAll env entries).Safe signingIn Eq (fun _ _ => True) (fun outcome after =>
      signed ⊆ after ∧ (outcome.exitCode = 0 ↔ ∀ entry ∈ entries, entry.id ∈ after)) signed := by
  induction entries generalizing signed with
  | nil =>
      rintro _ rfl
      exact ⟨subset_rfl, iff_of_true rfl fun _ none_ => absurd none_ List.not_mem_nil⟩
  | cons entry rest ih =>
      rw [List.map_cons, List.nodup_cons] at distinct
      unfold loginAll
      dsimp only
      rw [if_neg (tokens entry List.mem_cons_self)]
      rintro _ rfl
      refine ⟨trivial, fun exit after answered => ?_⟩
      have left := answered entry rfl
      show Process.Safe _ _ _ _ (if exit.code ≠ 0 then _ else _) _
      by_cases failed : exit.code ≠ 0
      · rw [if_pos failed]
        rw [if_neg failed] at left
        rintro _ rfl
        subst left
        exact ⟨subset_rfl, iff_of_false (by simp) fun all =>
          fresh entry List.mem_cons_self (all entry List.mem_cons_self)⟩
      · rw [if_neg failed]
        rw [if_pos (not_not.mp failed)] at left
        subst left
        have others : ∀ other ∈ rest, other.id ∉ insert entry.id signed := by
          rintro other member (same | known)
          · exact distinct.1 (same ▸ List.mem_map_of_mem member)
          · exact fresh other (List.mem_cons_of_mem _ member) known
        refine (ih (fun other member => tokens other (List.mem_cons_of_mem _ member)) distinct.2
          others).mono (fun _ _ => id) ?_
        rintro outcome after ⟨grows, ends⟩
        refine ⟨(Set.subset_insert _ _).trans grows, ends.trans ?_⟩
        rw [List.forall_mem_cons]
        exact (and_iff_right (grows (Set.mem_insert _ _))).symm

/-- An enabled registry has a token. -/
theorem planLogins_token (file : job.resolvedFile engine = .ok resolved) :
    ∀ entry ∈ planLogins resolved, tokenOf job.env entry ≠ "" := by
  intro entry member
  obtain ⟨known, enabled⟩ := List.mem_filter.mp member
  rw [resolved_registries file] at known
  exact tokenOf_ne_empty ((mem_registriesFrom known).mp enabled).1

theorem planLogins_distinct (file : job.resolvedFile engine = .ok resolved) :
    ((planLogins resolved).map Registry.id).Nodup := by
  refine (List.filter_sublist.map _).nodup ?_
  rw [resolved_registries file]
  simp [registriesFrom]

/-- The loop over the plan, once the checks passed. -/
theorem loginAll_covers (file : job.resolvedFile engine = .ok resolved)
    (ready : Ready engine job machine state) (wet : resolved.dryRun = false)
    {outcome : LoginOutcome} {signed : Set RegistryId}
    (runs : (loginAll job.env (planLogins resolved)).Runs signingIn ∅ outcome signed) :
    (outcome.exitCode = 0 ↔ ∀ entry ∈ planLogins resolved, entry.id ∈ signed) ∧
      (outcome.exitCode = 0 → ∀ build ∈ state.builds, ∀ image ∈ build.images,
        image.registryId ∈ signed) := by
  obtain ⟨other, builds, again, planned, rfl⟩ := JobRun.stateFile_ok_iff.mp ready.planned
  obtain rfl : resolved = other := Except.ok.inj (file.symm.trans again)
  obtain ⟨_, ends⟩ := runs.meets
    (safe_loginAll (planLogins_token file) (planLogins_distinct file) fun _ _ => Set.notMem_empty _)
  refine ⟨ends, fun done build member image listed => ?_⟩
  obtain ⟨_, _, _, _, _, images⟩ := ready.planned |> JobRun.planned |>.build_ok member
  rw [images] at listed
  obtain ⟨base, known, rfl⟩ := List.mem_map.mp listed
  obtain ⟨entry, enabled, same⟩ := (ready.targets wet).2 base known
  exact same ▸ ends.mp done entry enabled

/-- A release that is not a dry run and passed the checks has registries to log in to. -/
theorem planLogins_ne_nil (file : job.resolvedFile engine = .ok resolved)
    (ready : Ready engine job machine state) (wet : resolved.dryRun = false) :
    planLogins resolved ≠ [] := by
  obtain ⟨other, builds, again, planned, rfl⟩ := JobRun.stateFile_ok_iff.mp ready.planned
  obtain rfl : resolved = other := Except.ok.inj (file.symm.trans again)
  obtain ⟨images, targets⟩ := ready.targets wet
  obtain ⟨image, listed⟩ := List.exists_mem_of_ne_nil _ images
  obtain ⟨entry, known, _⟩ := targets image listed
  exact List.ne_nil_of_mem known

/-- After the checks no login lacks its token, the logins end well exactly where docker accepts all
of them, and then each base of the release is logged in to. A dry run logs in nowhere. -/
theorem logins_cover_images (file : job.resolvedFile engine = .ok resolved)
    (ready : Ready engine job machine state) :
    (login job.env resolved).Asks (fun call => resolved.dryRun = false ∧
      LoginFor job.env (planLogins resolved) call) ∧
      ∀ outcome signed, (login job.env resolved).Runs signingIn ∅ outcome signed →
        (outcome.exitCode = 0 ↔
          resolved.dryRun = true ∨ ∀ entry ∈ planLogins resolved, entry.id ∈ signed) ∧
        (outcome.exitCode = 0 → resolved.dryRun = false → ∀ build ∈ state.builds,
          ∀ image ∈ build.images, image.registryId ∈ signed) := by
  cases mode : resolved.dryRun with
  | true =>
      have idle : login job.env resolved = .done { exitCode := 0 } := by
        unfold login
        rw [mode, if_pos rfl]
        rfl
      rw [idle]
      refine ⟨trivial, fun outcome signed runs => ?_⟩
      cases runs
      exact ⟨iff_of_true rfl (.inl rfl), fun _ wet => absurd wet.symm Bool.false_ne_true⟩
  | false =>
      have loop : login job.env resolved = loginAll job.env (planLogins resolved) := by
        unfold login
        rw [mode, if_neg (by simp), if_neg (planLogins_ne_nil file ready mode)]
      rw [loop]
      refine ⟨(asks_loginAll (planLogins_token file)).mono fun _ => .intro rfl,
        fun outcome signed runs => ?_⟩
      obtain ⟨ends, covers⟩ := loginAll_covers file ready mode runs
      exact ⟨ends.trans (or_iff_right Bool.false_ne_true).symm, fun done _ => covers done⟩

/-- The login of the small release to its one registry. -/
theorem logins_cover_images_smallJobRun :
    (login smallJobRun.env { smallRelease with builds := [] }).Asks
        (LoginFor smallJobRun.env (planLogins { smallRelease with builds := [] })) ∧
      ∀ outcome signed,
        (login smallJobRun.env { smallRelease with builds := [] }).Runs signingIn ∅ outcome signed →
          (outcome.exitCode = 0 ↔
            ∀ entry ∈ planLogins { smallRelease with builds := [] }, entry.id ∈ signed) ∧
          (outcome.exitCode = 0 → ∀ build ∈ smallRelease.builds, ∀ image ∈ build.images,
            image.registryId ∈ signed) := by
  have file : smallJobRun.resolvedFile plainEngine = .ok { smallRelease with builds := [] } := by
    decide
  obtain ⟨asks, ends⟩ := logins_cover_images file ready_smallJobRun
  refine ⟨asks.mono fun _ => And.right, fun outcome signed runs => ?_⟩
  obtain ⟨exact_, covers⟩ := ends outcome signed runs
  exact ⟨exact_.trans (or_iff_right (by decide)), fun done => covers done rfl⟩

end MessagePusher.Release
