import MessagePusher.Scripts.Publish
import MessagePusher.Semantics.Fallible

/-!
# What a failed publication leaves behind

Promotions run one after the other and nothing is taken back. A failure at some step leaves the
tags of all steps before it, so `latest` is safe from every failure exactly when only the last
image of the state file has it.
-/

namespace MessagePusher.Release

open Common Scripts Semantics.Fallible

/-- A promotion that creates or moves the tag `latest` of its image. -/
def MovesLatest (entry : Promotion) : Prop := entry.base ++ ":latest" ∈ entry.tags

/-- With all staging references present, no promotion before the failure of a step moved
`latest`. -/
def FailureSparesLatest (state : State) : Prop :=
  ∀ (docker : Docker) (workDir : String),
    (∀ plan, publishPlan state = .ok plan → ∀ entry ∈ plan, docker.refExists entry.source = true) →
      (publish docker workDir state).exitCode ≠ 0 →
        ∀ entry ∈ (publish docker workDir state).promoted, ¬ MovesLatest entry

/-- A build whose staging tag has no legal name. -/
def Unstageable (state : State) : Prop :=
  ∃ build ∈ state.builds, ∀ tag,
    stagingTagName state.version state.shortSha build.variant ≠ .ok tag

/-- Of the images of all builds, in the order of the state file, only the last one may have the
tag `latest`. -/
def LatestComesLast (state : State) : Prop :=
  ∀ image ∈ (state.builds.flatMap Build.images).dropLast, image.base ++ ":latest" ∉ image.tags

variable {state : State} {docker : Docker} {workDir : String} {plan : List Promotion}

/-! ### The plan -/

/-- The tags of an image, as a promotion or as the state file has them. -/
def tagsOfPromotion (entry : Promotion) : String × List String := (entry.base, entry.tags)

def tagsOfImage (image : TaggedImage) : String × List String := (image.base, image.tags)

/-- The staging references of a build are those of its images. -/
theorem stagingRefsFor_ok {build : Build} {staging : List StagingRef}
    (done : stagingRefsFor build state = .ok staging) {image : TaggedImage}
    (member : image ∈ build.images) :
    ∃ entry, staging.reverse.find? (fun entry => entry.base = image.base) = some entry := by
  obtain ⟨tag, -, same⟩ := bind_ok_iff.1 done
  obtain rfl := pure_ok_iff.1 same
  rw [← Option.isSome_iff_exists, List.find?_isSome]
  exact ⟨_, List.mem_reverse.mpr (List.mem_map_of_mem member), decide_eq_true rfl⟩

/-- The promotions of a build have its images, in their order. -/
theorem buildPromotions_images {build : Build} {entries : List Promotion}
    (done : buildPromotions state build = .ok entries) :
    entries.map tagsOfPromotion = build.images.map tagsOfImage := by
  obtain ⟨staging, staged, same⟩ := bind_ok_iff.1 done
  obtain rfl := pure_ok_iff.1 same
  have all : ∀ images : List TaggedImage, (∀ image ∈ images, image ∈ build.images) →
      (images.filterMap fun image =>
        (staging.reverse.find? fun entry => entry.base = image.base).map fun entry =>
          ({ variant := build.variant, base := image.base, registryId := image.registryId,
             source := entry.ref, tags := image.tags } : Promotion)).map tagsOfPromotion =
        images.map tagsOfImage := by
    intro images known
    induction images with
    | nil => rfl
    | cons image images ih =>
        obtain ⟨entry, found⟩ := stagingRefsFor_ok staged (known image List.mem_cons_self)
        rw [List.filterMap_cons, found]
        exact congrArg _ (ih fun other member => known other (List.mem_cons_of_mem _ member))
  exact all build.images fun _ member => member

/-- The plan has the images of the builds, in their order. -/
theorem publishPlan_images (planned : publishPlan state = .ok plan) :
    plan.map tagsOfPromotion = (state.builds.flatMap Build.images).map tagsOfImage := by
  obtain ⟨entries, mapped, same⟩ := bind_ok_iff.1 planned
  obtain rfl := pure_ok_iff.1 same
  have images : entries.map (List.map tagsOfPromotion) =
      state.builds.map fun build => build.images.map tagsOfImage :=
    map_of_mapM mapped fun _ _ done => buildPromotions_images done
  rw [List.map_flatten, images, List.map_flatMap]
  rfl

/-- There is a plan exactly when every build can be staged. -/
theorem publishPlan_none_iff : (∀ plan, publishPlan state ≠ .ok plan) ↔ Unstageable state := by
  constructor
  · intro none_
    by_contra staged
    have each : ∀ build ∈ state.builds, ∃ entries, buildPromotions state build = .ok entries := by
      intro build member
      cases named : stagingTagName state.version state.shortSha build.variant with
      | ok tag =>
          unfold buildPromotions stagingRefsFor
          rw [named]
          exact ⟨_, rfl⟩
      | error text =>
          exact absurd ⟨build, member, fun tag ok => by rw [named] at ok; cases ok⟩ staged
    obtain ⟨entries, mapped⟩ := exists_mapM each
    exact none_ entries.flatten (bind_ok_iff.2 ⟨entries, mapped, rfl⟩)
  · rintro ⟨build, member, unnamed⟩ plan planned
    obtain ⟨entries, mapped, -⟩ := bind_ok_iff.1 planned
    obtain ⟨promotions, -, done⟩ := mapM_mem mapped member
    obtain ⟨staging, staged, -⟩ := bind_ok_iff.1 done
    obtain ⟨tag, named, -⟩ := bind_ok_iff.1 staged
    exact unnamed tag named

/-- Only the last promotion of the plan may move `latest`. -/
theorem latestComesLast_iff (planned : publishPlan state = .ok plan) :
    LatestComesLast state ↔ ∀ entry ∈ plan.dropLast, ¬ MovesLatest entry := by
  have same := congrArg List.dropLast (publishPlan_images planned)
  rw [← List.map_dropLast, ← List.map_dropLast] at same
  have images : LatestComesLast state ↔
      ∀ pair ∈ (state.builds.flatMap Build.images).dropLast.map tagsOfImage,
        pair.1 ++ ":latest" ∉ pair.2 := by
    rw [List.forall_mem_map]
    exact Iff.rfl
  rw [images, ← same, List.forall_mem_map]
  exact Iff.rfl

/-! ### The loop -/

/-- A failing loop went through a part of the plan that leaves out at least the last entry. -/
theorem promoteFrom_failed {step : Nat} {promoted : List Promotion} {results : List PublishResult}
    (failed : (promoteFrom docker workDir step plan promoted results).exitCode ≠ 0) :
    ∃ more, (promoteFrom docker workDir step plan promoted results).promoted = promoted ++ more ∧
      more <+: plan.dropLast := by
  induction plan generalizing step promoted results with
  | nil => exact absurd rfl failed
  | cons entry rest ih =>
      unfold promoteFrom at failed ⊢
      dsimp only at failed ⊢
      split_ifs at failed ⊢ with fails
      · exact ⟨[], (List.append_nil _).symm, List.nil_prefix⟩
      · obtain ⟨more, went, before⟩ := ih failed
        refine ⟨entry :: more, by rw [went, List.append_assoc]; rfl, ?_⟩
        have others : rest ≠ [] := by
          rintro rfl
          exact failed rfl
        rw [List.dropLast_cons_of_ne_nil others]
        exact List.cons_prefix_cons.mpr ⟨rfl, before⟩

/-- When only the last step fails, everything before it went through. -/
theorem promoteFrom_last {step : Nat} {promoted : List Promotion} {results : List PublishResult}
    (some_ : plan ≠ []) (fails : ∀ number argv,
      docker.create number argv = if number + 1 = step + plan.length then 1 else 0) :
    (promoteFrom docker workDir step plan promoted results).exitCode = 1 ∧
      (promoteFrom docker workDir step plan promoted results).promoted =
        promoted ++ plan.dropLast := by
  induction plan generalizing step promoted results with
  | nil => exact absurd rfl some_
  | cons entry rest ih =>
      unfold promoteFrom
      dsimp only
      rw [fails]
      cases rest with
      | nil => simp
      | cons next rest =>
          have goesOn : ¬ step + 1 = step + (entry :: next :: rest).length := by
            simp only [List.length_cons]
            omega
          have later : ∀ number argv, docker.create number argv =
              if number + 1 = step + 1 + (next :: rest).length then 1 else 0 := by
            intro number argv
            rw [fails]
            simp only [List.length_cons]
            congr 1
            apply propext
            omega
          obtain ⟨exits, went⟩ := ih (List.cons_ne_nil _ _) later
          simp only [goesOn, if_false, ne_eq, not_true_eq_false]
          refine ⟨exits, ?_⟩
          rw [went, List.append_assoc]
          rfl

/-! ### The failure of one step -/

/-- No failure leaves a moved `latest` behind exactly when there is nothing to promote or only the
last image has that tag. -/
theorem failure_spares_latest_iff (state : State) :
    FailureSparesLatest state ↔
      state.dryRun = true ∨ Unstageable state ∨ LatestComesLast state := by
  cases planned : publishPlan state with
  | error text =>
      have unstageable : Unstageable state :=
        publishPlan_none_iff.1 fun plan ok => by rw [planned] at ok; cases ok
      refine iff_of_true ?_ (.inr (.inl unstageable))
      intro docker workDir _ _ entry member
      rw [publish, planned] at member
      cases member
  | ok plan =>
      have stageable : ¬ Unstageable state :=
        fun unstageable => publishPlan_none_iff.2 unstageable plan planned
      rw [or_iff_right stageable, latestComesLast_iff planned]
      constructor
      · intro spares
        by_cases dry : state.dryRun = true
        · exact .inl dry
        refine .inr fun entry member => ?_
        have some_ : plan ≠ [] := by
          rintro rfl
          cases member
        let docker : Docker :=
          { refExists := fun _ => true
            create := fun number _ => if number + 1 = 0 + plan.length then 1 else 0 }
        have present : missingStaging plan docker = [] := by simp [missingStaging, docker]
        have runs : publish docker "" state = promoteFrom docker "" 0 plan [] [] := by
          rw [publish, planned]
          simp [some_, dry, present]
        obtain ⟨exits, went⟩ := @promoteFrom_last docker "" plan 0 [] [] some_ fun _ _ => rfl
        refine spares docker "" (fun _ _ _ _ => rfl) ?_ entry ?_
        · rw [runs, exits]
          exact Nat.one_ne_zero
        · rw [runs, went]
          exact member
      · rintro (dry | last) docker workDir _ failed entry member
        · rw [publish, planned] at member
          dsimp only at member
          split_ifs at member <;> cases member
        · rw [publish, planned] at failed member
          dsimp only at failed member
          split_ifs at failed member
          · cases member
          · cases member
          · cases member
          · obtain ⟨more, went, before⟩ := promoteFrom_failed failed
            rw [went] at member
            exact last entry (before.subset member)

/-- Two registries: the first one has `latest` already when the second promotion fails. -/
def twoRegistries : State where
  version := "1.2.3"
  builds :=
    [{ variant := "full"
       isDefault := true
       tagNames := ["latest"]
       images := [⟨"ghcr.io/o/r", .ghcr, ["ghcr.io/o/r:latest"]⟩,
         ⟨"o/r", .dockerhub, ["o/r:latest"]⟩] }]

theorem failure_moves_latest : ¬ ∀ state, FailureSparesLatest state := by
  intro claimed
  have moved := claimed twoRegistries
    { refExists := fun _ => true, create := fun number _ => number } "/tmp" (fun _ _ _ _ => rfl)
    (by decide)
    ⟨"full", "ghcr.io/o/r", .ghcr, "ghcr.io/o/r:staging-1.2.3-nosha-full", ["ghcr.io/o/r:latest"]⟩
    (by decide)
  exact moved List.mem_cons_self

end MessagePusher.Release
