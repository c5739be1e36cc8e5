import MessagePusher.Scripts.Resolve

/-!
# The promotion of staged images

`.forgejo/scripts/publish.mjs`: one `docker buildx imagetools create` for each variant and image,
in the order of the state file. The program stops at the first one that fails.
-/

namespace MessagePusher.Scripts

open Common

/-- A staging reference of a build. -/
structure StagingRef where
  base : String
  registryId : RegistryId
  tag : String
  ref : String
deriving DecidableEq

/-- `stagingRefsFor`. -/
def stagingRefsFor (build : Build) (state : State) : Except String (List StagingRef) := do
  let tag ← stagingTagName state.version state.shortSha build.variant
  return build.images.map fun image =>
    { base := image.base, registryId := image.registryId, tag, ref := image.base ++ ":" ++ tag }

/-- One entry of the plan: the final tags to create from a staging reference. -/
structure Promotion where
  variant : String
  base : String
  registryId : RegistryId
  source : String
  tags : List String
deriving DecidableEq

/-- The entries of one build. -/
def buildPromotions (state : State) (build : Build) : Except String (List Promotion) := do
  let staging ← stagingRefsFor build state
  return build.images.filterMap fun image =>
    (staging.reverse.find? fun entry => entry.base = image.base).map fun entry =>
      { variant := build.variant, base := image.base, registryId := image.registryId,
        source := entry.ref, tags := image.tags }

/-- `publishPlan`. -/
def publishPlan (state : State) : Except String (List Promotion) := do
  let entries ← state.builds.mapM (buildPromotions state)
  return entries.flatten

/-- `promotionArgv`. -/
def promotionArgv (entry : Promotion) (metadataFile : String) : List String :=
  ["buildx", "imagetools", "create"] ++ entry.tags.flatMap (fun tag => ["--tag", tag]) ++
    (if metadataFile = "" then [] else ["--metadata-file", metadataFile]) ++ [entry.source]

/-- What docker does: whether a reference exists, the exit status of each promotion, and the
digest in the metadata that it wrote. -/
structure Docker where
  refExists : String → Bool
  create : Nat → List String → Nat
  digest : Nat → String := fun _ => ""

/-- `missingStaging`. -/
def missingStaging (plan : List Promotion) (docker : Docker) : List String :=
  (plan.filter fun entry => !docker.refExists entry.source).map Promotion.source

/-- How the program ends: its exit code, the promotions that went through, the results in the
state file and what it reports. -/
structure PublishOutcome where
  exitCode : Nat
  promoted : List Promotion := []
  results : List PublishResult := []
  report : String := ""
deriving DecidableEq

/-- The results with one more promotion. -/
def addResult (results : List PublishResult) (entry : Promotion) (digest : String) :
    List PublishResult :=
  let extended := fun current : PublishResult =>
    { current with
      digest := if digest = "" then current.digest else digest
      published := current.published ++ entry.tags
      images := current.images ++ [(entry.base, entry.tags)] }
  if results.any fun result => result.variant = entry.variant then
    results.map fun result => if result.variant = entry.variant then extended result else result
  else results ++ [extended { variant := entry.variant }]

/-- The loop over the plan; `step` is the number of promotions before. -/
def promoteFrom (docker : Docker) (workDir : String) :
    Nat → List Promotion → List Promotion → List PublishResult → PublishOutcome
  | _, [], promoted, results =>
      { exitCode := 0, promoted, results
        report := "\n发布完成：" ++ toString results.length ++ " 个变体\n" }
  | step, entry :: rest, promoted, results =>
      let metadataFile := workDir ++ "/publish-" ++ entry.variant ++ "-" ++ entry.registryId.text ++
        ".json"
      let status := docker.create step (promotionArgv entry metadataFile)
      if status ≠ 0 then
        { exitCode := 1, promoted, results
          report := "发布失败：" ++ entry.source ++ " → " ++ Text.join entry.tags "、" ++
            "（docker buildx imagetools create 退出码 " ++ toString status ++
            "）\n  已经创建的标签保持不变；修好网络/凭据后重跑 publish 作业即可，不需要重新构建。\n" }
      else
        promoteFrom docker workDir (step + 1) rest (promoted ++ [entry])
          (addResult results entry (docker.digest step))

/-- `main`. -/
def publish (docker : Docker) (workDir : String) (state : State) : PublishOutcome :=
  match publishPlan state with
  | .error text => { exitCode := 1, report := "发布失败：" ++ text ++ "\n" }
  | .ok plan =>
      let missing := missingStaging plan docker
      if plan = [] then
        { exitCode := 1
          report := "没有可发布的镜像：请先运行 meta 步骤（检查变体表、DOCKER_META_IMAGES 与 registry 凭据）\n" }
      else if state.dryRun then
        { exitCode := 0
          report := "dry run：跳过发布（构建阶段用的是 --output type=cacheonly，没有 staging 镜像）\n" }
      else if missing ≠ [] then
        { exitCode := 1
          report := "找不到 staging 镜像，未发布任何最终标签：\n  " ++ Text.join missing "\n  " ++
            "\n  staging 标签由 build 作业推送：先确认它成功（重跑 build 作业时已存在的变体会自动跳过构建），" ++
            "或者 staging 标签被手工清理了 —— 用 DOCKER_FORCE_BUILD=1 可以强制重建。\n" }
      else promoteFrom docker workDir 0 plan [] []

end MessagePusher.Scripts
