import MessagePusher.Scripts.Docker
import MessagePusher.Scripts.Publish

/-!
# The builds of a release

`.forgejo/scripts/build-push.mjs`: one `docker buildx build` for each variant, which pushes the
staging references. A variant whose staging references exist already is not built again.
-/

namespace MessagePusher.Scripts

open Common

/-! ### Command lines -/

/-- `platformsFor`. -/
def platformsFor (own : List String) (options : BuildOptions) : List String :=
  if own = [] then options.platforms else own

def labelArgs (labels : List KeyValue) : List String :=
  labels.flatMap fun label => ["--label", label.key ++ "=" ++ label.value]

def buildxCreateArgv (name image : String) (env : ProcessEnv) : List String :=
  ["buildx", "create", "--use", "--name", name, "--driver", "docker-container"] ++
    (if readOptional image = "" then [] else ["--driver-opt", "image=" ++ readOptional image]) ++
    (proxiesFrom env).flatMap fun proxy =>
      ["--driver-opt", "env." ++ proxy.key ++ "=" ++ proxy.value]

def buildxRemoveArgv (name : String) : List String := ["buildx", "rm", name]

/-- `buildxArgv`; `images` are the staging references, in the place of the tags of the build. The
context is always the root. -/
def buildxArgv (build : Build) (options : BuildOptions) (metadataFile builder : String)
    (images : Option (List StagingRef)) (env : ProcessEnv) : List String :=
  let tags := match images with
    | some staging => staging.map StagingRef.ref
    | none => build.images.flatMap TaggedImage.tags
  let platforms := platformsFor build.platforms options
  ["buildx", "build"] ++
    (if builder = "" then [] else ["--builder", builder]) ++
    ["--file", build.dockerfile] ++
    (if build.target = "" then [] else ["--target", build.target]) ++
    tags.flatMap (fun tag => ["--tag", tag]) ++
    labelArgs build.labels ++
    (if platforms = [] then [] else ["--platform", Text.join platforms ","]) ++
    (effectiveBuildArgs build options env).flatMap (fun arg =>
      ["--build-arg", arg.key ++ "=" ++ arg.value]) ++
    ["--provenance=false"] ++
    (if metadataFile = "" then [] else ["--metadata-file", metadataFile]) ++
    (if options.push then ["--push"] else ["--output", "type=cacheonly"]) ++
    ["."]

/-! ### The step -/

/-- What is recorded of a variant in the state file. -/
structure BuildResult where
  variant : String
  builder : String := "buildx"
  digest : String := ""
  platforms : List String := []
  staging : List String := []
  tagNames : List String := []
  images : List TaggedImage := []
  skipped : Bool := false
deriving DecidableEq

/-- How the program ends: its exit code, the results in the state file and what it reports of a
failure. -/
structure BuildOutcome where
  exitCode : Nat
  results : List BuildResult := []
  report : String := ""
deriving DecidableEq

/-- `every` over the references, up to the first one that is not there. -/
def allExist : List StagingRef → Job Bool
  | [] => return true
  | entry :: rest => do
      if ← refExists entry.ref then allExist rest else return false

/-- `stagingComplete`. -/
def stagingComplete (refs : List StagingRef) : Job Bool :=
  if refs = [] then return false else allExist refs

/-- Whether a variant is not built again. A dry run pushed nothing that could be used again. -/
def canReuse (options : BuildOptions) (force : Bool) (staging : List StagingRef) : Job Bool :=
  if options.push && !force then stagingComplete staging else return false

/-- What is recorded of a build. -/
def resultOf (build : Build) (options : BuildOptions) (staging : List StagingRef)
    (digest : String) (skipped : Bool) : BuildResult where
  variant := build.variant
  digest
  platforms := platformsFor build.platforms options
  staging := staging.map StagingRef.ref
  tagNames := build.tagNames
  images := build.images
  skipped

/-- `buildOneVariant`. -/
def buildOneVariant (build : Build) (options : BuildOptions) (env : ProcessEnv)
    (builder workDir : String) (staging : List StagingRef) : Job (Except String BuildResult) := do
  let metadataFile := workDir ++ "/metadata-" ++ build.variant ++ ".json"
  let exit ← runDocker (buildxArgv build options metadataFile builder (some staging) env)
  if exit.code ≠ 0 then
    return .error ("变体 " ++ build.variant ++ " 构建失败（docker buildx build 退出码 " ++
      toString exit.code ++ "）")
  return .ok (resultOf build options staging exit.digest false)

/-- The loop of `main` over the variants: the results so far, and the error that ended it. -/
def buildVariants (env : ProcessEnv) (state : State) (options : BuildOptions) (force : Bool)
    (builder workDir : String) :
    List Build → List BuildResult → Job (List BuildResult × Option String)
  | [], results => return (results, none)
  | build :: rest, results =>
      match stagingRefsFor build state with
      | .error text => return (results, some text)
      | .ok staging => do
          if ← canReuse options force staging then
            buildVariants env state options force builder workDir rest
              (results ++ [resultOf build options staging "" true])
          else
            match ← buildOneVariant build options env builder workDir staging with
            | .error text => return (results, some text)
            | .ok result =>
                buildVariants env state options force builder workDir rest (results ++ [result])

/-- `isTruthy`. -/
def isTruthy (engine : Engine) (value : String) : Bool :=
  ["1", "true", "yes", "on"].contains (engine.toLowerCase (readOptional value))

/-- The options of the run: a dry run pushes nothing. -/
def optionsOf (state : State) : BuildOptions :=
  if state.dryRun then { state.options with push := false } else state.options

/-- What a step runs in: its variables, its process id and its directory for temporary files. -/
structure Workplace where
  env : ProcessEnv
  fileExists : String → Bool := fun _ => false
  pid : Nat := 1
  workDir : String := "/tmp/docker"

/-- The name of the builder of the run, empty where no variant has more than one platform. -/
def builderName (place : Workplace) (state : State) : String :=
  if state.builds.any fun build => 1 < (platformsFor build.platforms state.options).length then
    "forgejo-docker-publish-" ++ toString place.pid
  else ""

def failedBuild (results : List BuildResult) (text : String) : BuildOutcome where
  exitCode := 1
  results
  report := "构建/推送失败：" ++ text ++ "\n"

/-- The builder of the run, where it needs one. -/
def createBuilder (place : Workplace) (builder : String) : Job Bool :=
  if builder = "" then return true
  else do
    let image := place.env.read "DOCKER_BUILDKIT_IMAGE"
    let created ← runDocker (buildxCreateArgv builder image place.env)
    return created.code = 0

/-- `finally`; a failure to remove the builder is only a warning. -/
def removeBuilder (builder : String) : Job Unit :=
  if builder = "" then return ()
  else do
    let _ ← runDocker (buildxRemoveArgv builder)
    return ()

/-- The rest of `main`, once the builder is there. -/
def buildWith (engine : Engine) (place : Workplace) (state : State) (builder : String) :
    Job BuildOutcome := do
  let force := isTruthy engine (place.env.read "DOCKER_FORCE_BUILD")
  let (results, failure) ← buildVariants place.env state (optionsOf state) force builder
    place.workDir state.builds []
  removeBuilder builder
  match failure with
  | some text => return failedBuild results text
  | none => return { exitCode := 0, results }

/-- `main`. -/
def buildPush (engine : Engine) (place : Workplace) (state : State) : Job BuildOutcome :=
  if state.builds = [] then
    return { exitCode := 1, report := "没有构建计划：请先运行 meta 步骤\n" }
  else do
    let docker ← probeDocker place.env place.fileExists
    if !docker.canBuild then
      return { exitCode := 1, report := "docker / buildx 不可用，无法构建（preflight 会给出前置条件清单）\n" }
    let builder := builderName place state
    if !(← createBuilder place builder) then
      return failedBuild [] ("创建 buildx builder 失败（" ++ builder ++ "）")
    buildWith engine place state builder

/-! ### The promotion, as it asks docker -/

/-- `missingStaging`. -/
def askMissing : List Promotion → Job (List String)
  | [] => return []
  | entry :: rest => do
      let found ← refExists entry.source
      let missing ← askMissing rest
      return if found then missing else entry.source :: missing

/-- Where the metadata of a promotion is written to. -/
def promotionFile (workDir : String) (entry : Promotion) : String :=
  workDir ++ "/publish-" ++ entry.variant ++ "-" ++ entry.registryId.text ++ ".json"

/-- The loop of `main` in publish. -/
def promoteAll (workDir : String) :
    List Promotion → List Promotion → List PublishResult → Job PublishOutcome
  | [], promoted, results =>
      return { exitCode := 0, promoted, results
               report := "\n发布完成：" ++ toString results.length ++ " 个变体\n" }
  | entry :: rest, promoted, results => do
      let exit ← runDocker (promotionArgv entry (promotionFile workDir entry))
      if exit.code ≠ 0 then
        return {
          exitCode := 1, promoted, results
          report := "发布失败：" ++ entry.source ++ " → " ++ Text.join entry.tags "、" ++
            "（docker buildx imagetools create 退出码 " ++ toString exit.code ++
            "）\n  已经创建的标签保持不变；修好网络/凭据后重跑 publish 作业即可，不需要重新构建。\n" }
      promoteAll workDir rest (promoted ++ [entry]) (addResult results entry exit.digest)

/-- `main` of publish. -/
def publishJob (workDir : String) (state : State) : Job PublishOutcome :=
  match publishPlan state with
  | .error text => return { exitCode := 1, report := "发布失败：" ++ text ++ "\n" }
  | .ok plan =>
      if plan = [] then
        return {
          exitCode := 1
          report := "没有可发布的镜像：请先运行 meta 步骤（检查变体表、DOCKER_META_IMAGES 与 registry 凭据）\n" }
      else if state.dryRun then
        return {
          exitCode := 0
          report := "dry run：跳过发布（构建阶段用的是 --output type=cacheonly，没有 staging 镜像）\n" }
      else do
        let missing ← askMissing plan
        if missing ≠ [] then
          return {
            exitCode := 1
            report := "找不到 staging 镜像，未发布任何最终标签：\n  " ++ Text.join missing "\n  " ++
              "\n  staging 标签由 build 作业推送：先确认它成功（重跑 build 作业时已存在的变体会自动跳过构建），" ++
              "或者 staging 标签被手工清理了 —— 用 DOCKER_FORCE_BUILD=1 可以强制重建。\n" }
        promoteAll workDir plan [] []

end MessagePusher.Scripts
