import MessagePusher.Scripts.Config

/-!
# The identity of a release

`.forgejo/scripts/resolve.mjs`: which version a run publishes, and the state file that its later
steps share. A run is started by the push of a tag or by hand, with inputs.
-/

namespace MessagePusher.Scripts

open Common

/-- An image base with the tags of a build. -/
structure TaggedImage where
  base : String
  registryId : RegistryId
  tags : List String
deriving DecidableEq

/-- The plan of one variant, as the state file has it under `builds`. -/
structure Build where
  variant : String
  suffix : String := ""
  dockerfile : String := ""
  target : String := ""
  isDefault : Bool := false
  buildArgs : List KeyValue := []
  platforms : List String := []
  tagNames : List String := []
  labels : List KeyValue := []
  images : List TaggedImage
deriving DecidableEq

/-- What was published of one variant. -/
structure PublishResult where
  variant : String
  builder : String := "imagetools"
  digest : String := ""
  published : List String := []
  images : List (String × List String) := []
deriving DecidableEq

inductive VersionSource where
  | input
  | ref
deriving DecidableEq

/-- The state file. -/
structure State where
  version : String
  tag : String := ""
  versionSource : VersionSource := .ref
  prerelease : Bool := false
  sha : String := ""
  shortSha : String := ""
  repo : String := ""
  repoName : String := ""
  serverUrl : String := ""
  runUrl : String := ""
  runNumber : String := ""
  runAttempt : String := ""
  eventName : String := ""
  refName : String := ""
  ref : String := ""
  isTagEvent : Bool := false
  isBranchEvent : Bool := false
  isPrEvent : Bool := false
  dryRun : Bool := false
  variants : List Variant := []
  registries : List Registry := []
  images : List Image := []
  options : BuildOptions := { platforms := [], buildArgs := [], dryRun := false, push := true }
  builds : List Build := []
  results : List PublishResult := []
deriving DecidableEq

/-- What a run is started with: its variables, the files it can read, and what
`readEventInputs` finds in the payload of the event. -/
structure Runner where
  env : Env
  readFile : String → Option String := fun _ => none
  eventInputs : String → Option String := fun _ => none

/-- One of the three numbers of a version, without zeros in front. -/
def isVersionNumber (part : String) : Bool :=
  part ≠ "" && part.toList.all Char.isDigit && (part = "0" || !Text.hasPrefix part "0")

/-- `SEMVER`. -/
def isSemver (version : String) : Bool :=
  let (core, rest) := version.toList.span (· ≠ '-')
  let parts := Text.split (String.ofList core) '.'
  parts.length = 3 && parts.all isVersionNumber &&
    match rest with
    | [] => true
    | _ :: suffix =>
        suffix ≠ [] && suffix.all fun char => char.isAlphanum || char = '.' || char = '-'

def stripTagPrefix (tag : String) : String :=
  Text.trimPrefix (Text.trimPrefix (trim tag) "refs/tags/") "v"

/-- `tagVersionFromRef`: what is behind `refs/tags/`, on one line. -/
def tagVersionFromRef (ref : String) : String :=
  let name := Text.trimPrefix ref "refs/tags/"
  let isLineEnd := fun char : Char => [0x0a, 0x0d, 0x2028, 0x2029].contains char.toNat
  if Text.hasPrefix ref "refs/tags/" ∧ ¬ name.toList.any isLineEnd then name else ""

/-- `UNEXPANDED_EXPRESSION`, for a text that is trimmed. -/
def isUnexpanded (raw : String) : Bool :=
  match raw.toList with
  | '$' :: '{' :: '{' :: body => (body.span (· ≠ '}')).2 = ['}', '}']
  | _ => false

variable (engine : Engine)

/-- `dispatchInput`: the variable, else what the event has. -/
def dispatchInput (runner : Runner) (name : String) : String :=
  let raw := readOptional (runner.env ("INPUT_" ++ name))
  let fromEvent := readOptional (((runner.eventInputs (engine.toLowerCase name)).orElse
    fun _ => runner.eventInputs name).getD "")
  if raw = "" ∨ isUnexpanded raw then fromEvent else raw

/-- The tag that a run publishes, before it is checked. -/
def rawTag (runner : Runner) : String :=
  let inputVersion := dispatchInput engine runner "VERSION"
  let refName := readOptional (runner.env "GITHUB_REF_NAME")
  if inputVersion ≠ "" then inputVersion
  else if refName ≠ "" then refName
  else tagVersionFromRef (readOptional (runner.env "GITHUB_REF"))

/-- The checks of `resolveRelease` on what names the release. -/
def checkTag (runner : Runner) : Except String Unit := do
  let inputVersion := dispatchInput engine runner "VERSION"
  let refName := readOptional (runner.env "GITHUB_REF_NAME")
  let ref := readOptional (runner.env "GITHUB_REF")
  let isRefTag := Text.hasPrefix ref "refs/tags/"
  if inputVersion ≠ "" ∧ isRefTag ∧ stripTagPrefix inputVersion ≠ stripTagPrefix refName then
    .error ("手工输入的版本（" ++ inputVersion ++ "）与触发 ref（" ++
      (if refName = "" then "<none>" else refName) ++ "）不一致，已中止以避免误发")
  if inputVersion = "" ∧ ¬ isRefTag ∧ tagVersionFromRef ref = "" then
    .error ("当前 ref 是 " ++ (if ref = "" then "<empty>" else ref) ++
      "，不是 tag：请推送 tag，或在 workflow_dispatch 里填写 version（要与已有 tag 的版本一致）")
  if rawTag engine runner = "" then .error "无法确定版本：GITHUB_REF_NAME 为空"
  if ¬ isSemver (stripTagPrefix (rawTag engine runner)) then
    .error ("无法从 tag 解析出合法版本号：" ++ rawTag engine runner ++
      "（需要形如 v1.2.3 或 1.2.3-rc.1 的 tag）")

/-- The variants that a run builds. -/
def selectedVariants (runner : Runner) : Except String (List Variant) := do
  let explicit := readOptional (runner.env "DOCKER_VARIANTS")
  let table ← parseVariants
    (if explicit ≠ "" then explicit else variantTableRaw runner.env runner.readFile)
  variantSelection table (dispatchInput engine runner "VARIANTS")

/-- Whether nothing is to be published. -/
def isDryRun (runner : Runner) : Bool :=
  ["1", "true", "yes", "on"].contains (engine.toLowerCase (dispatchInput engine runner "DRY_RUN"))

/-- The last part of the name of the repository. -/
def repoNameOf (runner : Runner) : String :=
  (Text.split (readOptional (runner.env "GITHUB_REPOSITORY")) '/').getLastD ""

/-- The state file of a release that was accepted. -/
def releaseState (runner : Runner) (variants : List Variant) (images : List Image)
    (options : BuildOptions) : State :=
  let read := fun name => readOptional (runner.env name)
  let ref := read "GITHUB_REF"
  let eventName := read "GITHUB_EVENT_NAME"
  { version := stripTagPrefix (rawTag engine runner)
    tag := rawTag engine runner
    versionSource := if dispatchInput engine runner "VERSION" ≠ "" then .input else .ref
    prerelease := Text.contains (stripTagPrefix (rawTag engine runner)) "-"
    sha := read "GITHUB_SHA"
    shortSha := take 7 (read "GITHUB_SHA")
    repo := read "GITHUB_REPOSITORY"
    repoName := repoNameOf runner
    serverUrl := read "GITHUB_SERVER_URL"
    runUrl := read "GITHUB_SERVER_URL" ++ "/" ++ read "GITHUB_REPOSITORY" ++ "/actions/runs/" ++
      read "GITHUB_RUN_NUMBER"
    runNumber := read "GITHUB_RUN_NUMBER"
    runAttempt := read "GITHUB_RUN_ATTEMPT"
    eventName
    refName := read "GITHUB_REF_NAME"
    ref
    isTagEvent := Text.hasPrefix ref "refs/tags/" || eventName = "workflow_dispatch"
    isBranchEvent := Text.hasPrefix ref "refs/heads/"
    isPrEvent := Text.hasPrefix ref "refs/pull/"
    dryRun := isDryRun engine runner
    variants
    registries := registriesFrom engine runner.env
    images
    options }

def resolveRelease (runner : Runner) : Except String State := do
  checkTag engine runner
  let variants ← selectedVariants engine runner
  let images ← imagesFrom engine runner.env (registriesFrom engine runner.env)
    (repoNameOf runner) (isDryRun engine runner)
  let options ← buildOptionsFrom runner.env (isDryRun engine runner)
  return releaseState engine runner variants images options

/-! ### The plan of a run: `.forgejo/scripts/matrix.mjs` -/

/-- `planMatrix`, with the table of the run. -/
def planMatrix (runner : Runner) : Except String (List Variant) := do
  let wanted := dispatchInput engine runner "VARIANTS"
  let table ← parseVariants (variantTableRaw runner.env runner.readFile)
  let variants ← variantSelection table wanted
  if variants = [] then
    .error "没有可构建的变体：检查 DOCKER_VARIANTS / variants.txt，以及本次 workflow_dispatch 的 variants 输入"
  return variants

/-- The output `variants`. -/
def variantsOutput (variants : List Variant) : String := Text.join (variants.map Variant.name) ","

/-- The output `matrix`. -/
def matrixOutput (variants : List Variant) : String :=
  "\x7b\"variant\":[" ++ Text.join (variants.map fun variant => jsonString variant.name) "," ++
    "]\x7d"

end MessagePusher.Scripts
