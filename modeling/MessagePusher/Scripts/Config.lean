import MessagePusher.Scripts.Language

/-!
# The configuration of a release

`.forgejo/scripts/config.mjs`: the variant table, the registries and the images, read from the
variables of the repository. `env` gives each variable its value and `readFile` a file its text;
an error is its message.
-/

namespace MessagePusher.Scripts

open Common

/-- The variables of a run; one that is not set is blank. -/
abbrev Env := String → String

/-- `readOptional`. -/
def readOptional (value : String) : String := trim value

/-- The built-in variant table. -/
def defaultVariants : String :=
  "alpine|Dockerfile.alpine||-alpine|false||linux/amd64,linux/arm64\n" ++
    "trixie-slim|Dockerfile.trixie-slim||-trixie-slim|true||linux/amd64,linux/arm64"

/-- `variantTableRaw`: a variable, a file or the built-in table. -/
def variantTableRaw (env : Env) (readFile : String → Option String) : String :=
  let explicit := readOptional (env "DOCKER_VARIANTS")
  let file := readOptional (env "DOCKER_VARIANTS_FILE")
  if explicit ≠ "" then explicit
  else if file = "" then defaultVariants
  else match readFile file with
    | some text => if readOptional text ≠ "" then text else defaultVariants
    | none => defaultVariants

/-- The trimmed items of a list, without blank ones and comments. -/
def items (parts : List String) : List String :=
  (parts.map trim).filter fun item => item ≠ "" ∧ ¬ Text.hasPrefix item "#"

/-- `splitList`. -/
def splitList (raw : String) : List String := items (splitAny ['\n', ',', ';'] raw)

/-- `splitLines`. -/
def splitLines (raw : String) : List String := items (Text.split raw '\n')

/-- A build argument. -/
structure KeyValue where
  key : String
  value : String
deriving DecidableEq

/-- One `KEY=VALUE`, or the error with the text in front of the item. -/
def keyValue (what item : String) : Except String KeyValue :=
  match cutEquals item with
  | some (key, value) =>
      if key = "" then .error (what ++ item) else .ok { key := trim key, value }
  | none => .error (what ++ item)

/-- `parseKeyValues`: one pair a line. -/
def parseKeyValues (raw what : String) : Except String (List KeyValue) :=
  (splitLines raw).mapM (keyValue (what ++ " 需要 KEY=VALUE 形式（每行一条），收到："))

/-! ### Variants -/

/-- `VARIANT_NAME`. -/
def isVariantName (name : String) : Bool :=
  let isAlphanumeric := fun char : Char => char.isDigit || ('a' ≤ char && char ≤ 'z')
  match name.toList with
  | first :: rest =>
      isAlphanumeric first && rest.all fun char => isAlphanumeric char || "._-".toList.contains char
  | [] => false

/-- `parseVariantBuildArgs`: the pairs of the sixth column. -/
def parseVariantBuildArgs (raw : String) : Except String (List KeyValue) :=
  (((Text.split raw ';').map trim).filter (· ≠ "")).mapM
    (keyValue "变体的构建参数需要 KEY=VALUE 形式（多条用 ; 分隔），收到：")

/-- `PLATFORM`. -/
def isPlatform (item : String) : Bool :=
  let parts := Text.split item '/'
  (parts.length = 2 || parts.length = 3) && parts.all fun part =>
    part ≠ "" && part.toList.all fun char => char.isDigit || ('a' ≤ char && char ≤ 'z')

/-- `parsePlatforms`: the platforms of a variant. -/
def parsePlatforms (raw : String) : Except String (List String) :=
  (((Text.split raw ',').map trim).filter (· ≠ "")).mapM fun item =>
    if isPlatform item then .ok item
    else .error ("平台名非法：" ++ item ++ "（应形如 linux/amd64 或 linux/arm/v7）")

/-- A variant of the image. -/
structure Variant where
  name : String
  dockerfile : String
  target : String
  suffix : String
  isDefault : Bool
  buildArgs : List KeyValue
  platforms : List String
deriving DecidableEq

/-- One line of the table, of which the names in front are known. -/
def parseVariant (seen : List String) (line : String) : Except String Variant := do
  let column := fun index => ((Text.split line '|').map trim).getD index ""
  let name := column 0
  if ¬ isVariantName name then
    .error ("变体名非法：" ++ (if name = "" then "<empty>" else name) ++
      "（只允许小写字母/数字/._-，且以字母或数字开头）")
  if name ∈ seen then .error ("变体名重复：" ++ name)
  let buildArgs ← parseVariantBuildArgs (column 5)
  let platforms ← parsePlatforms (column 6)
  return {
    name
    dockerfile := if column 1 = "" then "Dockerfile." ++ name else column 1
    target := column 2
    suffix :=
      if column 3 = "" then "-" ++ name else if column 3 = "none" then "" else column 3
    isDefault := column 4 = "true"
    buildArgs
    platforms }

/-- The loop of `parseVariants` over the lines. -/
def parseVariantLines : List String → List Variant → Except String (List Variant)
  | [], variants => .ok variants
  | line :: lines, variants => do
      let variant ← parseVariant (variants.map Variant.name) line
      parseVariantLines lines (variants ++ [variant])

/-- `parseVariants`: exactly one variant is the default one, and a lone variant is its own. -/
def parseVariants (raw : String) : Except String (List Variant) := do
  let lines := splitLines raw
  if lines = [] then .error "DOCKER_VARIANTS 为空：至少要有一个变体"
  let variants ← parseVariantLines lines []
  let flagged := variants.filter Variant.isDefault
  let names := Text.join (variants.map Variant.name) ", "
  if 1 < flagged.length then
    .error ("DOCKER_VARIANTS 里有多个变体被标记为默认（第五列为 true）：" ++
      Text.join (flagged.map Variant.name) ", ")
  if flagged.length = 0 ∧ 1 < variants.length then
    .error ("无法确定默认变体（拥有 latest 与无后缀标签的那个）：请在 DOCKER_VARIANTS 第五列给一个变体写 true（可选：" ++
      names ++ "）")
  if flagged.length = 0 then
    return variants.modifyHead fun variant => { variant with isDefault := true }
  return variants

/-- `variantSelection`: the variants that are named, all of them when none is. -/
def variantSelection (variants : List Variant) (raw : String) : Except String (List Variant) :=
  let wanted := splitList raw
  let names := variants.map Variant.name
  let unknown := wanted.filter fun name => name ∉ names
  if wanted = [] then .ok variants
  else if unknown ≠ [] then
    .error ("未知变体：" ++ Text.join unknown ", " ++ "（可选：" ++ Text.join names ", " ++ "）")
  else .ok (variants.filter fun variant => variant.name ∈ wanted)

/-! ### Tags -/

/-- A character that a tag may have. -/
def isTagChar (char : Char) : Bool := char.isAlphanum || "_.-".toList.contains char

/-- Each run of other characters becomes one `-`. -/
def collapseInvalid : Bool → List Char → List Char
  | _, [] => []
  | inside, char :: rest =>
      if isTagChar char then char :: collapseInvalid false rest
      else if inside then collapseInvalid true rest
      else '-' :: collapseInvalid true rest

/-- The name that `sanitizeTagName` arrives at before it checks it. -/
def cleanTagName (value : String) : String :=
  String.ofList ((collapseInvalid false (trimChars value.toList)).dropWhile
    fun char => char = '.' || char = '-')

/-- `sanitizeTagName`: what is left of a value in a tag. -/
def sanitizeTagName (value : String) : Except String String :=
  let name := cleanTagName value
  if name = "" then .error ("无法从 " ++ jsonString value ++ " 生成合法 tag")
  else if 128 < name.length then .error ("tag 超过 128 字符：" ++ name)
  else .ok name

/-- `stagingTagName`. -/
def stagingTagName (version shortSha variant : String) : Except String String :=
  sanitizeTagName ("staging-" ++ version ++ "-" ++ (if shortSha = "" then "nosha" else shortSha) ++
    "-" ++ variant)

/-! ### Registries and images -/

/-- The registries that are known. -/
inductive RegistryId where
  | ghcr
  | dockerhub
deriving DecidableEq

namespace RegistryId

/-- The name of a registry. -/
def text : RegistryId → String
  | .ghcr => "ghcr"
  | .dockerhub => "dockerhub"

/-- The variable with the token of a registry. -/
def tokenVar : RegistryId → String
  | .ghcr => "GHCR_TOKEN"
  | .dockerhub => "DOCKERHUB_TOKEN"

end RegistryId

/-- A registry of the run; `user` is the namespace too. -/
structure Registry where
  id : RegistryId
  user : String
  enabled : Bool
deriving DecidableEq

/-- An image base and its registry. -/
structure Image where
  base : String
  registryId : RegistryId
  preview : Bool := false
deriving DecidableEq

variable (engine : Engine)

/-- The base without scheme and slashes behind it, in lower case. -/
def plainBase (base : String) : String :=
  engine.toLowerCase (stripSlashes (stripStart ["https://", "http://"] (readOptional base)))

/-- `normalizeImageBase`: an image without its scheme, in lower case. -/
def normalizeImageBase (base : String) : Except String String := do
  let value := plainBase engine base
  if value = "" then .error "镜像名为空"
  let value := Text.trimPrefix value "docker.io/"
  let head := (Text.split value '/').headD ""
  if Text.contains head "." ∨ Text.contains head ":" then
    if head ≠ "ghcr.io" then .error ("只支持 ghcr.io 与 Docker Hub，收到：" ++ base)
    if ¬ Text.hasPrefix value "ghcr.io/" then .error ("ghcr.io 镜像名非法：" ++ base)
  let isAlphanumeric := fun char : Char => char.isDigit || ('a' ≤ char && char ≤ 'z')
  if ¬ (value.toList.head?.any isAlphanumeric ∧
      value.toList.all fun char => isAlphanumeric char || "._/-".toList.contains char) then
    .error ("镜像名非法（只允许小写字母/数字/._-）：" ++ base)
  return value

/-- `imageRegistryOf`: the registry that an image is in. -/
def imageRegistryOf (base : String) : Except String RegistryId := do
  let value ← normalizeImageBase engine base
  if Text.hasPrefix value "ghcr.io/" then return .ghcr
  if 2 ≤ (Text.split value '/').length then return .dockerhub
  .error ("镜像名需要 <命名空间>/<仓库> 形式：" ++ base)

/-- `ghcrNamespaceFrom`. -/
def ghcrNamespaceFrom (env : Env) : String :=
  let repoOwner := (Text.split (readOptional (env "GITHUB_REPOSITORY")) '/').headD ""
  let image := plainBase engine (env "GHCR_IMAGE")
  if image = "" then repoOwner
  else
    let parts := Text.split image '/'
    if parts.headD "" = "ghcr.io" then parts.getD 1 "" else parts.headD ""

/-- `registriesFrom`. -/
def registriesFrom (env : Env) : List Registry :=
  let registry := fun (id : RegistryId) (user : String) =>
    { id, user, enabled := readOptional (env id.tokenVar) ≠ "" ∧ user ≠ "" : Registry }
  [registry .ghcr (ghcrNamespaceFrom engine env),
    registry .dockerhub (readOptional (env "DOCKERHUB_USERNAME"))]

/-- An image that `DOCKER_META_IMAGES` names. -/
def explicitImage (registries : List Registry) (preview : Bool) (raw : String) :
    Except String Image := do
  let base ← normalizeImageBase engine raw
  let id ← imageRegistryOf engine base
  if ¬ registries.any (fun entry => entry.enabled && entry.id = id) ∧ ¬ preview then
    .error ("DOCKER_META_IMAGES 里的 " ++ raw ++ " 需要 " ++ id.tokenVar ++ "，但该凭据未配置")
  return { base, registryId := id }

/-- The image of an enabled registry. -/
def derivedImage (name : String) (entry : Registry) : Except String Image := do
  let host := match entry.id with
    | .ghcr => "ghcr.io/"
    | .dockerhub => ""
  let base ← normalizeImageBase engine (host ++ entry.user ++ "/" ++ name)
  return { base, registryId := entry.id }

/-- `imagesFrom`. -/
def imagesFrom (env : Env) (registries : List Registry) (repoName : String) (preview : Bool) :
    Except String (List Image) := do
  let explicit := splitList (env "DOCKER_META_IMAGES")
  if explicit ≠ [] then explicit.mapM (explicitImage engine registries preview)
  else
    let name := readOptional repoName
    if name = "" then .error "无法推导镜像名：GITHUB_REPOSITORY 为空，请设置 DOCKER_META_IMAGES"
    let images ← (registries.filter Registry.enabled).mapM (derivedImage engine name)
    let owner := (Text.split (readOptional (env "GITHUB_REPOSITORY")) '/').headD ""
    if images = [] ∧ preview ∧ owner ≠ "" then
      let base ← normalizeImageBase engine ("ghcr.io/" ++ owner ++ "/" ++ name)
      return [{ base, registryId := .ghcr, preview := true }]
    return images

/-- `buildOptionsFrom`; the context is always the root. -/
structure BuildOptions where
  platforms : List String
  buildArgs : List KeyValue
  dryRun : Bool
  push : Bool
deriving DecidableEq

/-- `buildOptionsFrom`: a dry run does not push. -/
def buildOptionsFrom (env : Env) (dryRun : Bool) : Except String BuildOptions := do
  let buildArgs ← parseKeyValues (env "DOCKER_BUILD_ARGS") "DOCKER_BUILD_ARGS"
  return { platforms := splitList (env "DOCKER_PLATFORMS"), buildArgs, dryRun, push := !dryRun }

end MessagePusher.Scripts
