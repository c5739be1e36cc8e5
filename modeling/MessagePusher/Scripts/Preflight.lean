import MessagePusher.Scripts.BuildPush

/-!
# The steps before a build

`.forgejo/scripts/preflight.mjs` checks what can be found out without the registries, and an error
ends the run; what it tells of architectures is from `.forgejo/scripts/prepare.mjs`.
`.forgejo/scripts/login.mjs` logs in to each registry that is enabled.
-/

namespace MessagePusher.Scripts

open Common Semantics

variable (engine : Engine)

/-! ### The architectures of a run -/

/-- `ARCH_ALIASES`. -/
def archAliases : List (String × String) :=
  [("x86_64", "amd64"), ("amd64", "amd64"), ("x64", "amd64"), ("aarch64", "arm64"),
    ("arm64", "arm64"), ("armv7l", "arm"), ("armv6l", "arm"), ("i386", "386"), ("i686", "386"),
    ("ia32", "386")]

/-- `normalizeArch`. -/
def normalizeArch (machine : String) : String :=
  let value := engine.toLowerCase (readOptional machine)
  (archAliases.lookup value).getD value

/-- `archesOf`: the second part of each platform, where it has one. -/
def archesOf (platforms : List String) : List String :=
  ((platforms.map fun platform =>
    normalizeArch engine ((Text.split platform '/').getD 1 "")).eraseDups).filter
    (· ≠ "")

/-- `binfmtHandler`. -/
def binfmtHandler (arch : String) : String :=
  if arch = "amd64" then "qemu-x86_64"
  else if arch = "386" then "qemu-i386"
  else if arch = "arm64" then "qemu-aarch64"
  else "qemu-" ++ arch

/-- `BINFMT_ROOT`. -/
def binfmtRoot : String := "/proc/sys/fs/binfmt_misc"

/-- Whether the kernel has a handler. -/
def hasHandler (fileExists : String → Bool) (arch : String) : Bool :=
  fileExists (binfmtRoot ++ "/" ++ binfmtHandler arch)

/-! ### The checks -/

/-- `normalize` of a path, as `join` ends with it. -/
def normalizePath (path : String) : String :=
  let step := fun (done : List String) (part : String) =>
    if part = "" ∨ part = "." then done
    else if part ≠ ".." then done ++ [part]
    else match done.getLast? with
      | some last => if last = ".." then done ++ [part] else done.dropLast
      | none => if Text.hasPrefix path "/" then done else done ++ [part]
  let text := Text.join ((Text.split path '/').foldl step []) "/"
  let slash := path.toList.getLast? = some '/'
  if Text.hasPrefix path "/" then
    if text = "" then "/" else "/" ++ text ++ (if slash then "/" else "")
  else if text = "" then (if slash then "./" else ".")
  else text ++ (if slash then "/" else "")

/-- The file of a build; the context is always the root. -/
def dockerfilePath (build : Build) : String :=
  if Text.hasPrefix build.dockerfile "/" then build.dockerfile
  else normalizePath ("./" ++ build.dockerfile)

/-- `DOCKER_HELP`. -/
def dockerHelp : String := Text.join [
  "runner 侧检查清单：",
  "  1) 默认接法（job 容器 = docker:dind）：在 runner 配置里打开 privileged，然后**重启 runner**：",
  "       container:",
  "         privileged: true",
  "     dind 需要 privileged，而 workflow 里的 `options: --privileged` 会被 runner 忽略（权限只能由 runner 侧给）。",
  "  2) daemon 由 runner 提供：设置 container.docker_host: automount，或用仓库变量 DOCKER_HOST 指向可达的 daemon；",
  "     这两种接法都不需要 volume 挂载，也不需要 valid_volumes。",
  "  3) job 容器里必须有 docker CLI 与 buildx：默认 docker:dind / docker:cli 自带；换镜像时 prepare 会尝试补装，",
  "     失败时打印可用的安装方式。",
  "  4) 只用 `docker buildx build`（没有经典构建回退）：缺 CLI / daemon / buildx 都会在构建前失败。"] "\n"

/-- `dockerUnreachableReason`. -/
def dockerUnreachableReason (docker : Probe) : String :=
  match docker.socketPresent with
  | some false =>
      "容器内看不到 " ++ docker.socketPath ++ "：说明 dockerd 没有起来（prepare 会尝试启动它），" ++
        "或 daemon 不在默认路径（用 DOCKER_HOST / container.docker_host 指定）"
  | some true =>
      docker.socketPath ++ " 存在但守护进程不可达：检查 dockerd 日志与权限（清单第 1 条）"
  | none => "DOCKER_HOST=" ++ (if docker.host = "" then "<unset>" else docker.host) ++ " 不可达"

/-- What the runner is, for the checks: its docker, its files and its architecture. -/
structure Machine where
  docker : Probe
  fileExists : String → Bool
  arch : String

/-- What the checks found. -/
structure Findings where
  errors : List String
  warnings : List String
  builds : List Build
deriving DecidableEq

/-- `missingBinfmt`. -/
def missingBinfmt (machine : Machine) (platforms : List String) : List String :=
  (archesOf engine platforms).filter fun arch =>
    arch ≠ normalizeArch engine machine.arch && !hasHandler machine.fileExists arch

/-- `missingDockerfiles`. -/
def missingDockerfiles (builds : List Build) (fileExists : String → Bool) : List String :=
  (builds.filter fun build => !fileExists (dockerfilePath build)).map fun build =>
    build.variant ++ ": " ++ dockerfilePath build

/-- The credentials of which a part is missing. -/
def halfConfigured (state : State) (env : ProcessEnv) : List String :=
  let enabled := state.registries.filter Registry.enabled
  let ghcrUser := ((enabled.find? fun entry => entry.id = .ghcr).map Registry.user).getD ""
  (if env.read "DOCKERHUB_TOKEN" ≠ "" ∧ env.read "DOCKERHUB_USERNAME" = "" then ["DOCKERHUB_TOKEN"]
    else []) ++
    (if env.read "GHCR_TOKEN" ≠ "" ∧ ghcrUser = "" then ["GHCR_TOKEN"] else [])

/-- Whether the step only publishes, which takes no daemon. -/
def publishOnly (env : ProcessEnv) : Bool := env.read "DOCKER_STEP" = "publish"

/-- The errors of the registries and images. -/
def registryErrors (state : State) (env : ProcessEnv) : List String :=
  let half := halfConfigured state env
  (if half ≠ [] then
    [Text.join half " / " ++ " 配置不完整：Docker Hub 需要 DOCKERHUB_USERNAME + DOCKERHUB_TOKEN，" ++
      "ghcr.io 需要 GHCR_IMAGE（或仓库 owner）与 GHCR_TOKEN"] else []) ++
    (if state.registries.filter Registry.enabled = [] ∧ ¬ state.dryRun then
      ["没有可用的 registry 凭据：请至少配置 GHCR_TOKEN，或 DOCKERHUB_USERNAME + DOCKERHUB_TOKEN" ++
        "（这两个是 Secrets，也可以放 Variables）"] else []) ++
    (if state.images = [] ∧ ¬ state.dryRun then
      ["没有任何镜像要发布（检查 registry 凭据与 DOCKER_META_IMAGES）"] else [])

/-- The errors of the files of the builds. -/
def dockerfileErrors (machine : Machine) (builds : List Build) : List String :=
  let missing := missingDockerfiles builds machine.fileExists
  if missing ≠ [] then
    ["找不到变体的 Dockerfile：" ++ Text.join missing "、" ++ "（构建上下文 .）"] else []

/-- The errors of docker. -/
def dockerErrors (docker : Probe) (publishes : Bool) : List String :=
  if !docker.cli then ["runner 里没有 docker 命令：" ++ docker.error ++ "\n" ++ dockerHelp]
  else if !publishes && !docker.daemon then
    ["连不上 Docker 守护进程：" ++ dockerUnreachableReason docker ++ "\n" ++
      "docker version 的原始报错：" ++ (if docker.error = "" then "unknown" else docker.error) ++
      "\n" ++ dockerHelp]
  else if !docker.buildx then
    ["runner 里没有 docker buildx：本 Action 只用 `docker buildx build`（发布用 `buildx imagetools create`，" ++
      "没有经典构建回退）。\n" ++ dockerHelp]
  else []

/-- The platforms that the builds ask for. -/
def buildPlatforms (state : State) (builds : List Build) : List String :=
  (builds.flatMap fun build => platformsFor build.platforms state.options).eraseDups

/-- What is worth a warning only. -/
def preflightWarnings (state : State) (env : ProcessEnv) (machine : Machine) (builds : List Build) :
    List String :=
  let foreign := if publishOnly env then []
    else missingBinfmt engine machine (buildPlatforms state builds)
  (if state.registries.filter Registry.enabled = [] ∧ state.dryRun then
    ["dry run 且没有任何 registry 凭据：只验证构建，不会推送"] else []) ++
    (if builds ≠ [] ∧ foreign ≠ [] then
      ["本次构建需要 " ++ Text.join foreign "、" ++
        " 的 QEMU 处理器，但 /proc/sys/fs/binfmt_misc 里没有对应条目：" ++
        "跨架构的 RUN 步骤可能报 \"exec format error\"（prepare 会尝试注册；宿主已有 binfmt 时请忽略）"]
      else []) ++
    (if state.dryRun then ["dry run：不登录、不推送，只验证构建（--output type=cacheonly）"] else [])

/-- The findings, with what the plan of the builds comes to. -/
def findingsOf (state : State) (env : ProcessEnv) (machine : Machine) :
    Except String (List Build) → Findings
  | .ok builds => {
      errors := registryErrors state env ++ dockerfileErrors machine builds ++
        dockerErrors machine.docker (publishOnly env)
      warnings := preflightWarnings engine state env machine builds
      builds }
  | .error text => {
      errors := registryErrors state env ++ [text] ++ dockerErrors machine.docker (publishOnly env)
      warnings := preflightWarnings engine state env machine []
      builds := [] }

/-- `preflightChecks`; the time goes into the labels of its builds. -/
def preflightChecks (state : State) (env : ProcessEnv) (machine : Machine) (now : String) :
    Findings :=
  findingsOf engine state env machine (computeBuilds engine state (metaInput env now))

/-! ### The logins -/

/-- The host of a registry. -/
def RegistryId.registry : RegistryId → String
  | .ghcr => "ghcr.io"
  | .dockerhub => "docker.io"

/-- A `docker login`, with what it is given on its input. -/
structure LoginCall where
  args : List String
  input : String
deriving DecidableEq

def loginArgv (entry : Registry) : List String :=
  ["login", entry.id.registry, "-u", entry.user, "--password-stdin"]

/-- `planLogins`; the name of the variable with the token goes with the registry. -/
def planLogins (state : State) : List Registry := state.registries.filter Registry.enabled

/-- `process.env[entry.tokenVar] || ''`. -/
def tokenOf (env : ProcessEnv) (entry : Registry) : String := (env entry.id.tokenVar).getD ""

/-- `HINTS`. -/
def loginHint : RegistryId → String
  | .ghcr => "ghcr.io 需要 GitHub PAT（classic 勾选 write:packages，或 fine-grained 勾选 Packages: write）；" ++
      "镜像名用 GHCR_IMAGE（用户名即命名空间）"
  | .dockerhub => "Docker Hub 需要 access token（不是账号密码）；用户名填 DOCKERHUB_USERNAME"

/-- The exit code, and what is reported of a failure. -/
structure LoginOutcome where
  exitCode : Nat
  report : String := ""
deriving DecidableEq

/-- The loop of `main` over the plan. -/
def loginAll (env : ProcessEnv) : List Registry → Process LoginCall Exit LoginOutcome
  | [] => return { exitCode := 0 }
  | entry :: rest =>
      let token := tokenOf env entry
      if token = "" then
        return { exitCode := 1, report := "登录失败：缺少凭据：" ++ entry.id.tokenVar ++ "\n" }
      else do
        let exit ← Process.ask ⟨loginArgv entry, token ++ "\n"⟩ .done
        if exit.code ≠ 0 then
          let stderr := trim exit.stderr
          return {
            exitCode := 1
            report := "登录 " ++ entry.id.registry ++ " 失败：" ++
              (if stderr = "" then "退出码 " ++ toString exit.code else stderr) ++ "\n提示：" ++
              loginHint entry.id ++ "\n" }
        loginAll env rest

/-- `main`. -/
def login (env : ProcessEnv) (state : State) : Process LoginCall Exit LoginOutcome :=
  if state.dryRun then return { exitCode := 0 }
  else if planLogins state = [] then
    return { exitCode := 1, report := "没有启用的 registry，无法推送\n" }
  else loginAll env (planLogins state)

end MessagePusher.Scripts
