import MessagePusher.Scripts.Meta

/-!
# The build arguments of a variant

What `.forgejo/scripts/resolve.mjs` fills in of its own, and how `.forgejo/scripts/build-push.mjs`
puts it together with the arguments of the variant, those of `DOCKER_BUILD_ARGS` and the proxies.
-/

namespace MessagePusher.Scripts

/-- The variables of a process, `none` where one is not set. -/
abbrev ProcessEnv := String → Option String

/-- `readOptional(env[name])`. -/
def ProcessEnv.read (env : ProcessEnv) (name : String) : String :=
  readOptional ((env name).getD "")

/-- The endpoints that were found to be mirrors, empty where one was not. -/
structure Endpoints where
  aptMirror : String := ""
  npmRegistry : String := ""

variable (engine : Engine)

/-- `envValue`: a name that is set hides its spelling in lower case, also when it is blank. -/
def envValue (env : ProcessEnv) : List String → String
  | [] => ""
  | name :: names =>
      let value := ((env name).orElse fun _ => env (engine.toLowerCase name)).getD ""
      if trim value ≠ "" then stripSlashes (trim value) else envValue env names

def goProxyFrom (env : ProcessEnv) : String := envValue engine env ["GOPROXY"]

/-- The candidates of `withDefaultBuildArgs` that have a value. -/
def defaultBuildArgs (version : String) (env : ProcessEnv) (endpoints : Endpoints) :
    List KeyValue :=
  let aptMirror := readOptional endpoints.aptMirror
  let apkRepo := env.read "APK_REPO"
  let candidates : List KeyValue :=
    [⟨"VERSION", version⟩,
      ⟨"GOPROXY", goProxyFrom engine env⟩,
      ⟨"NPM_REGISTRY", readOptional endpoints.npmRegistry⟩,
      ⟨"APT_PROXY", aptMirror⟩,
      ⟨"APK_PROXY", if apkRepo ≠ "" then apkRepo else aptMirror⟩,
      ⟨"YUM_REPO", env.read "YUM_REPO"⟩]
  candidates.filter fun arg => arg.value ≠ ""

/-- `withDefaultBuildArgs`. -/
def withDefaultBuildArgs (options : BuildOptions) (version : String) (env : ProcessEnv)
    (endpoints : Endpoints) : BuildOptions :=
  let injected := (defaultBuildArgs engine version env endpoints).filter fun candidate =>
    ¬ options.buildArgs.any fun arg => arg.key = candidate.key
  { options with buildArgs := injected ++ options.buildArgs }

/-- `PROXY_BUILD_ARGS`. -/
def proxyBuildArgs : List String := ["HTTP_PROXY", "HTTPS_PROXY", "NO_PROXY", "ALL_PROXY"]

def proxiesFrom (env : ProcessEnv) : List KeyValue :=
  (proxyBuildArgs.map fun key => ⟨key, env.read key⟩).filter fun arg : KeyValue => arg.value ≠ ""

/-- An assignment to a map that leaves the keys it has. -/
def addKey (entries : List KeyValue) (entry : KeyValue) : List KeyValue :=
  if entry.key ∈ entries.map KeyValue.key then entries else entries ++ [entry]

/-- `effectiveBuildArgs`. -/
def effectiveBuildArgs (build : Build) (options : BuildOptions) (env : ProcessEnv) :
    List KeyValue :=
  let merged := build.buildArgs.foldl setKey []
  let merged := (proxiesFrom env).foldl addKey merged
  options.buildArgs.foldl setKey merged

/-- What `main` of meta reads of its variables. -/
def metaInput (env : ProcessEnv) (now : String) : MetaInput where
  tagsRaw := (env "DOCKER_META_TAGS").getD ""
  flavorRaw := (env "DOCKER_META_FLAVOR").getD ""
  labelsRaw := (env "DOCKER_META_LABELS").getD ""
  now

end MessagePusher.Scripts
