import MessagePusher.CommandLine.Options
import MessagePusher.Scripts.BuildArgs
import MessagePusher.Semantics.Process
import MessagePusher.Store.Cells

/-!
# Docker, and what the registries hold

The scripts start docker and look at its exit status. Docker itself is a parameter (`Cli`): how it
reads its arguments and what it does to the registries is known as far as its documentation tells
(`Cli.Documented`).
-/

namespace MessagePusher.Scripts

open Common CommandLine Semantics Store

/-- A program that a script starts. -/
structure Spawn where
  program : String
  args : List String
deriving DecidableEq

/-- What `spawnSync` returns, with no status for a program that was killed or did not start;
`digest` is what `digestFromMetadata` finds in the metadata file, if there is one. -/
structure Exit where
  status : Option Nat
  stdout : String := ""
  stderr : String := ""
  digest : String := ""
deriving DecidableEq

/-- The status that `runDocker` returns. -/
def Exit.code (exit : Exit) : Nat := exit.status.getD 1

/-- A script, by the programs that it starts. -/
abbrev Job := Process Spawn Exit

def start (program : String) (args : List String) : Job Exit := .ask ⟨program, args⟩ .done

/-- `runDocker`. -/
def runDocker (args : List String) : Job Exit := start "docker" args

def inspectArgv (ref : String) : List String := ["buildx", "imagetools", "inspect", ref]

/-- `refExists`. -/
def refExists (ref : String) : Job Bool := do
  let exit ← runDocker (inspectArgv ref)
  return exit.code = 0

/-! ### What docker documents -/

/-- An image, by the command that built it; `serial` tells apart what one command built at
different times. -/
structure Artifact where
  argv : List String
  serial : Nat
deriving DecidableEq

/-- What each reference names. -/
abbrev Refs := Cells String Artifact

/-- The commands of docker that write to registries, of those that the scripts start. -/
inductive Writer where
  | build
  | create
deriving DecidableEq

namespace Writer

def words : Writer → List String
  | .build => ["buildx", "build"]
  | .create => ["buildx", "imagetools", "create"]

/-- Its long options without a value. -/
def switches : Writer → List String
  | .build => ["check", "load", "no-cache", "pull", "push", "quiet"]
  | .create => ["append", "dry-run", "prefer-index"]

/-- Its long options that take any text. -/
def valued : Writer → List String
  | .build => ["build-arg", "builder", "file", "label", "metadata-file", "output", "platform",
      "provenance", "tag", "target"]
  | .create => ["metadata-file", "tag"]

end Writer

/-- What writes to no registry, whatever its arguments are. -/
inductive Quiet : Spawn → Prop where
  | findDocker : Quiet ⟨"sh", ["-c", "command -v docker"]⟩
  | version (args : List String) : Quiet ⟨"docker", "version" :: args⟩
  | buildxVersion : Quiet ⟨"docker", ["buildx", "version"]⟩
  | inspect (ref : String) : Quiet ⟨"docker", inspectArgv ref⟩
  | createBuilder (args : List String) : Quiet ⟨"docker", "buildx" :: "create" :: args⟩
  | removeBuilder (args : List String) : Quiet ⟨"docker", "buildx" :: "rm" :: args⟩

/-- Docker, which is not part of this repository: how its commands read their arguments, and how it
answers over the registries. -/
structure Cli where
  reader : Writer → Reader
  serves : Environment Refs Spawn Exit

/-- What the scripts rely on. A command that succeeds has reached all of its tags, one that fails
may have reached some of them. -/
structure Cli.Documented (cli : Cli) : Prop where
  options : ∀ writer, TakesOptions writer.switches writer.valued (cli.reader writer)
  quiet : ∀ {refs spawn exit after}, Quiet spawn → cli.serves refs spawn exit after → after = refs
  /-- `imagetools inspect` succeeds on nothing that does not exist. -/
  inspect : ∀ {refs ref exit after}, cli.serves refs ⟨"docker", inspectArgv ref⟩ exit after →
    exit.status = some 0 → (refs ref).isSome
  /-- With `--push` and no other output the tags get the image that is built. -/
  pushes : ∀ {args reading refs exit after}, cli.reader .build args = some reading →
    reading.has "push" = true → (∀ name ∈ ["check", "load", "output"], reading.has name = false) →
    cli.serves refs ⟨"docker", Writer.build.words ++ args⟩ exit after →
      ∃ serial, (Effect.fresh (reading.values "tag") ⟨Writer.build.words ++ args, serial⟩).Leaves
        (exit.status = some 0) refs after
  /-- The output `cacheonly` goes to no registry. -/
  cacheOnly : ∀ {args reading refs exit after}, cli.reader .build args = some reading →
    (∀ name ∈ ["check", "load", "push"], reading.has name = false) →
    reading.values "output" = ["type=cacheonly"] →
    cli.serves refs ⟨"docker", Writer.build.words ++ args⟩ exit after → after = refs
  /-- `imagetools create` from one source gives the tags what it names. -/
  creates : ∀ {args reading source refs exit after}, cli.reader .create args = some reading →
    reading.operands = [source] → (∀ name ∈ Writer.create.switches, reading.has name = false) →
    cli.serves refs ⟨"docker", Writer.create.words ++ args⟩ exit after →
      (Effect.copy source (reading.values "tag")).Leaves (exit.status = some 0) refs after

/-- Docker without failures: only the inspection of what does not exist ends with an error. -/
def Cli.working (cli : Cli) : Environment Refs Spawn Exit := fun refs spawn exit after =>
  cli.serves refs spawn exit after ∧
    (exit.status = some 0 ∨ ∃ ref, spawn = ⟨"docker", inspectArgv ref⟩ ∧ refs ref = none)

theorem Exit.code_eq_zero {exit : Exit} : exit.code = 0 ↔ exit.status = some 0 := by
  cases status : exit.status <;> simp [Exit.code, status]

/-! ### A docker that keeps to it -/

/-- What a program asks of the registries, where `read` is how it reads its arguments. -/
def plainEffect (spawn : Spawn) (serial : Nat) : Effect String Artifact :=
  if spawn.program ≠ "docker" then .idle
  else if spawn.args.take 2 = Writer.build.words then
    match read Writer.build.switches (spawn.args.drop 2) with
    | none => .idle
    | some reading =>
        if reading.has "push" then .fresh (reading.values "tag") ⟨spawn.args, serial⟩ else .idle
  else if spawn.args.take 3 = Writer.create.words then
    match read Writer.create.switches (spawn.args.drop 3) with
    | some { operands := [source], options } =>
        .copy source (Reading.values { operands := [source], options } "tag")
    | _ => .idle
  else .idle

/-- Docker with `read`, which succeeds or fails as it likes. -/
def plainCli : Cli where
  reader writer := read writer.switches
  serves refs spawn exit after :=
    (∃ serial, (plainEffect spawn serial).Leaves (exit.status = some 0) refs after) ∧
      ∀ ref, spawn = ⟨"docker", inspectArgv ref⟩ → exit.status = some 0 → (refs ref).isSome

theorem plainEffect_quiet {spawn : Spawn} (quiet : Quiet spawn) (serial : Nat) :
    plainEffect spawn serial = .idle := by
  cases quiet <;> simp [plainEffect, inspectArgv, Writer.words]

theorem plainCli_documented : plainCli.Documented where
  options := by
    intro writer
    cases writer with
    | build => exact takesOptions_read (by decide) (by decide)
    | create => exact takesOptions_read (by decide) (by decide)
  quiet := by
    rintro refs spawn exit after quiet ⟨⟨serial, leaves⟩, _⟩
    rw [plainEffect_quiet quiet] at leaves
    exact leaves.idle
  inspect := fun served succeeded => served.2 _ rfl succeeded
  pushes := by
    rintro args reading refs exit after reads pushes _ ⟨⟨serial, leaves⟩, _⟩
    have effect : plainEffect ⟨"docker", Writer.build.words ++ args⟩ serial =
        .fresh (reading.values "tag") ⟨Writer.build.words ++ args, serial⟩ := by
      have here : read Writer.build.switches args = some reading := reads
      simp [plainEffect, Writer.words, here, pushes]
    exact ⟨serial, effect ▸ leaves⟩
  cacheOnly := by
    rintro args reading refs exit after reads others _ ⟨⟨serial, leaves⟩, _⟩
    have effect : plainEffect ⟨"docker", Writer.build.words ++ args⟩ serial = .idle := by
      have here : read Writer.build.switches args = some reading := reads
      simp [plainEffect, Writer.words, here, others "push" (by decide)]
    rw [effect] at leaves
    exact leaves.idle
  creates := by
    rintro args ⟨options, operands⟩ source refs exit after reads rfl _ ⟨⟨serial, leaves⟩, _⟩
    have effect : plainEffect ⟨"docker", Writer.create.words ++ args⟩ serial =
        .copy source (Reading.values ⟨options, [source]⟩ "tag") := by
      have here : read Writer.create.switches args = some ⟨options, [source]⟩ := reads
      simp [plainEffect, Writer.words, here]
    exact effect ▸ leaves

/-! ### What the runner can do -/

/-- `hasBinary`: buildx is a command of docker, everything else is looked up on the path. -/
def hasBinary (binary : String) : Job Bool := do
  let command : Spawn := if binary = "buildx" then ⟨"docker", ["buildx", "version"]⟩
    else ⟨"sh", ["-c", "command -v " ++ binary]⟩
  let exit ← start command.program command.args
  return exit.status = some 0

/-- What `probeDocker` found; `socketPresent` is `none` where there is no socket to look for. -/
structure Probe where
  cli : Bool := false
  daemon : Bool := false
  buildx : Bool := false
  server : String := ""
  host : String := ""
  socketPath : String := ""
  socketPresent : Option Bool := none
  error : String := ""
deriving DecidableEq

/-- Whether a build can be started at all. -/
def Probe.canBuild (docker : Probe) : Bool := docker.cli && docker.daemon && docker.buildx

/-- The socket that `DOCKER_HOST` names, or the usual one. -/
def socketPathOf (host : String) : String :=
  if Text.hasPrefix host "unix://" then Text.trimPrefix host "unix://"
  else if host = "" then "/var/run/docker.sock" else ""

/-- `probeDocker`; `fileExists` is `existsSync`. -/
def probeDocker (env : ProcessEnv) (fileExists : String → Bool) : Job Probe := do
  if !(← hasBinary "docker") then return { error := "docker 命令不存在" }
  let version ← start "docker" ["version", "--format", "\x7b\x7b.Server.Version\x7d\x7d"]
  let daemon : Bool := version.status = some 0
  let host := trim ((env "DOCKER_HOST").getD "")
  let socketPath := socketPathOf host
  let buildx ← hasBinary "buildx"
  let stderr := if version.stderr = "" then "docker version 失败" else version.stderr
  return {
    cli := true
    daemon
    buildx
    server := if daemon then trim version.stdout else ""
    host
    socketPath
    socketPresent := if socketPath = "" then none else some (fileExists socketPath)
    error := if daemon then "" else trim stderr }

end MessagePusher.Scripts
