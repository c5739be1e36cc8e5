import MessagePusher.Scripts.BuildArgs
import MessagePusher.Store.KeyedList
import MessagePusher.Release.LatestOwner

/-!
# Which build argument a variant is built with

The value of a key in the arguments of a build, by where it comes from: `DOCKER_BUILD_ARGS`, the
column of the variant, what the release fills in, and the proxies. The documented order has the
column in front of what is filled in; the scripts have it behind.
-/

namespace MessagePusher.Release

open Scripts Store

/-- The value that the last of some arguments gives a key. -/
def valueIn (args : List KeyValue) (key : String) : Option String :=
  (KeyedList.lastRowOf KeyValue.key key args).map KeyValue.value

/-- The values that the arguments of a build give a key. -/
def valuesOf (args : List KeyValue) (key : String) : List String :=
  (args.filter fun arg => arg.key = key).map KeyValue.value

/-- The documented order: `DOCKER_BUILD_ARGS`, then the variant, then what comes of itself. -/
def documentedValue (dockerArgs variantArgs injected proxies : List KeyValue) (key : String) :
    Option String :=
  (valueIn dockerArgs key).or ((valueIn variantArgs key).or
    ((valueIn injected key).or (valueIn proxies key)))

variable {engine : Engine}

theorem setKey_eq_assign :
    setKey = fun entries entry => KeyedList.assign KeyValue.key entry entries := rfl

theorem addKey_eq_assignNew :
    addKey = fun entries entry => KeyedList.assignNew KeyValue.key entry entries := rfl

theorem distinctKeys_proxiesFrom (env : ProcessEnv) :
    KeyedList.DistinctKeys KeyValue.key (proxiesFrom env) := by
  refine KeyedList.DistinctKeys.filter ?_ _
  show ((proxyBuildArgs.map _).map KeyValue.key).Nodup
  rw [List.map_map]
  exact (by decide : proxyBuildArgs.Nodup)

/-- What is not filled in is named by `DOCKER_BUILD_ARGS`. -/
theorem rowOf_withDefaultBuildArgs (options : BuildOptions) (version : String) (env : ProcessEnv)
    (endpoints : Endpoints) (key : String) :
    KeyedList.lastRowOf KeyValue.key key
        (withDefaultBuildArgs engine options version env endpoints).buildArgs =
      (KeyedList.lastRowOf KeyValue.key key options.buildArgs).or
        (KeyedList.lastRowOf KeyValue.key key
          (defaultBuildArgs engine version env endpoints)) := by
  unfold withDefaultBuildArgs
  rw [KeyedList.lastRowOf_append]
  cases named : KeyedList.lastRowOf KeyValue.key key options.buildArgs with
  | some arg => rfl
  | none =>
      have absent := KeyedList.lastRowOf_eq_none_iff.mp named
      rw [Option.none_or, Option.none_or]
      refine KeyedList.lastRowOf_filter fun candidate same => ?_
      subst same
      simpa using absent

/-- The order that the two scripts come to: what is filled in hides the column of the variant. -/
theorem valuesOf_effectiveBuildArgs (options : BuildOptions) (version : String)
    (env : ProcessEnv) (endpoints : Endpoints) (build : Build) (buildEnv : ProcessEnv)
    (key : String) :
    valuesOf (effectiveBuildArgs build
        (withDefaultBuildArgs engine options version env endpoints) buildEnv) key =
      ((valueIn options.buildArgs key).or
        ((valueIn (defaultBuildArgs engine version env endpoints) key).or
          ((valueIn build.buildArgs key).or (valueIn (proxiesFrom buildEnv) key)))).toList := by
  have empty : KeyedList.DistinctKeys KeyValue.key [] := List.nodup_nil
  unfold valuesOf effectiveBuildArgs
  rw [setKey_eq_assign, addKey_eq_assignNew]
  rw [(((empty.assignAll _).assignNewAll _).assignAll _).filter_eq, KeyedList.rowOf_assignAll,
    KeyedList.rowOf_assignNewAll, KeyedList.rowOf_assignAll, rowOf_withDefaultBuildArgs,
    (distinctKeys_proxiesFrom buildEnv).rowOf_eq]
  unfold valueIn
  simp only [← Option.map_or]
  rw [← Option.toList_map, Option.or_assoc, Option.or_assoc]
  rfl

/-- The documented order holds of a key except where something else than the value of the column
is filled in for it. -/
theorem build_arg_precedence_iff (engine : Engine) (options : BuildOptions) (version : String)
    (env : ProcessEnv) (endpoints : Endpoints) (build : Build) (buildEnv : ProcessEnv)
    (key : String) :
    valuesOf (effectiveBuildArgs build
        (withDefaultBuildArgs engine options version env endpoints) buildEnv) key =
      (documentedValue options.buildArgs build.buildArgs
        (defaultBuildArgs engine version env endpoints) (proxiesFrom buildEnv) key).toList ↔
    valueIn options.buildArgs key ≠ none ∨ valueIn build.buildArgs key = none ∨
      valueIn (defaultBuildArgs engine version env endpoints) key = none ∨
      valueIn (defaultBuildArgs engine version env endpoints) key =
        valueIn build.buildArgs key := by
  rw [valuesOf_effectiveBuildArgs]
  unfold documentedValue
  cases dockerArg : valueIn options.buildArgs key with
  | some value => simp
  | none =>
      cases column : valueIn build.buildArgs key with
      | none => simp
      | some value =>
          cases filled : valueIn (defaultBuildArgs engine version env endpoints) key with
          | none => simp
          | some other => simp

/-- The column `GOPROXY=https://goproxy.cn` of a variant, on a runner with a module proxy. -/
theorem module_proxy_hides_column :
    ¬ ∀ (options : BuildOptions) version env endpoints (build : Build) buildEnv key,
      valuesOf (effectiveBuildArgs build
          (withDefaultBuildArgs plainEngine options version env endpoints) buildEnv) key =
        (documentedValue options.buildArgs build.buildArgs
          (defaultBuildArgs plainEngine version env endpoints) (proxiesFrom buildEnv)
          key).toList := by
  intro claimed
  have violated := claimed ⟨[], [], false, true⟩ "1.2.3"
    (fun name => if name = "GOPROXY" then some "https://athens.internal" else none) {}
    { variant := "alpine", buildArgs := [⟨"GOPROXY", "https://goproxy.cn"⟩], images := [] }
    (fun _ => none) "GOPROXY"
  revert violated
  decide

end MessagePusher.Release
