import MessagePusher.JsonText.OwnMembers
import MessagePusher.Scripts.Resolve
import Mathlib.Data.List.Sort

/-!
# The tags of a release

`.forgejo/scripts/meta.mjs`: from the tag rules, the flavor and the state file to one plan for each
variant. A rule contributes at most one tag to the set that all variants share.
-/

namespace MessagePusher.Scripts

open Common
open JsonText (keyRank)

/-- `DEFAULT_TAGS`. -/
def defaultTags : String :=
  "type=ref,event=tag\ntype=semver,pattern=\x7b\x7bversion\x7d\x7d\n" ++
    "type=semver,pattern=\x7b\x7bmajor\x7d\x7d.\x7b\x7bminor\x7d\x7d\ntype=sha"

/-- `DEFAULT_FLAVOR`. -/
def defaultFlavor : String := "latest=auto"

/-- The types of rules. -/
inductive RuleType where
  | semver
  | ref
  | sha
  | raw
  | match_
deriving DecidableEq

/-- `PRIORITY`. -/
def RuleType.priority : RuleType → Number
  | .semver => .ofInt 900
  | .ref => .ofInt 600
  | .sha => .ofInt 100
  | .raw => .ofInt 200
  | .match_ => .ofInt 800

/-- The supported types, and the error for any other. -/
def RuleType.ofText (type : String) : Except String RuleType :=
  if type = "semver" then .ok .semver
  else if type = "ref" then .ok .ref
  else if type = "sha" then .ok .sha
  else if type = "raw" then .ok .raw
  else if type = "match" then .ok .match_
  else if type ∈ ["schedule", "pep440", "edge"] then
    .error ("DOCKER_META_TAGS 暂未实现 type=" ++ type ++ "（本 Action 只实现 semver/ref/sha/raw/match）")
  else .error ("未知的 tag 规则 type：" ++ type)

/-- The attributes of a rule, the newest in front. -/
abbrev Attrs := List (String × String)

/-- A rule: its type, its attributes in the order of the line, and the line. -/
structure Rule where
  type : RuleType
  attrs : Attrs
  line : String
deriving DecidableEq

/-- The value of an attribute, if it has one. -/
def Rule.attr? (rule : Rule) (key : String) : Option String := rule.attrs.lookup key

/-- The value of an attribute, the empty string when it has none. -/
def Rule.attr (rule : Rule) (key : String) : String := (rule.attr? key).getD ""

/-! ### Expressions -/

/-- `findExpressions`. -/
def findExpressions (text : String) : List String := (expressionsFrom 0 text.toList).eraseDups

/-- Tokens as they are shown in an error. -/
def bracedTokens (tokens : List String) (separator : String) : String :=
  Text.join (tokens.map fun token => "\x7b\x7b" ++ token ++ "\x7d\x7d") separator

/-- `assertSupportedExpressions`: the first word of each expression has to be allowed. -/
def assertSupportedExpressions (text : String) (allowed : List String) (location : String) :
    Except String Unit :=
  let word := fun token : String => String.ofList (token.toList.takeWhile fun c => !isSpace c)
  let bad := (findExpressions text).filter fun token => word token ∉ allowed
  if bad ≠ [] then
    .error (location ++ " 使用了未实现的表达式：" ++ bracedTokens bad ", " ++
      "（本 Action 只实现 " ++ bracedTokens allowed "、" ++ "）")
  else .ok ()

/-- What a rule may refer to. -/
structure Context where
  branch : String
  tag : String
  sha : String
  fullSha : String
  ref : String
  isTagEvent : Bool
  isBranchEvent : Bool
  isPrEvent : Bool
  isPrerelease : Bool
deriving DecidableEq

/-- `renderExpression`. -/
def renderExpression (template : String) (ctx : Context) : String :=
  let value := fun name =>
    [("branch", ctx.branch), ("tag", ctx.tag), ("sha", ctx.sha)].lookup name
  String.ofList (replaceExpressions value 0 template.toList)

/-! ### Rules and flavor -/

/-- What the first part of a line assigns. -/
def firstAttrs (first : String) : Attrs :=
  if Text.hasPrefix first "type=" then [("type", trim (Text.trimPrefix first "type="))]
  else match cutEquals first with
    | some (key, value) => [(trim key, trim value)]
    | none => [("value", first), ("type", "raw")]

/-- What a further part of a line assigns. -/
def partAttr (part : String) : Except String (String × String) :=
  let refused := .error ("DOCKER_META_TAGS 的分段需要 key=value：" ++ part)
  match cutEquals part with
  | some (key, value) => if key = "" then refused else .ok (trim key, trim value)
  | none => refused

/-- `parseTagRule`, for one line. -/
def parseTagRule (line : String) : Except String Rule := do
  let parts := Text.split line ','
  let assigned ← parts.tail.mapM partAttr
  let attrs := assigned.reverse ++ firstAttrs (trim (parts.headD ""))
  let given := (attrs.lookup "type").getD ""
  let type ← RuleType.ofText (if given = "" then "raw" else given)
  let enable := (attrs.lookup "enable").getD ""
  if enable ∉ ["", "true", "false"] then
    .error ("tag 规则的 enable 只支持 true/false，收到：" ++ enable)
  return { type, attrs, line }

/-- `parseTagRules`: one rule at least. -/
def parseTagRules (raw : String) : Except String (List Rule) :=
  let lines := items (splitAny ['\n', ';'] raw)
  if lines = [] then .error "DOCKER_META_TAGS 为空：至少要有一条规则"
  else lines.mapM parseTagRule

/-- What goes around every tag, and when there is a `latest`. -/
structure Flavor where
  latest : String := "auto"
  start : String := ""
  suffix : String := ""
  onlatest : Bool := false
deriving DecidableEq

/-- The text of a flavor `prefix` or `suffix`, and what its flags make of `onlatest`. -/
def flavorText (key value : String) (onlatest : Bool) : Except String (String × Bool) := do
  let parts := Text.split value ','
  let onlatest ← parts.tail.foldlM (fun _ flag => do
    let (flagKey, flagValue) := (cutEquals flag).getD (flag, "")
    if trim flagKey ≠ "onlatest" then
      .error ("flavor " ++ key ++ " 只支持 onlatest 附加项，收到：" ++ trim flagKey)
    return decide (trim flagValue = "true")) onlatest
  return (trim (parts.headD ""), onlatest)

/-- One item of the flavor. -/
def flavorItem (flavor : Flavor) (item : String) : Except String Flavor := do
  let (key, value) := (cutEquals item).getD (item, "")
  let key := trim key
  let value := trim value
  if key = "latest" then
    if value ∉ ["auto", "true", "false"] then
      .error ("flavor latest 只支持 auto/true/false，收到：" ++ value)
    return { flavor with latest := value }
  else if key = "prefix" then
    let (start, onlatest) ← flavorText key value flavor.onlatest
    return { flavor with start, onlatest }
  else if key = "suffix" then
    let (suffix, onlatest) ← flavorText key value flavor.onlatest
    return { flavor with suffix, onlatest }
  else if key = "onlatest" then return { flavor with onlatest := value = "true" }
  else .error ("未知的 flavor 项：" ++ key)

/-- `parseFlavor`: a later item overrides an earlier one. -/
def parseFlavor (raw : String) : Except String Flavor :=
  (items (splitAny ['\n', ';'] raw)).foldlM flavorItem {}

/-! ### The tag of a rule -/

/-- `expandSemverPattern`. -/
def expandSemverPattern (pattern version raw : String) (isPrerelease : Bool) : String :=
  let text := if pattern = "" then "\x7b\x7bversion\x7d\x7d" else pattern
  let numbers := Text.split ((Text.split version '-').headD "") '.'
  let value := fun name =>
    [("raw", raw), ("version", version), ("major", numbers.getD 0 ""),
      ("minor", numbers.getD 1 ""), ("patch", numbers.getD 2 "")].lookup name
  if isPrerelease ∧ ¬ hasExpression ["version", "raw"] text then ""
  else String.ofList (replaceExpressions value 0 text.toList)

/-- A ref without what says whether it is a branch or a tag. -/
def shortRef (ref : String) : String := stripStart ["refs/heads/", "refs/tags/"] ref

/-- The number of a pull request in its ref. -/
def pullNumber (ref : String) : String :=
  let (digits, rest) := (Text.trimPrefix ref "refs/pull/").toList.span Char.isDigit
  if Text.hasPrefix ref "refs/pull/" ∧ rest.head? = some '/' then String.ofList digits else ""

/-- The index that `Number.parseInt` reads, unless there is no such group. -/
def groupIndex (group : String) : Option Nat :=
  let read := fun digits => (Text.digits? (digits.takeWhile Char.isDigit))
  match group.toList with
  | '-' :: digits => (read digits).filter (· = 0)
  | '+' :: digits => read digits
  | digits => read digits

/-- The test at the start of a version: three numbers with dots between them. -/
def startsWithNumbers (version : String) : Bool :=
  let number := fun chars : List Char => chars.span Char.isDigit
  match number version.toList with
  | (_ :: _, '.' :: rest) =>
      match number rest with
      | (_ :: _, '.' :: rest) => (number rest).1 ≠ []
      | _ => false
  | _ => false

variable (engine : Engine)

/-- `ruleTagName`. -/
def ruleTagName (rule : Rule) (ctx : Context) : Except String String :=
  let render := fun key => renderExpression (rule.attr key) ctx
  let prefixOr := fun default => if rule.attr? "prefix" = none then default else render "prefix"
  let valueOrTag := if render "value" = "" then ctx.tag else render "value"
  match rule.type with
  | .raw => .ok (render "value")
  | .sha =>
      let base :=
        if rule.attr? "format" = some "long" then
          if ctx.fullSha = "" then ctx.sha else ctx.fullSha
        else take 7 ctx.sha
      .ok (prefixOr "sha-" ++ base)
  | .ref =>
      let event := if rule.attr "event" = "" then "branch" else rule.attr "event"
      if event = "pr" then
        if ctx.isPrEvent ∧ pullNumber ctx.ref ≠ "" then .ok (prefixOr "pr-" ++ pullNumber ctx.ref)
        else .ok ""
      else if event = "tag" then
        if ctx.isTagEvent then .ok (render "prefix" ++ ctx.tag ++ render "suffix") else .ok ""
      else if event = "branch" then
        if ctx.isBranchEvent then .ok (render "prefix" ++ shortRef ctx.ref ++ render "suffix")
        else .ok ""
      else .error ("tag 规则的 ref event 只支持 branch/tag/pr，收到：" ++ event)
  | .match_ =>
      if rule.attr "pattern" = "" then .error "type=match 需要 pattern"
      else do
        let find ← engine.regExp (rule.attr "pattern")
        let group := groupIndex (if rule.attr "group" = "" then "0" else rule.attr "group")
        return (((find valueOrTag).bind fun groups =>
          group.bind fun index => groups.getD index none).getD "")
  | .semver =>
      let semverValue := Text.trimPrefix valueOrTag "v"
      let expanded := fun version =>
        if startsWithNumbers version then
          expandSemverPattern (rule.attr "pattern") version valueOrTag (Text.contains version "-")
        else ""
      if rule.attr "match" = "" then .ok (expanded semverValue)
      else do
        let find ← engine.regExp (rule.attr "match")
        match find semverValue with
        | none => return ""
        | some groups => return expanded ((groups.getD 1 none).getD semverValue)

/-! ### The tags that the variants share -/

/-- A tag that is shared by the variants, with its priority. -/
structure Tag where
  name : String
  priority : Number
  isLatest : Bool := false
deriving DecidableEq

/-- Whether a rule is one whose tags `latest` may follow. -/
def Rule.isLatestCapable (rule : Rule) : Bool :=
  rule.type = .semver || rule.type = .match_ || (rule.type = .ref && rule.attr "event" = "tag")

/-- The priority of a rule, else that of its type. -/
def Rule.priority (rule : Rule) : Number :=
  match rule.attr? "priority" with
  | some priority => engine.number priority
  | none => rule.type.priority

/-- The tag that a rule adds: sanitized, with the flavor around it. -/
def ruleTag (flavor : Flavor) (ctx : Context) (rule : Rule) : Except String (Option String) := do
  if rule.attr? "enable" = some "false" then return none
  let name ← ruleTagName engine rule ctx
  if name = "" then return none
  let name := renderExpression (rule.attr "prefix") ctx ++ name ++
    renderExpression (rule.attr "suffix") ctx
  let clean ← sanitizeTagName (flavor.start ++ name ++ flavor.suffix)
  return some clean

/-- The priority that a rule's tag is added with. -/
def Rule.rank (rule : Rule) : Number :=
  if (rule.priority engine).isFinite then rule.priority engine else .ofInt 0

/-- The priority of `latest` after a rule that adds its tag. -/
def Rule.latestAfter (rule : Rule) (ctx : Context) (latestFrom : Option Number) : Option Number :=
  if rule.isLatestCapable ∧ ¬ ctx.isPrerelease then
    some (latestFrom.elim (rule.priority engine) fun latest => latest.max (rule.priority engine))
  else latestFrom

/-- `collected.set`, where a tag of the same name does not outrank this one. -/
def addTag (collected : List Tag) (tag : Tag) : List Tag :=
  match collected.find? fun existing => existing.name = tag.name with
  | some existing =>
      if existing.priority.le tag.priority then
        collected.map fun other => if other.name = tag.name then tag else other
      else collected
  | none => collected ++ [tag]

/-- The loop of `generateTags`: the tags of the rules, and the priority that `latest` gets. -/
def collectTags (flavor : Flavor) (ctx : Context) :
    List Rule → List Tag → Option Number → Except String (List Tag × Option Number)
  | [], collected, latestFrom => .ok (collected, latestFrom)
  | rule :: rules, collected, latestFrom => do
      match ← ruleTag engine flavor ctx rule with
      | none => collectTags flavor ctx rules collected latestFrom
      | some name =>
          collectTags flavor ctx rules (addTag collected { name, priority := rule.rank engine })
            (rule.latestAfter engine ctx latestFrom)

/-- The name under which `latest` is added. -/
def latestName (flavor : Flavor) : Except String String :=
  sanitizeTagName (if flavor.onlatest then flavor.start ++ "latest" ++ flavor.suffix else "latest")

/-- The order of the tags: the highest priority first, then by name. -/
def comesBefore (left right : Tag) : Bool :=
  right.priority.lt left.priority ||
    (!left.priority.lt right.priority && engine.localeCompare left.name right.name ≤ 0)

/-- The tags with `latest`, where a rule asked for it and the flavor does not refuse it. -/
def withLatest (flavor : Flavor) (collected : List Tag) (latestFrom : Option Number) :
    Except String (List Tag) :=
  match latestFrom with
  | none => .ok collected
  | some priority =>
      if flavor.latest = "false" then .ok collected
      else do
        let name ← latestName flavor
        return addTag collected { name, priority, isLatest := true }

/-- `generateTags`. Where a priority is not a number the order of the tags is up to the engine. -/
def generateTags (rules : List Rule) (flavor : Flavor) (ctx : Context) :
    Except String (List Tag) := do
  let (collected, latestFrom) ← collectTags engine flavor ctx rules [] none
  let all ← withLatest flavor collected latestFrom
  return all.insertionSort fun left right => comesBefore engine left right

/-! ### The plans -/

/-- `variantTagNames`. -/
def variantTagNames (baseTags : List Tag) (variant : Variant) (isTagEvent : Bool) :
    Except String (List String) := do
  let suffixed := (baseTags.filter fun tag => !tag.isLatest).map fun tag =>
    tag.name ++ variant.suffix
  let names := if variant.isDefault then baseTags.map Tag.name ++ suffixed else suffixed
  let clean ← (if isTagEvent then names ++ [variant.name] else names).mapM sanitizeTagName
  return clean.eraseDups

/-- `Map.prototype.set`: in the place of the key, or behind the others. -/
def setKey (entries : List KeyValue) (entry : KeyValue) : List KeyValue :=
  if entry.key ∈ entries.map KeyValue.key then
    entries.map fun other => if other.key = entry.key then entry else other
  else entries ++ [entry]

/-- One assignment of a text to an object. The assignment to `__proto__` has no effect. -/
def setLabel (labels : List KeyValue) (label : KeyValue) : List KeyValue :=
  if label.key = "__proto__" then labels else setKey labels label

/-- `Object.entries`: the keys that are array indices come first, in their order. -/
def objectEntries (labels : List KeyValue) : List KeyValue :=
  labels.insertionSort fun first second => keyRank first.key ≤ keyRank second.key

/-- `buildLabels`, as the entries of its object. -/
def buildLabels (state : State) (custom : List KeyValue) (now : String) : List KeyValue :=
  let url := (state.serverUrl ++ "/" ++ state.repo).toList.dropWhile (· = '/')
  let source := String.ofList url
  objectEntries <| custom.foldl setLabel
    [⟨"org.opencontainers.image.created", now⟩,
      ⟨"org.opencontainers.image.revision", state.sha⟩,
      ⟨"org.opencontainers.image.version", state.version⟩,
      ⟨"org.opencontainers.image.source", source⟩,
      ⟨"org.opencontainers.image.url", source⟩,
      ⟨"org.opencontainers.image.title", state.repoName⟩]

/-- The context of the rules in a release. -/
def State.context (state : State) : Context where
  branch := if state.isBranchEvent then shortRef state.ref else ""
  tag := if state.isTagEvent then state.tag else ""
  sha := state.shortSha
  fullSha := state.sha
  ref := state.ref
  isTagEvent := state.isTagEvent
  isBranchEvent := state.isBranchEvent
  isPrEvent := state.isPrEvent
  isPrerelease := state.prerelease

/-- The plan of one variant. -/
def planBuild (state : State) (baseTags : List Tag) (labels : List KeyValue) (variant : Variant) :
    Except String Build := do
  let tagNames ← variantTagNames baseTags variant state.isTagEvent
  return {
    variant := variant.name
    suffix := variant.suffix
    dockerfile := variant.dockerfile
    target := variant.target
    isDefault := variant.isDefault
    buildArgs := variant.buildArgs
    platforms := variant.platforms
    tagNames
    labels
    images := state.images.map fun image =>
      ⟨image.base, image.registryId, tagNames.map fun name => image.base ++ ":" ++ name⟩ }

/-- `planBuilds`. -/
def planBuilds (state : State) (rules : List Rule) (flavor : Flavor) (customLabels : List KeyValue)
    (now : String) : Except String (List Build) := do
  let baseTags ← generateTags engine rules flavor state.context
  if baseTags = [] then
    .error "DOCKER_META_TAGS 在当前 ref 下没有产出任何 tag（检查 type=ref 的 event 与 tag 规则）"
  state.variants.mapM (planBuild state baseTags (buildLabels state customLabels now))

/-- A tag that two variants have. -/
structure Duplicate where
  tag : String
  variants : String × String
deriving DecidableEq

/-- The loop of `findDuplicateTags` over pairs of a variant and a tag; `seen` has the first variant
of each tag. -/
def duplicatesFrom : List (String × String) → List (String × String) → List Duplicate
  | [], _ => []
  | (variant, name) :: rest, seen =>
      match seen.lookup name with
      | some first =>
          if first ≠ variant then ⟨name, (first, variant)⟩ :: duplicatesFrom rest seen
          else duplicatesFrom rest ((name, variant) :: seen)
      | none => duplicatesFrom rest ((name, variant) :: seen)

/-- `findDuplicateTags`: the tags that two builds have in common. -/
def findDuplicateTags (builds : List Build) : List Duplicate :=
  duplicatesFrom (builds.flatMap fun build => build.tagNames.map fun name => (build.variant, name))
    []

/-- A value that is not blank, else the default. -/
def orDefault (raw fallback : String) : String := if trim raw = "" then fallback else raw

/-- The variables that the meta step reads. -/
structure MetaInput where
  tagsRaw : String := ""
  flavorRaw : String := ""
  labelsRaw : String := ""
  now : String := ""

/-- The expressions that any value may hold. -/
def generalExpressions : List String := ["branch", "tag", "sha"]

/-- The rules and the flavor of a run, and its own labels, once their expressions are checked. -/
def parseMeta (input : MetaInput) : Except String (List Rule × Flavor × List KeyValue) := do
  let rules ← parseTagRules (orDefault input.tagsRaw defaultTags)
  let flavor ← parseFlavor (orDefault input.flavorRaw defaultFlavor)
  rules.forM fun rule => do
    if rule.type = .semver then
      assertSupportedExpressions (rule.attr "pattern")
        ["raw", "version", "major", "minor", "patch"] "type=semver 的 pattern"
    assertSupportedExpressions
      (Text.join [rule.attr "value", rule.attr "prefix", rule.attr "suffix"] " ")
      generalExpressions ("tag 规则 " ++ rule.line)
  assertSupportedExpressions (Text.join [flavor.start, flavor.suffix] " ") generalExpressions
    "DOCKER_META_FLAVOR"
  let customLabels ← parseKeyValues input.labelsRaw "DOCKER_META_LABELS"
  assertSupportedExpressions (Text.join (customLabels.map KeyValue.value) " ") generalExpressions
    "DOCKER_META_LABELS"
  return (rules, flavor, customLabels)

/-- `computeBuilds`. -/
def computeBuilds (state : State) (input : MetaInput) : Except String (List Build) := do
  let (rules, flavor, customLabels) ← parseMeta input
  let builds ← planBuilds engine state rules flavor customLabels input.now
  let duplicates := findDuplicateTags builds
  if duplicates ≠ [] then
    .error ("同一镜像上出现重复 tag（会让一个变体覆盖另一个）：" ++
      Text.join (duplicates.map fun item =>
        item.tag ++ "(" ++ item.variants.1 ++ "/" ++ item.variants.2 ++ ")") ", ")
  return builds

end MessagePusher.Scripts
