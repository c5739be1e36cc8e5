import MessagePusher.Release.Affixes
import MessagePusher.Release.SemverPattern
import MessagePusher.Release.Versions

/-!
# Pre-releases

`expandSemverPattern` gives a pre-release the names with `version` or `raw` in them, and takes for
one what has a hyphen in the text that the `match` expression of the rule captured.
`prerelease_moves_nothing_iff` says which expressions let another name through.
-/

namespace MessagePusher.Release

open Common Scripts Semantics.Fallible

variable {version : String} {engine : Engine} {ctx : Context}

/-! ### What is captured of a tag -/

/-- What a regular expression finds in a text are parts of it. -/
def FindsParts (engine : Engine) : Prop :=
  ∀ expression find text groups, engine.regExp expression = .ok find → find text = some groups →
    ∀ part, some part ∈ groups → part.toList <:+: text.toList

/-- The text that a `match` expression captures, if it compiles and finds any. -/
def captured (engine : Engine) (expression text : String) : Option String :=
  if expression = "" then some text
  else (engine.regExp expression).toOption.bind fun find =>
    (find text).map fun groups => (groups.getD 1 none).getD text

theorem captured_within (finds : FindsParts engine) {expression text shown : String}
    (captures : captured engine expression text = some shown) : shown.toList <:+: text.toList := by
  unfold captured at captures
  split_ifs at captures
  · rw [Option.some.inj captures]
  · obtain ⟨find, compiled, found⟩ := Option.bind_eq_some_iff.mp captures
    obtain ⟨groups, searched, same⟩ := Option.map_eq_some_iff.mp found
    have compiles : engine.regExp expression = .ok find := by
      cases result : engine.regExp expression with
      | error => rw [result] at compiled; cases compiled
      | ok => rw [result] at compiled; rw [Option.some.inj compiled]
    cases group : groups.getD 1 none with
    | none =>
        rw [group] at same
        rw [← same]
        exact List.infix_rfl
    | some part =>
        rw [group] at same
        rw [← same]
        refine finds _ _ _ _ compiles searched part ?_
        cases second : groups[1]? with
        | none => rw [List.getD_eq_getElem?_getD, second] at group; cases group
        | some found =>
            rw [List.getD_eq_getElem?_getD, second] at group
            obtain rfl : found = some part := group
            exact List.mem_of_getElem? second

/-- The rule is a semver rule that reads the tag. -/
def ReadsTag (ctx : Context) (rule : Rule) : Prop :=
  rule.type = .semver ∧ (renderExpression (rule.attr "value") ctx = "" ∨
    renderExpression (rule.attr "value") ctx = ctx.tag)

/-- The name that a rule with this pattern has for what is captured. -/
def nameOf (pattern tag : String) (shown : Option String) : String :=
  shown.elim "" fun version =>
    if startsWithNumbers version = true then
      expandSemverPattern pattern version tag (Text.contains version "-")
    else ""

variable {rule : Rule} {name : String}

/-- A semver rule names what its expression captures, if it compiles. -/
theorem ruleTagName_semver_iff (reads : ReadsTag ctx rule) :
    ruleTagName engine rule ctx = .ok name ↔
      (rule.attr "match" = "" ∨ (engine.regExp (rule.attr "match")).isOk = true) ∧
        name = nameOf (rule.attr "pattern") ctx.tag
          (captured engine (rule.attr "match") (Text.trimPrefix ctx.tag "v")) := by
  obtain ⟨type, value⟩ := reads
  have ofTag : (if renderExpression (rule.attr "value") ctx = "" then ctx.tag
      else renderExpression (rule.attr "value") ctx) = ctx.tag := by
    split_ifs with none_
    · rfl
    · exact value.resolve_left none_
  simp only [ruleTagName, type, ofTag]
  unfold captured nameOf
  by_cases whole : rule.attr "match" = ""
  · rw [if_pos whole, if_pos whole, and_iff_right (.inl whole), Except.ok.injEq, eq_comm]
    rfl
  · rw [if_neg whole, if_neg whole, or_iff_right whole]
    cases compiled : engine.regExp (rule.attr "match") with
    | error failure => exact iff_of_false (by rintro ⟨⟩) fun both => by cases both.1
    | ok find =>
        have compiles : (Except.ok find : Except String _).isOk = true := rfl
        rw [and_iff_right compiles]
        cases found : find (Text.trimPrefix ctx.tag "v") with
        | none =>
            simp only [bind, Except.bind, Except.toOption, Option.bind_some, found,
              Option.map_none, Option.elim_none]
            exact pure_ok_iff.trans eq_comm
        | some groups =>
            simp only [bind, Except.bind, Except.toOption, Option.bind_some, found,
              Option.map_some, Option.elim_some]
            exact pure_ok_iff.trans eq_comm

/-! ### The tags of a pre-release -/

/-- What is behind the first hyphen of a version. -/
def prereleasePart (version : String) : String :=
  String.ofList ((version.toList.dropWhile (· ≠ '-')).drop 1)

/-- No release tag is among these: each has the pre-release part in it, and none is `latest`. -/
def MovesNoRelease (version : String) (tags : List Tag) : Prop :=
  ∀ tag ∈ tags, Text.contains tag.name (prereleasePart version) = true ∧
    tag.isLatest = false ∧ tag.name ≠ "latest"

/-- What the expression captures as a version has a hyphen in it, and all of the pre-release part,
unless it is too long for a tag. -/
def KeepsPrerelease (engine : Engine) (ctx : Context) (version expression : String) : Prop :=
  ∀ shown, captured engine expression (Text.trimPrefix ctx.tag "v") = some shown →
    startsWithNumbers shown = true → Text.contains shown "-" = true ∧
      (shown.length ≤ 128 → Text.contains shown (prereleasePart version) = true)

theorem exists_digit_of_startsWithNumbers {shown : String}
    (numbers : startsWithNumbers shown = true) :
    ∃ first rest, shown.toList = first :: rest ∧ first.isDigit = true := by
  unfold startsWithNumbers at numbers
  dsimp only at numbers
  rw [List.span_eq_takeWhile_dropWhile] at numbers
  cases text : shown.toList with
  | nil => rw [text] at numbers; cases numbers
  | cons first rest =>
      refine ⟨first, rest, rfl, ?_⟩
      by_contra noDigit
      rw [text, List.takeWhile_cons_of_neg noDigit] at numbers
      cases numbers

/-- A part of a text that begins with a digit is behind what has none. -/
theorem infix_of_append {first : Char} {piece before text : List Char}
    (inside : first :: piece <:+: before ++ text) (digit : first.isDigit = true)
    (noDigit : ∀ char ∈ before, char.isDigit = false) : first :: piece <:+: text := by
  induction before with
  | nil => exact inside
  | cons char before ih =>
      rcases List.infix_cons_iff.mp inside with starts | later
      · have same : first = char := by
          obtain ⟨rest, whole⟩ := starts
          exact (List.cons.inj whole).1
        rw [same, noDigit char List.mem_cons_self] at digit
        cases digit
      · exact ih later fun other member => noDigit other (List.mem_cons_of_mem _ member)

/-- What is captured as a version is a part of the version. -/
theorem SeesPrerelease.captured_within {expression shown : String}
    (sees : SeesPrerelease ctx version) (finds : FindsParts engine)
    (captures : captured engine expression (Text.trimPrefix ctx.tag "v") = some shown)
    (numbers : startsWithNumbers shown = true) :
    shown.toList <:+: version.toList ∧ version.toList <:+: ctx.tag.toList := by
  obtain ⟨first, rest, text, digit⟩ := exists_digit_of_startsWithNumbers numbers
  have inTag : shown.toList <:+: ctx.tag.toList :=
    (Release.captured_within finds captures).trans (trimPrefix_suffix _ _).isInfix
  rcases sees.tag with none_ | ⟨before, whole, noDigit⟩
  · rw [none_, text] at inTag
    exact absurd (List.infix_nil.mp inTag) (List.cons_ne_nil _ _)
  · rw [whole, text] at inTag
    rw [whole, text]
    exact ⟨infix_of_append inTag digit noDigit, (List.suffix_append _ _).isInfix⟩

/-- What a rule with a name captured, and its pattern. -/
theorem exists_shown (reads : ReadsTag ctx rule) (named : ruleTagName engine rule ctx = .ok name)
    (some_ : name ≠ "") :
    ∃ shown, captured engine (rule.attr "match") (Text.trimPrefix ctx.tag "v") = some shown ∧
      startsWithNumbers shown = true ∧
      name = expandSemverPattern (rule.attr "pattern") shown ctx.tag (Text.contains shown "-") := by
  obtain ⟨-, expanded⟩ := (ruleTagName_semver_iff reads).mp named
  cases captures : captured engine (rule.attr "match") (Text.trimPrefix ctx.tag "v") with
  | none =>
      rw [captures] at expanded
      exact absurd expanded some_
  | some shown =>
      rw [captures, nameOf, Option.elim_some] at expanded
      split_ifs at expanded with numbers
      · exact ⟨shown, rfl, numbers, expanded⟩
      · exact absurd expanded some_

variable {flavor : Flavor} {clean : String}

theorem length_of_sanitizeTagName {text : String} (accepted : sanitizeTagName text = .ok clean) :
    clean.length ≤ 128 := by
  unfold sanitizeTagName at accepted
  dsimp only at accepted
  split_ifs at accepted with _ long
  rw [← Except.ok.inj accepted]
  exact Nat.not_lt.mp long

/-- A part of a version that stands in a text stands in its tag. -/
theorem infix_of_sanitizeTagName {text part : String} (accepted : sanitizeTagName text = .ok clean)
    (semver : isSemver version = true) (isPart : part.toList <:+: version.toList)
    (starts : ∃ first rest, part.toList = first :: rest ∧ first.isDigit = true)
    (inside : part.toList <:+: text.toList) :
    part.toList <:+: clean.toList ∧ clean ≠ "latest" := by
  obtain ⟨first, rest, chars, digit⟩ := starts
  have legal : ∀ char ∈ part.toList, isTagChar char = true :=
    fun char member => isTagChar_of_isSemver semver char (isPart.subset member)
  rw [chars] at legal inside ⊢
  have shown : first :: rest <:+: clean.toList := by
    rw [sanitizeTagName_ok accepted, cleanTagName_eq_scan, String.toList_ofList]
    exact infix_scan (isWordChar_of_isDigit digit)
      (fun char member => legal char (List.mem_cons_of_mem _ member)) inside
  refine ⟨shown, ?_⟩
  rintro rfl
  have noDigit : ("latest".toList.all fun char => !char.isDigit) = true := rfl
  have plain := List.all_eq_true.mp noDigit first (shown.subset List.mem_cons_self)
  rw [digit] at plain
  cases plain

/-- A part of a version is its own tag, unless it is too long. -/
theorem sanitizeTagName_self {part : String} (semver : isSemver version = true)
    (isPart : part.toList <:+: version.toList)
    (starts : ∃ first rest, part.toList = first :: rest ∧ first.isDigit = true)
    (short : part.length ≤ 128) : sanitizeTagName part = .ok part := by
  obtain ⟨first, rest, chars, digit⟩ := starts
  have clean : cleanTagName part = part := by
    refine cleanTagName_of_legal chars
      (fun char member => isTagChar_of_isSemver semver char (isPart.subset member)) ⟨?_, ?_⟩
    · rintro rfl
      exact absurd digit (by decide)
    · rintro rfl
      exact absurd digit (by decide)
  have some_ : part ≠ "" := by
    rintro rfl
    cases chars
  unfold sanitizeTagName
  dsimp only
  rw [clean, if_neg some_, if_neg (Nat.not_lt.mpr short)]

theorem prereleasePart_within (version : String) :
    (prereleasePart version).toList <:+: version.toList := by
  rw [prereleasePart, String.toList_ofList]
  exact ((List.drop_suffix _ _).trans (List.dropWhile_suffix _)).isInfix

/-- A rule moves no release if its pattern shows the whole tag, or its expression keeps what makes
a pre-release of the version. -/
theorem Adds.movesNoRelease (adds : Adds engine flavor ctx rule clean)
    (sees : SeesPrerelease ctx version) (finds : FindsParts engine) (reads : ReadsTag ctx rule)
    (spared : hasExpression ["raw"] (rule.attr "pattern") = true ∨
      KeepsPrerelease engine ctx version (rule.attr "match")) :
    Text.contains clean (prereleasePart version) = true ∧ clean ≠ "latest" := by
  obtain ⟨name, named, some_, added⟩ := adds.sanitized
  obtain ⟨shown, captures, numbers, expanded⟩ := exists_shown reads named some_
  obtain ⟨ofVersion, ofTag⟩ := sees.captured_within finds captures numbers
  have inText : ∀ {part : List Char}, part <:+: name.toList →
      part <:+: (flavor.start ++ (renderExpression (rule.attr "prefix") ctx ++ name ++
        renderExpression (rule.attr "suffix") ctx) ++ flavor.suffix).toList := by
    intro part inside
    simp only [String.toList_append]
    exact (inside.trans (List.infix_append _ _ _)).trans (List.infix_append _ _ _)
  -- The name has the whole tag in it, or it has what was captured.
  have ofRaw : ctx.tag.toList <:+: name.toList →
      Text.contains clean (prereleasePart version) = true ∧ clean ≠ "latest" := by
    intro inside
    obtain ⟨kept, notLatest⟩ := infix_of_sanitizeTagName added sees.semver List.infix_rfl
      (exists_digit_of_isSemver sees.semver) (inText (ofTag.trans inside))
    exact ⟨contains_iff.mpr ((prereleasePart_within version).trans kept), notLatest⟩
  rcases spared with showsTag | keeps
  · rw [expanded] at some_ ofRaw
    exact ofRaw (shown_of_raw showsTag some_)
  · obtain ⟨hyphen, keepsPart⟩ := keeps shown captures numbers
    have either : shown.toList <:+: name.toList ∨ ctx.tag.toList <:+: name.toList := by
      rw [expanded, hyphen] at some_ ⊢
      exact shown_of_prerelease some_
    rcases either with inside | inside
    · obtain ⟨kept, notLatest⟩ := infix_of_sanitizeTagName added sees.semver ofVersion
        (exists_digit_of_startsWithNumbers numbers) (inText inside)
      have fits := length_of_sanitizeTagName added
      rw [← String.length_toList] at fits keepsPart
      have part := contains_iff.mp (keepsPart (kept.length_le.trans fits))
      exact ⟨contains_iff.mpr (part.trans kept), notLatest⟩
    · exact ofRaw inside

/-! ### The tags of a run -/

variable {rules : List Rule} {tags : List Tag}

/-- No rule asks for `latest` in a pre-release. -/
theorem latestOf_eq_none (marked : ctx.isPrerelease = true) (rules : List Rule) :
    latestOf engine flavor ctx rules = none := by
  have keeps : ∀ (rule : Rule) latestFrom, rule.latestAfter engine ctx latestFrom = latestFrom := by
    intro rule latestFrom
    rw [Rule.latestAfter, if_neg fun both => both.2 marked]
  unfold latestOf
  induction rules with
  | nil => rfl
  | cons rule rules ih =>
      rw [List.foldl_cons]
      cases ruleTag engine flavor ctx rule with
      | error failure => exact ih
      | ok name =>
          cases name with
          | none => exact ih
          | some name =>
              dsimp only
              rw [keeps]
              exact ih

/-- Every tag of a pre-release is one that a rule adds. -/
theorem exists_adds (marked : ctx.isPrerelease = true)
    (done : generateTags engine rules flavor ctx = .ok tags) {tag : Tag} (member : tag ∈ tags) :
    tag.isLatest = false ∧ ∃ rule ∈ rules, Adds engine flavor ctx rule tag.name := by
  obtain ⟨collected, latestFrom, all, so, latest, sorted⟩ := generateTags_ok done
  have noLatest : latestFrom = none := so.latest.trans (latestOf_eq_none marked rules)
  rw [noLatest] at latest
  obtain rfl : collected = all := Except.ok.inj latest
  have found := so.distinct.mem_iff.1 ((sorted tag).mp member)
  obtain ⟨rule, known, adds, -⟩ := so.added _ _ found
  exact ⟨so.plain _ _ found, rule, known, adds⟩

theorem generateTags_singleton (marked : ctx.isPrerelease = true)
    (adds : Adds engine flavor ctx rule name) :
    generateTags engine [rule] flavor ctx = .ok [{ name, priority := rule.rank engine }] := by
  unfold generateTags
  rw [Adds] at adds
  simp only [collectTags, adds]
  have after : rule.latestAfter engine ctx none = none := by
    rw [Rule.latestAfter, if_neg fun both => both.2 marked]
  simp only [bind, Except.bind, after]
  rfl

/-- A semver rule with this expression and pattern. -/
def capturing (expression pattern : String) : Rule where
  type := .semver
  attrs := [("pattern", pattern), ("match", expression), ("type", "semver")]
  line := "type=semver,match=" ++ expression ++ ",pattern=" ++ pattern

theorem readsTag_capturing (expression pattern : String) :
    ReadsTag ctx (capturing expression pattern) :=
  ⟨rfl, .inl rfl⟩

theorem compiles_of_captured {expression text shown : String}
    (captures : captured engine expression text = some shown) :
    expression = "" ∨ (engine.regExp expression).isOk = true := by
  by_cases whole : expression = ""
  · exact .inl whole
  · rw [captured, if_neg whole] at captures
    obtain ⟨find, compiled, -⟩ := Option.bind_eq_some_iff.mp captures
    cases result : engine.regExp expression with
    | error => rw [result] at compiled; cases compiled
    | ok => exact .inr rfl

/-- What such a rule adds of a version that it captures. -/
theorem adds_capturing {expression pattern shown : String}
    (captures : captured engine expression (Text.trimPrefix ctx.tag "v") = some shown)
    (numbers : startsWithNumbers shown = true)
    (expanded : expandSemverPattern pattern shown ctx.tag (Text.contains shown "-") = name)
    (some_ : name ≠ "") (accepted : sanitizeTagName name = .ok clean) :
    Adds engine {} ctx (capturing expression pattern) clean := by
  have named : ruleTagName engine (capturing expression pattern) ctx = .ok name := by
    rw [ruleTagName_semver_iff (readsTag_capturing expression pattern)]
    refine ⟨compiles_of_captured captures, ?_⟩
    have sameMatch : (capturing expression pattern).attr "match" = expression := rfl
    have samePattern : (capturing expression pattern).attr "pattern" = pattern := rfl
    rw [sameMatch, samePattern, captures, nameOf, Option.elim_some, if_pos numbers, expanded]
  have enabled : ¬ (capturing expression pattern).attr? "enable" = some "false" := by
    have absent : (capturing expression pattern).attr? "enable" = none := rfl
    rw [absent]
    rintro ⟨⟩
  have noPrefix : renderExpression ((capturing expression pattern).attr "prefix") ctx = "" := rfl
  have noSuffix : renderExpression ((capturing expression pattern).attr "suffix") ctx = "" := rfl
  unfold Adds ruleTag
  rw [if_neg enabled, named]
  simp only [bind, Except.bind, if_neg some_, noPrefix, noSuffix, String.empty_append,
    String.append_empty, accepted]
  rfl

/-- The semver rules with certain expressions, and those with the whole tag in their pattern, move
no release in a pre-release, just where each of the expressions keeps what makes it one. -/
theorem prerelease_moves_nothing_iff (engine : Engine) (runner : Runner) (state : State)
    (expressions : List String) (finds : FindsParts engine)
    (resolved : resolveRelease engine runner = .ok state)
    (prerelease : Text.contains state.version "-" = true) :
    (∀ rules flavor tags, (∀ rule ∈ rules, ReadsTag state.context rule ∧
        (hasExpression ["raw"] (rule.attr "pattern") = true ∨ rule.attr "match" ∈ expressions)) →
      generateTags engine rules flavor state.context = .ok tags →
        MovesNoRelease state.version tags) ↔
      ∀ expression ∈ expressions,
        KeepsPrerelease engine state.context state.version expression := by
  have sees := SeesPrerelease.of_resolved resolved prerelease
  constructor
  · intro moves expression listed shown captures numbers
    have single : ∀ {pattern name : String},
        expandSemverPattern pattern shown state.context.tag (Text.contains shown "-") = name →
          name ≠ "" → sanitizeTagName name = .ok name →
            Text.contains name (prereleasePart state.version) = true ∧ name ≠ "latest" := by
      intro pattern name expanded some_ accepted
      have adds := adds_capturing captures numbers expanded some_ accepted
      obtain ⟨part, -, notLatest⟩ := moves _ _ _
        (fun rule member => by
          rw [List.mem_singleton.mp member]
          exact ⟨readsTag_capturing expression pattern, .inr listed⟩)
        (generateTags_singleton sees.marked adds) _ (List.mem_singleton_self _)
      exact ⟨part, notLatest⟩
    constructor
    · -- A version without a hyphen is no pre-release to the pattern, which may be any name.
      by_contra noHyphen
      have plain : expandSemverPattern "latest" shown state.context.tag
          (Text.contains shown "-") = "latest" := by
        rw [Bool.eq_false_of_not_eq_true noHyphen]
        exact expandSemverPattern_plain (by decide) (by decide)
      exact (single plain (by decide) (by decide)).2 rfl
    · intro short
      have starts := exists_digit_of_startsWithNumbers numbers
      have some_ : shown ≠ "" := by
        obtain ⟨first, rest, text, -⟩ := starts
        rintro rfl
        cases text
      have accepted := sanitizeTagName_self sees.semver
        (sees.captured_within finds captures numbers).1 starts short
      exact (single (expandSemverPattern_default shown _ _) some_ accepted).1
  · intro keeps rules flavor tags readers done tag member
    obtain ⟨notLatest, rule, known, adds⟩ := exists_adds sees.marked done member
    obtain ⟨reads, either⟩ := readers rule known
    obtain ⟨part, otherName⟩ := adds.movesNoRelease sees finds reads
      (either.imp_right fun listed => keeps _ listed)
    exact ⟨part, notLatest, otherName⟩

/-- An engine that compiles an expression for the numbers of a version only. -/
def numbersEngine : Engine where
  toLowerCase := id
  localeCompare _ _ := 0
  number _ := none
  regExp expression :=
    let numbers := fun text : String =>
      text.toList.takeWhile fun char => char.isDigit || char = '.'
    if expression = "^([0-9.]+)" then
      .ok fun text =>
        if numbers text = [] then none
        else some [some (String.ofList (numbers text)), some (String.ofList (numbers text))]
    else .error "Invalid regular expression"

theorem findsParts_numbersEngine : FindsParts numbersEngine := by
  intro expression find text groups compiled found part member
  simp only [numbersEngine] at compiled
  split_ifs at compiled
  cases compiled
  dsimp only at found
  split_ifs at found
  cases found
  simp only [List.mem_cons, List.not_mem_nil, or_false, or_self, Option.some.injEq] at member
  rw [member, String.toList_ofList]
  exact (List.takeWhile_prefix _).isInfix

/-- The push of the tag `v1.2.3-rc.1`. -/
def candidateRun : Runner where
  env := fun name =>
    ([("GITHUB_REF", "refs/tags/v1.2.3-rc.1"), ("GITHUB_REF_NAME", "v1.2.3-rc.1"),
      ("GITHUB_REPOSITORY", "o/r"), ("DOCKER_VARIANTS", "a")].lookup name).getD ""

def candidateContext : Context where
  branch := ""
  tag := "v1.2.3-rc.1"
  sha := ""
  fullSha := ""
  ref := "refs/tags/v1.2.3-rc.1"
  isTagEvent := true
  isBranchEvent := false
  isPrEvent := false
  isPrerelease := true

theorem exists_candidate : ∃ state, resolveRelease numbersEngine candidateRun = .ok state ∧
    state.version = "1.2.3-rc.1" ∧ state.context = candidateContext := by
  obtain ⟨state, resolved⟩ := exists_ok
    (by decide : (resolveRelease numbersEngine candidateRun).isOk = true)
  refine ⟨state, resolved, ?_⟩
  obtain ⟨_, _, _, -, -, -, -, rfl⟩ := resolveRelease_ok_iff.1 resolved
  have ofTag : (Text.hasPrefix (readOptional (candidateRun.env "GITHUB_REF")) "refs/tags/" ||
      decide (readOptional (candidateRun.env "GITHUB_EVENT_NAME") = "workflow_dispatch")) =
        true := by decide
  have noBranch : Text.hasPrefix (readOptional (candidateRun.env "GITHUB_REF")) "refs/heads/" =
      false := by decide
  simp only [State.context, releaseState, ofTag, noBranch, if_true, if_false, Bool.false_eq_true]
  exact ⟨by decide, by decide⟩

theorem prerelease_moves_nothing_iff_whole :
    ∃ state, resolveRelease numbersEngine candidateRun = .ok state ∧
      ∀ rules flavor tags, (∀ rule ∈ rules, ReadsTag state.context rule ∧
          (hasExpression ["raw"] (rule.attr "pattern") = true ∨ rule.attr "match" ∈ [""])) →
        generateTags numbersEngine rules flavor state.context = .ok tags →
          MovesNoRelease state.version tags := by
  obtain ⟨state, resolved, version, context⟩ := exists_candidate
  have prerelease : Text.contains state.version "-" = true := by
    rw [version]
    decide
  refine ⟨state, resolved, (prerelease_moves_nothing_iff numbersEngine candidateRun state [""]
    findsParts_numbersEngine resolved prerelease).mpr ?_⟩
  intro expression listed shown captures numbers
  rw [List.mem_singleton.mp listed, context] at captures
  rw [version, ← Option.some.inj captures]
  exact ⟨by decide, fun _ => by decide⟩

/-- The rule `type=semver,match=^([0-9.]+),pattern=\x7b\x7bmajor\x7d\x7d.\x7b\x7bminor\x7d\x7d`. -/
def floatingRule : Rule where
  type := .semver
  attrs := [("pattern", "\x7b\x7bmajor\x7d\x7d.\x7b\x7bminor\x7d\x7d"), ("match", "^([0-9.]+)"),
    ("type", "semver")]
  line := "type=semver,match=^([0-9.]+),pattern=\x7b\x7bmajor\x7d\x7d.\x7b\x7bminor\x7d\x7d"

/-- The release candidate gets the tag `1.2`. -/
theorem candidate_moves_floating_tag :
    ¬ ∀ engine runner state raw rules flavor tags, FindsParts engine →
      resolveRelease engine runner = .ok state → Text.contains state.version "-" = true →
        parseTagRules raw = .ok rules → (∀ rule ∈ rules, ReadsTag state.context rule) →
          generateTags engine rules flavor state.context = .ok tags →
            MovesNoRelease state.version tags := by
  intro claim
  obtain ⟨state, resolved, version, context⟩ := exists_candidate
  have prerelease : Text.contains state.version "-" = true := by
    rw [version]
    decide
  have parsed : parseTagRules floatingRule.line = .ok [floatingRule] := by decide
  have reads : ∀ rule ∈ [floatingRule], ReadsTag state.context rule := by
    intro rule member
    rw [List.mem_singleton.mp member]
    exact ⟨rfl, .inl rfl⟩
  have adds : Adds numbersEngine {} candidateContext floatingRule "1.2" := by
    unfold Adds
    decide
  have generated := generateTags_singleton rfl adds
  rw [← context] at generated
  have moved := claim _ _ _ _ _ _ _ findsParts_numbersEngine resolved prerelease parsed reads
    generated _ (List.mem_singleton_self _)
  rw [version] at moved
  exact absurd moved.1 (by decide)

end MessagePusher.Release
