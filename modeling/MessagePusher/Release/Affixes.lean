import MessagePusher.Release.LatestOwner
import MessagePusher.Release.TagScan

/-!
# Prefixes and suffixes of a tag

`ruleTagName` puts the prefix and the suffix of some rules around their values, and `generateTags`
puts those of every rule around what it gets. Whether that shows depends on what is left of an
affix where it stands a second time.
-/

namespace MessagePusher.Release

open Common Scripts Semantics.Fallible

/-- The rendered prefix of a rule, or the default one of its type. -/
def startText (rule : Rule) (ctx : Context) : String :=
  if rule.attr? "prefix" = none then
    if rule.type = .sha then "sha-"
    else if rule.type = .ref ∧ rule.attr "event" = "pr" then "pr-"
    else ""
  else renderExpression (rule.attr "prefix") ctx

/-- What a rule for a branch or a tag calls it. -/
def refName (rule : Rule) (ctx : Context) : String :=
  if rule.attr "event" = "tag" then ctx.tag else shortRef ctx.ref

/-- The value of a rule before any prefix or suffix. -/
def bareValue (engine : Engine) (rule : Rule) (ctx : Context) : Except String String :=
  match rule.type with
  | .sha =>
      .ok (if rule.attr? "format" = some "long" then
        if ctx.fullSha = "" then ctx.sha else ctx.fullSha
      else take 7 ctx.sha)
  | .ref =>
      .ok (if rule.attr "event" = "pr" then pullNumber ctx.ref else refName rule ctx)
  | _ => ruleTagName engine rule ctx

/-- The tag has each prefix and suffix once. -/
def AffixesOnce (engine : Engine) (flavor : Flavor) (ctx : Context) (rule : Rule)
    (clean : String) : Prop :=
  ∃ base, bareValue engine rule ctx = .ok base ∧
    sanitizeTagName (flavor.start ++ startText rule ctx ++ base ++
      renderExpression (rule.attr "suffix") ctx ++ flavor.suffix) = .ok clean

/-- The prefix of a `sha` or `ref` rule is unseen where it stands twice, and so is the suffix of a
rule for a branch or a tag. -/
def AffixesUnseen (flavor : Flavor) (ctx : Context) (rule : Rule) : Prop :=
  let start := renderExpression (rule.attr "prefix") ctx
  let suffix := renderExpression (rule.attr "suffix") ctx
  (rule.type = .sha ∨ rule.type = .ref → Unseen flavor.start.toList start.toList) ∧
    (rule.type = .ref ∧ rule.attr "event" ≠ "pr" →
      Unseen (flavor.start.toList ++ (start.toList ++ (refName rule ctx).toList)) suffix.toList)

variable {engine : Engine} {flavor : Flavor} {ctx : Context} {rule : Rule} {name clean : String}

theorem sanitizeTagName_eq_iff {once twice : String} (added : sanitizeTagName twice = .ok clean) :
    sanitizeTagName once = .ok clean ↔ scan .lead twice.toList = scan .lead once.toList := by
  have same : cleanTagName twice = cleanTagName once ↔
      scan .lead twice.toList = scan .lead once.toList := by
    rw [cleanTagName_eq_scan, cleanTagName_eq_scan, String.ofList_inj]
  rw [← same]
  constructor
  · intro accepted
    rw [← sanitizeTagName_ok added, sanitizeTagName_ok accepted]
  · intro equal
    have legal := added
    unfold sanitizeTagName at added ⊢
    dsimp only at added ⊢
    rw [equal] at added
    split_ifs at added ⊢
    exact added

/-- What an enabled rule adds is the sanitized text around its name. -/
theorem Adds.sanitized (adds : Adds engine flavor ctx rule clean) :
    ∃ name, ruleTagName engine rule ctx = .ok name ∧ name ≠ "" ∧
      sanitizeTagName (flavor.start ++ (renderExpression (rule.attr "prefix") ctx ++ name ++
        renderExpression (rule.attr "suffix") ctx) ++ flavor.suffix) = .ok clean := by
  unfold Adds ruleTag at adds
  split_ifs at adds with disabled
  · cases adds
  · obtain ⟨name, named, rest⟩ := bind_ok_iff.1 adds
    split_ifs at rest with nothing
    · cases rest
    · obtain ⟨shown, accepted, same⟩ := bind_ok_iff.1 rest
      obtain rfl : shown = clean := Option.some.inj (pure_ok_iff.1 same)
      exact ⟨name, named, nothing, accepted⟩

theorem renderExpression_absent {key : String} (absent : rule.attr? key = none) :
    renderExpression (rule.attr key) ctx = "" := by
  rw [Rule.attr, absent]
  rfl

/-- Where there is no prefix, there is only the default one. -/
theorem startText_eq_or (rule : Rule) (ctx : Context) :
    startText rule ctx = renderExpression (rule.attr "prefix") ctx ∨
      renderExpression (rule.attr "prefix") ctx = "" := by
  by_cases absent : rule.attr? "prefix" = none
  · exact .inr (renderExpression_absent absent)
  · exact .inl (if_neg absent)

/-- The types without a default prefix. -/
theorem startText_eq (noSha : rule.type ≠ .sha)
    (noPull : ¬ (rule.type = .ref ∧ rule.attr "event" = "pr")) :
    startText rule ctx = renderExpression (rule.attr "prefix") ctx := by
  unfold startText
  split_ifs with absent
  · exact (renderExpression_absent absent).symm
  · rfl

theorem bareValue_sha (isSha : rule.type = .sha) :
    ∃ base, bareValue engine rule ctx = .ok base ∧
      ruleTagName engine rule ctx = .ok (startText rule ctx ++ base) := by
  simp only [bareValue, ruleTagName, startText, isSha, if_true]
  exact ⟨_, rfl, rfl⟩

/-- The event of a rule that gives none is a branch. -/
theorem event_eq_iff {event known : String} (given : known ≠ "") (noBranch : known ≠ "branch") :
    (if event = "" then "branch" else event) = known ↔ event = known := by
  split_ifs with absent
  · rw [absent]
    exact iff_of_false noBranch.symm given.symm
  · exact Iff.rfl

theorem bareValue_pull (isRef : rule.type = .ref) (pull : rule.attr "event" = "pr")
    (named : ruleTagName engine rule ctx = .ok name) (some_ : name ≠ "") :
    bareValue engine rule ctx = .ok (pullNumber ctx.ref) ∧
      name = startText rule ctx ++ pullNumber ctx.ref := by
  have isPull : (if rule.attr "event" = "" then "branch" else rule.attr "event") = "pr" := by
    rw [event_eq_iff (by decide) (by decide), pull]
  have start : startText rule ctx =
      if rule.attr? "prefix" = none then "pr-" else renderExpression (rule.attr "prefix") ctx := by
    simp [startText, isRef, pull]
  have bare : bareValue engine rule ctx = .ok (pullNumber ctx.ref) := by
    simp [bareValue, isRef, pull]
  simp only [ruleTagName, isRef, if_pos isPull, ← start] at named
  split at named
  · exact ⟨bare, (Except.ok.inj named).symm⟩
  · exact absurd (Except.ok.inj named).symm some_

theorem bareValue_ref (isRef : rule.type = .ref) (noPull : rule.attr "event" ≠ "pr")
    (named : ruleTagName engine rule ctx = .ok name) (some_ : name ≠ "") :
    bareValue engine rule ctx = .ok (refName rule ctx) ∧
      name = renderExpression (rule.attr "prefix") ctx ++ refName rule ctx ++
        renderExpression (rule.attr "suffix") ctx := by
  have bare : bareValue engine rule ctx = .ok (refName rule ctx) := by
    simp [bareValue, isRef, noPull]
  have pullEvent : (if rule.attr "event" = "" then "branch" else rule.attr "event") = "pr" ↔
      rule.attr "event" = "pr" := event_eq_iff (by decide) (by decide)
  have tagEvent : (if rule.attr "event" = "" then "branch" else rule.attr "event") = "tag" ↔
      rule.attr "event" = "tag" := event_eq_iff (by decide) (by decide)
  refine ⟨bare, ?_⟩
  simp only [ruleTagName, isRef, pullEvent, if_neg noPull, tagEvent] at named
  unfold refName
  by_cases isTag : rule.attr "event" = "tag"
  · rw [if_pos isTag]
    simp only [if_pos isTag] at named
    split at named
    · exact (Except.ok.inj named).symm
    · exact absurd (Except.ok.inj named).symm some_
  · rw [if_neg isTag]
    simp only [if_neg isTag] at named
    by_cases isBranch :
        (if rule.attr "event" = "" then "branch" else rule.attr "event") = "branch"
    · rw [if_pos isBranch] at named
      split at named
      · exact (Except.ok.inj named).symm
      · exact absurd (Except.ok.inj named).symm some_
    · rw [if_neg isBranch] at named
      cases named

/-! ### Once and twice -/

theorem affixesOnce_iff {base : String} (bare : bareValue engine rule ctx = .ok base) :
    AffixesOnce engine flavor ctx rule clean ↔
      sanitizeTagName (flavor.start ++ startText rule ctx ++ base ++
        renderExpression (rule.attr "suffix") ctx ++ flavor.suffix) = .ok clean := by
  constructor
  · rintro ⟨other, also, accepted⟩
    obtain rfl : other = base := Except.ok.inj (also.symm.trans bare)
    exact accepted
  · exact fun accepted => ⟨base, bare, accepted⟩

/-- A prefix that stands there twice, or only as the default one. -/
theorem affixesOnce_of_start {base : String} (bare : bareValue engine rule ctx = .ok base)
    (added : sanitizeTagName (flavor.start ++ (renderExpression (rule.attr "prefix") ctx ++
      (startText rule ctx ++ base) ++ renderExpression (rule.attr "suffix") ctx) ++
        flavor.suffix) = .ok clean) :
    AffixesOnce engine flavor ctx rule clean ↔
      Unseen flavor.start.toList (renderExpression (rule.attr "prefix") ctx).toList := by
  rw [affixesOnce_iff bare, sanitizeTagName_eq_iff added]
  simp only [String.toList_append, List.append_assoc]
  rcases startText_eq_or rule ctx with same | none_
  · rw [same]
    exact scan_twice_iff _ _ _
  · rw [none_]
    exact iff_of_true rfl (Unseen.nil _)

/-- A rule's tag has each prefix and suffix once, unless one is seen where it stands twice. -/
theorem affixes_once_iff (engine : Engine) (flavor : Flavor) (ctx : Context) (rule : Rule)
    (clean : String) (adds : Adds engine flavor ctx rule clean) :
    AffixesOnce engine flavor ctx rule clean ↔ AffixesUnseen flavor ctx rule := by
  obtain ⟨name, named, some_, added⟩ := adds.sanitized
  unfold AffixesUnseen
  cases type : rule.type with
  | raw | semver | match_ =>
      have bare : bareValue engine rule ctx = .ok name := by
        rw [← named]
        simp only [bareValue, type]
      have start : startText rule ctx = renderExpression (rule.attr "prefix") ctx :=
        startText_eq (by simp [type]) (by simp [type])
      rw [affixesOnce_iff bare, sanitizeTagName_eq_iff added, start]
      simp
  | sha =>
      obtain ⟨base, bare, same⟩ := bareValue_sha type
      obtain rfl : startText rule ctx ++ base = name := Except.ok.inj (same.symm.trans named)
      rw [affixesOnce_of_start bare added]
      simp
  | ref =>
      by_cases pull : rule.attr "event" = "pr"
      · obtain ⟨bare, rfl⟩ := bareValue_pull type pull named some_
        rw [affixesOnce_of_start bare added]
        simp [pull]
      · obtain ⟨bare, rfl⟩ := bareValue_ref type pull named some_
        have start : startText rule ctx = renderExpression (rule.attr "prefix") ctx :=
          startText_eq (by simp [type]) fun both => pull both.2
        rw [affixesOnce_iff bare, sanitizeTagName_eq_iff added, start]
        simp only [String.toList_append, List.append_assoc]
        rw [scan_both_twice_iff]
        simp [pull]

/-- A push of the tag `v1.2.3`. -/
def pushedTag : Context where
  branch := ""
  tag := "v1.2.3"
  sha := "abcdef0"
  fullSha := ""
  ref := "refs/tags/v1.2.3"
  isTagEvent := true
  isBranchEvent := false
  isPrEvent := false
  isPrerelease := false

theorem affixes_once_iff_sha :
    AffixesOnce plainEngine {} pushedTag ⟨.sha, [("type", "sha")], "type=sha"⟩ "sha-abcdef0" ↔
      AffixesUnseen {} pushedTag ⟨.sha, [("type", "sha")], "type=sha"⟩ :=
  affixes_once_iff _ _ _ _ _ (by unfold Adds; decide)

/-- The rule `type=ref,event=tag,suffix=-alpine`. -/
def alpineRule : Rule where
  type := .ref
  attrs := [("suffix", "-alpine"), ("event", "tag"), ("type", "ref")]
  line := "type=ref,event=tag,suffix=-alpine"

theorem suffix_stands_twice : ¬ ∀ engine flavor ctx line rule clean,
    parseTagRule line = .ok rule → Adds engine flavor ctx rule clean →
      AffixesOnce engine flavor ctx rule clean := by
  intro claim
  have parsed : parseTagRule alpineRule.line = .ok alpineRule := by decide
  have adds : Adds plainEngine {} pushedTag alpineRule "v1.2.3-alpine-alpine" := by
    unfold Adds
    decide
  have once := claim _ _ _ _ _ _ parsed adds
  have bare : bareValue plainEngine alpineRule pushedTag = .ok "v1.2.3" := by decide
  rw [affixesOnce_iff bare] at once
  exact absurd once (by decide)

end MessagePusher.Release
