import MessagePusher.Release.Dispatch
import MessagePusher.Release.TagScan
import Mathlib.Data.List.TakeDrop

/-!
# Versions and tags

What `SEMVER` accepts has only characters that a tag may have and begins with a digit, and it ends
the tag that it was taken from, with no digit in front of it.
-/

namespace MessagePusher.Release

open Common Scripts Semantics.Fallible

theorem splitOn_cons (separator char : Char) (rest : List Char) :
    (char :: rest).splitOn separator =
      if char = separator then [] :: rest.splitOn separator
      else (rest.splitOn separator).modifyHead (char :: ·) := by
  simp only [List.splitOn, List.splitOnP_cons_eq_if_modifyHead, beq_iff_eq]

theorem mem_splitOn {separator char : Char} {chars : List Char} (member : char ∈ chars)
    (other : char ≠ separator) : ∃ part ∈ chars.splitOn separator, char ∈ part := by
  induction chars with
  | nil => cases member
  | cons first rest ih =>
      obtain ⟨head, tail, parts⟩ :=
        List.exists_cons_of_ne_nil (List.splitOnP_ne_nil (· == separator) rest)
      change rest.splitOn separator = head :: tail at parts
      rw [parts] at ih
      rw [splitOn_cons, parts]
      rcases List.mem_cons.mp member with rfl | later
      · rw [if_neg other]
        exact ⟨char :: head, List.mem_cons_self, List.mem_cons_self⟩
      · obtain ⟨part, known, inside⟩ := ih later
        split_ifs
        · exact ⟨part, List.mem_cons_of_mem _ known, inside⟩
        · rcases List.mem_cons.mp known with rfl | known
          · exact ⟨first :: part, List.mem_cons_self, List.mem_cons_of_mem _ inside⟩
          · exact ⟨part, List.mem_cons_of_mem _ known, inside⟩

theorem isWordChar_of_isDigit {char : Char} (digit : char.isDigit = true) :
    isWordChar char = true := by
  simp [isWordChar, Char.isAlphanum, digit]

variable {version : String}

/-- The numbers of a version, and what is behind its first hyphen. -/
theorem isSemver_iff : isSemver version = true ↔
    let parts := Text.split (String.ofList (version.toList.takeWhile (· ≠ '-'))) '.'
    parts.length = 3 ∧ (∀ part ∈ parts, isVersionNumber part = true) ∧
      ∀ hyphen suffix, version.toList.dropWhile (· ≠ '-') = hyphen :: suffix →
        suffix ≠ [] ∧ ∀ char ∈ suffix, char.isAlphanum = true ∨ char = '.' ∨ char = '-' := by
  unfold isSemver
  rw [List.span_eq_takeWhile_dropWhile]
  dsimp only
  cases rest : version.toList.dropWhile (· ≠ '-') with
  | nil => simp
  | cons hyphen suffix => simp [or_assoc, and_assoc]

theorem isDigit_of_isVersionNumber {part : String} (number : isVersionNumber part = true) :
    part ≠ "" ∧ ∀ char ∈ part.toList, char.isDigit = true := by
  unfold isVersionNumber at number
  simp only [Bool.and_eq_true, decide_eq_true_eq, List.all_eq_true] at number
  exact number.1

/-- A number of a version is one of the parts that the dots leave. -/
theorem isDigit_of_part {part : List Char} (semver : isSemver version = true)
    (isPart : part ∈ (version.toList.takeWhile (· ≠ '-')).splitOn '.') :
    part ≠ [] ∧ ∀ char ∈ part, char.isDigit = true := by
  obtain ⟨-, numbers, -⟩ := isSemver_iff.mp semver
  have listed : String.ofList part ∈
      Text.split (String.ofList (version.toList.takeWhile (· ≠ '-'))) '.' := by
    rw [Text.split, String.toList_ofList]
    exact List.mem_map_of_mem isPart
  obtain ⟨some_, digits⟩ := isDigit_of_isVersionNumber (numbers _ listed)
  rw [String.toList_ofList] at digits
  refine ⟨?_, digits⟩
  rintro rfl
  exact some_ rfl

/-- A version has only characters that a tag may have. -/
theorem isTagChar_of_isSemver (semver : isSemver version = true) :
    ∀ char ∈ version.toList, isTagChar char = true := by
  obtain ⟨-, -, suffix⟩ := isSemver_iff.mp semver
  intro char member
  by_cases dot : char = '.'
  · rw [dot]
    rfl
  by_cases hyphen : char = '-'
  · rw [hyphen]
    rfl
  rw [← List.takeWhile_append_dropWhile (p := (· ≠ '-')) (l := version.toList)] at member
  rcases List.mem_append.mp member with core | rest
  · obtain ⟨part, isPart, inside⟩ := mem_splitOn core dot
    have digit := (isDigit_of_part semver isPart).2 _ inside
    exact isTagChar_of_isWordChar (isWordChar_of_isDigit digit)
  · cases behind : version.toList.dropWhile (· ≠ '-') with
    | nil =>
        rw [behind] at rest
        cases rest
    | cons first others =>
        have isHyphen : first = '-' := by
          have some_ : version.toList.dropWhile (· ≠ '-') ≠ [] := by
            rw [behind]
            exact List.cons_ne_nil _ _
          have stops := List.head_dropWhile_not (· ≠ '-') some_
          simp only [behind, List.head_cons] at stops
          simpa using stops
        rw [behind] at rest
        rcases List.mem_cons.mp rest with rfl | member
        · exact absurd isHyphen hyphen
        · rcases (suffix _ _ behind).2 char member with letter | same | same
          · simp [isTagChar, letter]
          · exact absurd same dot
          · exact absurd same hyphen

/-- A version begins with a digit. -/
theorem exists_digit_of_isSemver (semver : isSemver version = true) :
    ∃ first rest, version.toList = first :: rest ∧ first.isDigit = true := by
  -- The first number is a part that is not empty.
  cases core : version.toList.takeWhile (· ≠ '-') with
  | nil =>
      have noPart := @isDigit_of_part _ [] semver (by
        rw [core]
        exact List.mem_singleton_self _)
      exact absurd rfl noPart.1
  | cons first others =>
      obtain ⟨head, tail, parts⟩ :=
        List.exists_cons_of_ne_nil (List.splitOnP_ne_nil (· == '.') others)
      change others.splitOn '.' = head :: tail at parts
      have starts : ∃ rest, version.toList = first :: rest := by
        refine ⟨others ++ version.toList.dropWhile (· ≠ '-'), ?_⟩
        rw [← List.cons_append, ← core, List.takeWhile_append_dropWhile]
      obtain ⟨rest, whole⟩ := starts
      refine ⟨first, rest, whole, ?_⟩
      by_cases dot : first = '.'
      · have noPart := @isDigit_of_part _ [] semver (by
          rw [core, splitOn_cons, if_pos dot]
          exact List.mem_cons_self)
        exact absurd rfl noPart.1
      · have isPart : first :: head ∈ (version.toList.takeWhile (· ≠ '-')).splitOn '.' := by
          rw [core, splitOn_cons, if_neg dot, parts]
          exact List.mem_cons_self
        exact (isDigit_of_part semver isPart).2 first List.mem_cons_self

/-! ### What the rules see of a version -/

/-- A pre-release with its tag, in which no digit stands in front of the version. Where the run is
not for a tag, the rules see none. -/
structure SeesPrerelease (ctx : Context) (version : String) : Prop where
  marked : ctx.isPrerelease = true
  semver : isSemver version = true
  tag : ctx.tag = "" ∨ ∃ before, ctx.tag.toList = before ++ version.toList ∧
    ∀ char ∈ before, char.isDigit = false

variable {engine : Engine} {runner : Runner} {state : State} {ctx : Context}

theorem not_isDigit_of_isSpace {char : Char} (space : isSpace char = true) :
    char.isDigit = false := by
  by_contra digit
  rw [isSpace_of_isTagChar (isTagChar_of_isWordChar
    (isWordChar_of_isDigit (Bool.eq_true_of_not_eq_false digit)))] at space
  cases space

theorem trimPrefix_suffix (text start : String) :
    (Text.trimPrefix text start).toList <:+ text.toList := by
  unfold Text.trimPrefix
  split_ifs
  · rw [String.toList_ofList]
    exact List.drop_suffix _ _
  · exact List.suffix_refl _

/-- The end of a trimmed text is trimmed by what is in front of it. -/
theorem trimChars_suffix {text rest : List Char} (trimmed : trimChars text = text)
    (isRest : rest <:+ text) : trimChars rest = rest.dropWhile isSpace := by
  have right : ∀ chars, trimChars chars = (chars.dropWhile isSpace).rdropWhile isSpace :=
    fun _ => rfl
  have noSpace : text.rdropWhile isSpace = text := by
    rw [← trimmed, right, List.rdropWhile_idempotent]
  rw [right, List.rdropWhile_eq_self_iff]
  intro some_
  obtain ⟨before, whole⟩ := (List.dropWhile_suffix isSpace).trans isRest
  have textSome : text ≠ [] := by
    rintro rfl
    exact some_ (List.append_eq_nil_iff.mp whole).2
  have last := List.rdropWhile_eq_self_iff.mp noSpace textSome
  simp only [← whole, List.getLast_append_of_ne_nil _ some_] at last
  exact last

theorem trimChars_trim (text : String) : trimChars (trim text).toList = (trim text).toList := by
  have twice := congrArg String.toList (trim_trim text)
  rw [trim, String.toList_ofList] at twice
  exact twice

/-- A tag is trimmed, or the end of a ref that is. -/
theorem rawTag_suffix (engine : Engine) (runner : Runner) :
    ∃ text, (rawTag engine runner).toList <:+ (trim text).toList := by
  unfold rawTag
  dsimp only
  split_ifs
  · unfold dispatchInput
    dsimp only
    split_ifs
    · exact ⟨_, List.suffix_refl _⟩
    · exact ⟨_, List.suffix_refl _⟩
  · exact ⟨_, List.suffix_refl _⟩
  · refine ⟨runner.env "GITHUB_REF", ?_⟩
    unfold tagVersionFromRef
    dsimp only
    split_ifs
    · exact trimPrefix_suffix _ _
    · exact List.nil_suffix

theorem tagPrefix_noDigit (text : String) :
    ∀ char ∈ (tagPrefix text).toList, char.isDigit = false := by
  have none_ : ((tagPrefix text).toList.all fun char => !char.isDigit) = true := by
    unfold tagPrefix
    split_ifs <;> rfl
  intro char member
  simpa using List.all_eq_true.mp none_ char member

/-- In front of the version in a tag there is no digit. -/
theorem rawTag_eq (engine : Engine) (runner : Runner) :
    ∃ before, (rawTag engine runner).toList =
        before ++ (stripTagPrefix (rawTag engine runner)).toList ∧
      ∀ char ∈ before, char.isDigit = false := by
  obtain ⟨text, isRest⟩ := rawTag_suffix engine runner
  generalize rawTag engine runner = tag at isRest
  have trimmed : (trim tag).toList = tag.toList.dropWhile isSpace := by
    rw [trim, String.toList_ofList]
    exact trimChars_suffix (trimChars_trim text) isRest
  have named : tagPrefix (trim tag) ++ stripTagPrefix tag = trim tag := by
    have whole := tagPrefix_append (trim_trim tag)
    rwa [stripTagPrefix, trim_trim] at whole
  refine ⟨tag.toList.takeWhile isSpace ++ (tagPrefix (trim tag)).toList, ?_, ?_⟩
  · rw [List.append_assoc, ← String.toList_append, named, trimmed,
      List.takeWhile_append_dropWhile]
  · intro char member
    rcases List.mem_append.mp member with blank | start
    · exact not_isDigit_of_isSpace (List.mem_takeWhile_imp blank)
    · exact tagPrefix_noDigit _ char start

/-- The rules see the tag of the run, unless it is for none. -/
theorem context_tag_eq_or (state : State) :
    state.context.tag = "" ∨ state.context.tag = state.tag := by
  unfold State.context
  cases state.isTagEvent with
  | false => exact .inl rfl
  | true => exact .inr rfl

theorem SeesPrerelease.of_resolved (resolved : resolveRelease engine runner = .ok state)
    (prerelease : Text.contains state.version "-" = true) :
    SeesPrerelease state.context state.version := by
  obtain ⟨_, _, _, passed, -, -, -, rfl⟩ := resolveRelease_ok_iff.1 resolved
  obtain ⟨-, semver⟩ := checkTag_ok passed
  simp only [releaseState] at prerelease
  constructor
  · simp only [State.context, releaseState]
    exact prerelease
  · simp only [releaseState]
    exact semver
  · rcases context_tag_eq_or (releaseState engine runner _ _ _) with none_ | tagged
    · exact .inl none_
    · rw [tagged]
      simp only [releaseState]
      exact .inr (rawTag_eq engine runner)

end MessagePusher.Release
