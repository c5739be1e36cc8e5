import MessagePusher.JsonText.Decode
import MessagePusher.Release.Jobs
import MessagePusher.Release.UnsuffixedOwner

/-!
# The plan and the jobs

The plan job hands the variants that it chose to the jobs behind it, as a text. Each of these jobs
reads its own table again, and gets the variants that were meant (`plan_reaches_jobs`). Jobs for
one variant each push what one job for all of them would push (`parallel_jobs_agree`).
-/

namespace MessagePusher.Release

open Common JsonText Scripts Semantics.Fallible

variable {engine : Engine}

/-! ### Names in a list -/

/-- The characters of joined texts. -/
theorem toList_join (parts : List String) (separator : String) :
    (Text.join parts separator).toList = separator.toList.intercalate (parts.map String.toList) := by
  have folded : ∀ (rest : List String) (joined : String),
      (rest.foldl (fun joined part => joined ++ separator ++ part) joined).toList =
        joined.toList ++ (rest.map fun part => separator.toList ++ part.toList).flatten := by
    intro rest
    induction rest with
    | nil => simp
    | cons part rest ih =>
        intro joined
        rw [List.foldl_cons, ih]
        simp
  cases parts with
  | nil => rfl
  | cons first rest =>
      rw [Text.join, folded]
      induction rest generalizing first with
      | nil => simp
      | cons next rest ih =>
          rw [List.map_cons, List.map_cons, List.map_cons, List.intercalate_cons_cons, List.flatten_cons]
          rw [← List.map_cons (f := String.toList), ← ih next]
          simp

/-- No name has a separator of a list. -/
theorem not_separator {name : String} (legal : isVariantName name = true) :
    ∀ char ∈ name.toList, ['\n', ',', ';'].contains char = false := by
  intro char member
  have tag := isTagChar_of_isVariantName legal char member
  by_contra separator
  have listed : char ∈ ['\n', ',', ';'] :=
    List.mem_of_elem_eq_true (eq_true_of_ne_false separator)
  simp only [List.mem_cons, List.not_mem_nil, or_false] at listed
  rcases listed with rfl | rfl | rfl <;> revert tag <;> decide

/-- A name is an item of a list as it is. -/
theorem items_of_names {names : List String} (legal : ∀ name ∈ names, isVariantName name = true) :
    items names = names := by
  have trimmed : ∀ name ∈ names, trim name = name := by
    intro name member
    rw [trim, trimChars_of_legal (isTagChar_of_isVariantName (legal name member)),
      String.ofList_toList]
  have same : names.map trim = names := (List.map_congr_left trimmed).trans (List.map_id' names)
  rw [items, same]
  refine List.filter_eq_self.mpr fun name member => ?_
  have named := legal name member
  refine decide_eq_true ⟨?_, ?_⟩
  · rintro rfl
    cases named
  · intro comment
    obtain ⟨rest, spelled⟩ := List.isPrefixOf_iff_prefix.mp comment
    have tag := isTagChar_of_isVariantName named '#' (spelled ▸ List.mem_cons_self)
    revert tag
    decide

/-- Names that are joined with commas are split into themselves. -/
theorem splitList_join {names : List String} (some_ : names ≠ [])
    (legal : ∀ name ∈ names, isVariantName name = true) :
    splitList (Text.join names ",") = names := by
  have cut : splitAny ['\n', ',', ';'] (Text.join names ",") = names := by
    rw [splitAny, toList_join]
    induction names with
    | nil => exact absurd rfl some_
    | cons first rest ih =>
        obtain ⟨here, others⟩ := List.forall_mem_cons.mp legal
        have whole := List.splitOnP_eq_singleton (not_separator here)
        cases rest with
        | nil =>
            simp only [List.map_cons, List.map_nil, List.intercalate_singleton]
            rw [whole]
            simp
        | cons next rest =>
            have later := ih (List.cons_ne_nil _ _) others
            rw [List.map_cons, List.map_cons, List.intercalate_cons_cons]
            have comma : (",".toList : List Char) = [','] := rfl
            rw [comma, List.append_assoc, List.singleton_append,
              List.splitOnP_append_cons _ _ (by decide), whole, List.map_append]
            rw [comma, List.map_cons] at later
            rw [later]
            simp
  rw [splitList, cut, items_of_names legal]

/-! ### The selection of a job -/

/-- Nothing is trimmed from a text without spaces. -/
theorem trimChars_of_shown {chars : List Char} (shown : ∀ char ∈ chars, isSpace char = false) :
    trimChars chars = chars := by
  have kept : ∀ {chars : List Char}, (∀ char ∈ chars, isSpace char = false) →
      chars.dropWhile isSpace = chars := by
    intro chars shown
    cases chars with
    | nil => rfl
    | cons first rest => rw [List.dropWhile_cons_of_neg (by simp [shown first List.mem_cons_self])]
  rw [trimChars, kept shown, kept fun char member => shown char (List.mem_reverse.mp member),
    List.reverse_reverse]

/-- Joined names hold the characters of tags and commas. -/
theorem mem_join_names {names : List String} (legal : ∀ name ∈ names, isVariantName name = true) :
    ∀ char ∈ (Text.join names ",").toList, isTagChar char = true ∨ char = ',' := by
  rw [toList_join]
  induction names with
  | nil => rintro char ⟨⟩
  | cons first rest ih =>
      obtain ⟨here, others⟩ := List.forall_mem_cons.mp legal
      intro char member
      cases rest with
      | nil =>
          rw [List.map_cons, List.map_nil, List.intercalate_singleton] at member
          exact .inl (isTagChar_of_isVariantName here char member)
      | cons next rest =>
          rw [List.map_cons, List.map_cons, List.intercalate_cons_cons, List.append_assoc] at member
          rcases List.mem_append.mp member with inside | more
          · exact .inl (isTagChar_of_isVariantName here char inside)
          · rcases List.mem_append.mp more with comma | later
            · exact .inr (List.mem_singleton.mp comma)
            · exact ih others char later

/-- What is handed to a job comes in place of what was typed in. -/
theorem dispatchInput_of_names {runner : Runner} {names : List String} (some_ : names ≠ [])
    (legal : ∀ name ∈ names, isVariantName name = true)
    (handed : runner.env "INPUT_VARIANTS" = Text.join names ",") :
    dispatchInput engine runner "VARIANTS" = Text.join names "," := by
  have chars := mem_join_names legal
  have shown : ∀ char ∈ (Text.join names ",").toList, isSpace char = false := by
    intro char member
    rcases chars char member with tag | rfl
    · exact isSpace_of_isTagChar tag
    · decide
  have trimmed : readOptional (Text.join names ",") = Text.join names "," := by
    rw [readOptional, trim, trimChars_of_shown shown, String.ofList_toList]
  have full : Text.join names "," ≠ "" := by
    intro blank
    have split := splitList_join some_ legal
    rw [blank] at split
    exact some_ (split.symm.trans (by decide))
  have expanded : isUnexpanded (Text.join names ",") = false := by
    unfold isUnexpanded
    split
    · next spelled =>
      exact absurd (chars '$' (spelled ▸ List.mem_cons_self)) (by decide)
    · rfl
  unfold dispatchInput
  dsimp only
  rw [show "INPUT_" ++ "VARIANTS" = "INPUT_VARIANTS" by decide, handed, trimmed, if_neg]
  rintro (blank | open_)
  · exact full blank
  · rw [expanded] at open_
    cases open_

/-- The table of a run. -/
def tableText (runner : Runner) : String := variantTableRaw runner.env runner.readFile

/-- The selection is read from the input of the dispatch. -/
theorem selectedVariants_eq (runner : Runner) : selectedVariants engine runner =
    (parseVariants (tableText runner) >>= fun table =>
      variantSelection table (dispatchInput engine runner "VARIANTS")) := by
  unfold selectedVariants tableText variantTableRaw
  dsimp only
  split
  · rfl
  · rfl

/-- Of a table with distinct names the names of some variants select these. -/
theorem filter_names {table selected : List Variant} (within : selected.Sublist table)
    (distinct : (table.map Variant.name).Nodup) :
    (table.filter fun variant => variant.name ∈ selected.map Variant.name) = selected := by
  induction within with
  | slnil => rfl
  | @cons selected rest first within ih =>
      obtain ⟨fresh, others⟩ := List.nodup_cons.mp distinct
      have outside : first.name ∉ selected.map Variant.name :=
        fun inside => fresh ((within.map Variant.name).subset inside)
      rw [List.filter_cons_of_neg (by simpa using outside), ih others]
  | @cons_cons selected rest first within ih =>
      obtain ⟨fresh, others⟩ := List.nodup_cons.mp distinct
      rw [List.filter_cons_of_pos (by simp)]
      refine congrArg (first :: ·) (Eq.trans (List.filter_congr fun variant member => ?_) (ih others))
      have other : variant.name ≠ first.name :=
        fun same => fresh (same ▸ List.mem_map_of_mem member)
      simp [other]

/-! ### The matrix -/

/-- A character of a tag is written as it is, by `JSON.stringify` and by the encoder of Go. -/
theorem written_of_isTagChar {char : Char} (legal : isTagChar char = true) :
    jsonChar char = char.toString ∧ escapeChar char = [char] := by
  have code := toNat_of_isTagChar legal
  simp only [List.mem_cons, List.not_mem_nil, or_false] at code
  have other : ∀ {mark : Char}, isTagChar mark = false → char ≠ mark := by
    rintro mark illegal rfl
    exact Bool.false_ne_true (illegal.symm.trans legal)
  have quote : char ≠ '"' := other (by decide)
  have slash : char ≠ '\\' := other (by decide)
  have line : char ≠ '\n' := other (by decide)
  have carriage : char ≠ '\r' := other (by decide)
  have tab : char ≠ '\t' := other (by decide)
  have less : char ≠ '<' := other (by decide)
  have greater : char ≠ '>' := other (by decide)
  have ampersand : char ≠ '&' := other (by decide)
  constructor
  · unfold jsonChar
    simp only [quote, slash, line, carriage, tab, if_false]
    rw [if_neg (by omega), if_neg (by omega), if_neg (by omega), if_neg (by omega)]
  · unfold escapeChar
    simp only [quote, slash, line, carriage, tab, less, greater, ampersand, if_false, false_or]
    rw [if_neg (by omega), if_neg (by omega), if_neg (by omega)]

/-- A name needs no escape. -/
theorem written_of_name {name : String} (legal : isVariantName name = true) :
    (jsonString name).toList = '"' :: (name.toList ++ ['"']) ∧
      escapeText name.toList = name.toList := by
  have each := isTagChar_of_isVariantName legal
  generalize spelled : name.toList = chars at each
  have joined : (String.join (chars.map jsonChar)).toList = chars ∧ escapeText chars = chars := by
    clear spelled legal
    induction chars with
    | nil => exact ⟨rfl, rfl⟩
    | cons char rest ih =>
        obtain ⟨here, others⟩ := List.forall_mem_cons.mp each
        obtain ⟨plain, escaped⟩ := written_of_isTagChar here
        obtain ⟨more, later⟩ := ih others
        constructor
        · rw [List.map_cons, String.join_cons, String.toList_append, more, plain]
          simp
        · rw [escapeText, List.flatMap_cons, escaped]
          exact congrArg (char :: ·) later
  refine ⟨?_, joined.2⟩
  rw [jsonString, spelled, String.toList_append, String.toList_append, joined.1]
  rfl

/-- The value that the runner reads off the matrix. -/
def matrixValue (names : List String) : Json :=
  .object [("variant", .array (names.map .string))]

/-- Names are written with commas between them. -/
theorem itemsText_strings (names : List String) :
    itemsText (names.map .string) =
      [','].intercalate (names.map fun name => '"' :: (name.toList ++ ['"'])) := by
  induction names with
  | nil => rfl
  | cons first rest ih =>
      cases rest with
      | nil => simp [itemsText, text]
      | cons next rest =>
          simp only [List.map_cons] at ih ⊢
          rw [itemsText, ih, List.intercalate_cons_cons]
          simp [text]

/-- What `JSON.stringify` writes of the matrix is read back. -/
theorem decodeValue_matrixOutput {variants : List Variant}
    (legal : ∀ variant ∈ variants, isVariantName variant.name = true) :
    decodeValue (matrixOutput variants) = some (matrixValue (variants.map Variant.name)) := by
  have numbers : NumbersValid (matrixValue (variants.map Variant.name)) := by
    intro literal within
    rcases within_object.mp within with same | ⟨member, listed, within⟩
    · cases same
    · obtain rfl := List.mem_singleton.mp listed
      rcases within_array.mp within with same | ⟨item, listed, within⟩
      · cases same
      · obtain ⟨name, _, rfl⟩ := List.mem_map.mp listed
        cases within
  refine decodeValue_marshal ?_ ?_ ?_
  · rw [marshal, if_pos numbers]
    refine congrArg some (String.toList_injective ?_)
    have same : escapeTree (matrixValue (variants.map Variant.name)) =
        matrixValue (variants.map Variant.name) := by
      have key : overChars escapeText "variant" = "variant" := by decide
      have each : ∀ variant ∈ variants, overChars escapeText variant.name = variant.name := by
        intro variant member
        rw [overChars, (written_of_name (legal variant member)).2, String.ofList_toList]
      simpa [escapeTree, matrixValue, mapStrings, key] using each
    have items : itemsText ((variants.map Variant.name).map .string) =
        (Text.join (variants.map fun variant => jsonString variant.name) ",").toList := by
      rw [itemsText_strings, toList_join, List.map_map, List.map_map]
      exact congrArg _ (List.map_congr_left fun variant member =>
        (written_of_name (legal variant member)).1.symm)
    rw [same, String.toList_ofList, matrixValue, text, membersText, text, items, matrixOutput,
      String.toList_append, String.toList_append]
    simp
  · have flat : itemsDepth ((variants.map Variant.name).map .string) ≤ 0 :=
      itemsDepth_le_iff.mpr fun item listed => by
        obtain ⟨name, _, rfl⟩ := List.mem_map.mp listed
        exact Nat.le_refl 0
    have small : depth (matrixValue (variants.map Variant.name)) ≤ 2 :=
      Nat.succ_le_succ (Nat.max_le.mpr ⟨Nat.succ_le_succ flat, Nat.zero_le _⟩)
    exact small.trans (by decide)
  · refine IsMaps.object (by simp [KeysSorted]) fun member listed => ?_
    obtain rfl := List.mem_singleton.mp listed
    intro inner within
    rcases within_array.mp within with same | ⟨item, listed, within⟩
    · cases same
    · obtain ⟨name, _, rfl⟩ := List.mem_map.mp listed
      cases within

/-! ### The variants of the jobs -/

/-- What the plan chose. -/
theorem planMatrix_ok_iff {runner : Runner} {variants : List Variant} :
    planMatrix engine runner = .ok variants ↔
      selectedVariants engine runner = .ok variants ∧ variants ≠ [] := by
  rw [selectedVariants_eq, planMatrix]
  simp only [bind_ok_iff, check_ok_iff, pure_ok_iff, tableText]
  constructor
  · rintro ⟨table, parsed, chosen, selection, some_, rfl⟩
    exact ⟨⟨table, parsed, selection⟩, some_⟩
  · rintro ⟨⟨table, parsed, selection⟩, some_⟩
    exact ⟨table, parsed, variants, selection, some_, rfl⟩

/-- The names that a job is handed select their variants from the table. -/
theorem selectedVariants_of_names {runner : Runner} {table selected : List Variant}
    (parsed : parseVariants (tableText runner) = .ok table) (some_ : selected ≠ [])
    (within : selected.Sublist table)
    (handed : runner.env "INPUT_VARIANTS" = variantsOutput selected) :
    selectedVariants engine runner = .ok selected := by
  have names := TableNames.of_parseVariants parsed
  have legal : ∀ name ∈ selected.map Variant.name, isVariantName name = true := by
    intro name listed
    obtain ⟨variant, member, rfl⟩ := List.mem_map.mp listed
    exact names.legal variant (within.subset member)
  have full : selected.map Variant.name ≠ [] := List.map_eq_nil_iff.not.mpr some_
  have read : splitList (variantsOutput selected) = selected.map Variant.name :=
    splitList_join full legal
  have input : dispatchInput engine runner "VARIANTS" = variantsOutput selected :=
    dispatchInput_of_names full legal handed
  rw [selectedVariants_eq, input]
  refine bind_ok_iff.2 ⟨table, parsed, ?_⟩
  rw [variantSelection_known, read, filter_names within names.distinct]
  · rw [read]
    exact full
  · rw [read]
    exact (within.map _).subset

/-- What the plan hands on is read back by the runner, and by each job that has the same table: the
list by one job for all variants, each name by the job for that variant. -/
theorem plan_reaches_jobs {plan job : Runner} {variants : List Variant}
    (planned : planMatrix engine plan = .ok variants) (table : tableText job = tableText plan) :
    decodeValue (matrixOutput variants) = some (matrixValue (variants.map Variant.name)) ∧
      (job.env "INPUT_VARIANTS" = variantsOutput variants →
        selectedVariants engine job = .ok variants) ∧
      ∀ variant ∈ variants, job.env "INPUT_VARIANTS" = variant.name →
        selectedVariants engine job = .ok [variant] := by
  obtain ⟨selects, some_⟩ := planMatrix_ok_iff.mp planned
  rw [selectedVariants_eq] at selects
  obtain ⟨rows, parsed, selection⟩ := bind_ok_iff.1 selects
  have within := sublist_variantSelection selection
  rw [← table] at parsed
  have names := TableNames.of_parseVariants parsed
  refine ⟨decodeValue_matrixOutput fun variant member => names.legal variant (within.subset member),
    selectedVariants_of_names parsed some_ within, fun variant member => ?_⟩
  exact selectedVariants_of_names parsed (List.cons_ne_nil _ _)
    ((List.singleton_sublist.mpr member).trans within)

/-- Both variants of the small release reach their jobs. -/
theorem plan_reaches_jobs_smallRun :
    decodeValue (matrixOutput smallRelease.variants) = some (matrixValue ["a", "b"]) ∧
      selectedVariants plainEngine
        { smallRun with env := Function.update smallRun.env "INPUT_VARIANTS" "a,b" } =
          .ok smallRelease.variants :=
  have reaches := plan_reaches_jobs
    (by decide : planMatrix plainEngine smallRun = .ok smallRelease.variants)
    (by decide : tableText
      { smallRun with env := Function.update smallRun.env "INPUT_VARIANTS" "a,b" } =
        tableText smallRun)
  ⟨reaches.1, reaches.2.1 (by decide)⟩

/-! ### Jobs for one variant each -/

/-- The job for one variant of a run, at another time. -/
def JobRun.only (job : JobRun) (name later : String) : JobRun :=
  { job with env := Function.update job.env "INPUT_VARIANTS" (some name), now := later }

section Only

variable {job : JobRun} {name later : String}

/-- A job of one variant has the environment of the others but for its input. -/
theorem only_env {other : String} (different : other ≠ "INPUT_VARIANTS") :
    (job.only name later).env other = job.env other := Function.update_of_ne different ..

theorem only_runner_env {other : String} (different : other ≠ "INPUT_VARIANTS") :
    (job.only name later).runner.env other = job.runner.env other :=
  congrArg (Option.getD · "") (only_env different)

/-- It reads the same other inputs. -/
theorem only_dispatchInput {input : String} (different : "INPUT_" ++ input ≠ "INPUT_VARIANTS") :
    dispatchInput engine (job.only name later).runner input =
      dispatchInput engine job.runner input := by
  unfold dispatchInput
  rw [only_runner_env different]
  rfl

/-- It has the same tag. -/
theorem only_rawTag : rawTag engine (job.only name later).runner = rawTag engine job.runner := by
  simp (disch := decide) only [rawTag, only_dispatchInput, only_runner_env]

/-- It accepts the same tag. -/
theorem only_checkTag : checkTag engine (job.only name later).runner = checkTag engine job.runner := by
  simp (disch := decide) only [checkTag, only_rawTag, only_dispatchInput, only_runner_env]

/-- It is a dry run like the others. -/
theorem only_isDryRun : isDryRun engine (job.only name later).runner = isDryRun engine job.runner := by
  simp (disch := decide) only [isDryRun, only_dispatchInput]

/-- It has the same registries. -/
theorem only_registriesFrom : registriesFrom engine (job.only name later).runner.env =
    registriesFrom engine job.runner.env := by
  have namespace_ : ghcrNamespaceFrom engine (job.only name later).runner.env =
      ghcrNamespaceFrom engine job.runner.env := by
    simp (disch := decide) only [ghcrNamespaceFrom, only_runner_env]
  have enabled : ∀ (id : RegistryId) (user : String),
      decide (readOptional ((job.only name later).runner.env id.tokenVar) ≠ "" ∧ user ≠ "") =
        decide (readOptional (job.runner.env id.tokenVar) ≠ "" ∧ user ≠ "") := by
    intro id user
    rw [only_runner_env (by cases id <;> decide)]
  unfold registriesFrom
  dsimp only
  rw [namespace_, enabled, enabled, only_runner_env (by decide)]

/-- It has the same images. -/
theorem only_imagesFrom {registries : List Registry} {repoName : String} {preview : Bool} :
    imagesFrom engine (job.only name later).runner.env registries repoName preview =
      imagesFrom engine job.runner.env registries repoName preview := by
  simp (disch := decide) only [imagesFrom, only_runner_env]

/-- It has the same release. -/
theorem only_releaseState {variants : List Variant} {images : List Image} {options : BuildOptions} :
    releaseState engine (job.only name later).runner variants images options =
      releaseState engine job.runner variants images options := by
  simp (disch := decide) only [releaseState, repoNameOf, only_rawTag, only_dispatchInput, only_isDryRun,
    only_registriesFrom, only_runner_env]

/-- The job for one variant resolves to the release with that variant. -/
theorem resolve_only {resolved : State} (resolves : resolveRelease engine job.runner = .ok resolved)
    {variant : Variant} (member : variant ∈ resolved.variants) :
    resolveRelease engine (job.only variant.name later).runner =
      .ok { resolved with variants := [variant] } := by
  obtain ⟨variants, images, options, checked, selected, based, optional, rfl⟩ :=
    resolveRelease_ok_iff.mp resolves
  rw [selectedVariants_eq] at selected
  obtain ⟨table, parsed, selection⟩ := bind_ok_iff.1 selected
  have within : [variant].Sublist table :=
    (List.singleton_sublist.mpr member).trans (sublist_variantSelection selection)
  have text : tableText (job.only variant.name later).runner = tableText job.runner := by
    simp (disch := decide) only [tableText, variantTableRaw, only_runner_env]
    rfl
  have own : selectedVariants engine (job.only variant.name later).runner = .ok [variant] :=
    selectedVariants_of_names (text ▸ parsed) (List.cons_ne_nil _ _) within
      (by simp [JobRun.runner, JobRun.only, variantsOutput, Text.join])
  refine resolveRelease_ok_iff.mpr ⟨[variant], images, options, ?_, own, ?_, ?_, ?_⟩
  · rw [only_checkTag]
    exact checked
  · rw [only_registriesFrom, only_isDryRun, only_imagesFrom, ← based]
    simp (disch := decide) only [repoNameOf, only_runner_env]
  · rw [only_isDryRun, ← optional]
    simp (disch := decide) only [buildOptionsFrom, only_runner_env]
  · rw [only_releaseState]
    simp only [releaseState]

/-- The build arguments that are filled in are the same. -/
theorem only_resolvedWith (lower : engine.toLowerCase "GOPROXY" ≠ "INPUT_VARIANTS")
    (endpoints : Endpoints) (resolved : State) (variants : List Variant) :
    resolvedWith engine (job.only name later).env endpoints { resolved with variants } =
      { resolvedWith engine job.env endpoints resolved with variants } := by
  have goProxy : goProxyFrom engine (job.only name later).env = goProxyFrom engine job.env := by
    unfold goProxyFrom envValue
    dsimp only
    rw [only_env (by decide), only_env lower, envValue, envValue]
  have args : defaultBuildArgs engine resolved.version (job.only name later).env endpoints =
      defaultBuildArgs engine resolved.version job.env endpoints := by
    have read : ∀ other, other ≠ "INPUT_VARIANTS" →
        (job.only name later).env.read other = job.env.read other := fun other different => by
      rw [ProcessEnv.read, only_env different, ProcessEnv.read]
    unfold defaultBuildArgs
    rw [goProxy, read "APK_REPO" (by decide), read "YUM_REPO" (by decide)]
  unfold resolvedWith withDefaultBuildArgs
  dsimp only
  rw [args]

/-- The time is no part of what the rules are read from. -/
theorem parseMeta_only (now : String) :
    parseMeta (metaInput (job.only name later).env later) = parseMeta (metaInput job.env now) := by
  have same : metaInput (job.only name later).env later =
      { metaInput job.env now with now := later } := by
    simp (disch := decide) only [metaInput, only_env]
  rw [same, parseMeta_now]

end Only

/-- One build has no duplicates. -/
theorem findDuplicateTags_single (build : Build) : findDuplicateTags [build] = [] := by
  refine duplicatesFrom_eq_nil_iff.2 ⟨?_, ?_⟩
  · rintro pair _ first ⟨⟩
  · rw [List.flatMap_cons, List.flatMap_nil, List.append_nil, List.pairwise_map]
    exact List.pairwise_of_forall fun _ _ _ => rfl

/-- Pairs that are related over a middle have a list of middles. -/
theorem exists_between {α β γ : Type} {left : α → β → Prop} {right : β → γ → Prop} {firsts : List α}
    {lasts : List γ} (pairs : List.Forall₂ (fun first last => ∃ middle, left first middle ∧
      right middle last) firsts lasts) :
    ∃ middles, List.Forall₂ left firsts middles ∧ List.Forall₂ right middles lasts := by
  induction pairs with
  | nil => exact ⟨[], .nil, .nil⟩
  | cons pair _ ih =>
      obtain ⟨middle, one, two⟩ := pair
      obtain ⟨middles, ones, twos⟩ := ih
      exact ⟨middle :: middles, .cons one ones, .cons two twos⟩

/-- The state file of a job that has one of the builds, with labels of its own. -/
structure Share (state : State) (single : State) (build : Build) : Prop where
  version : single.version = state.version
  shortSha : single.shortSha = state.shortSha
  own : ∃ own : Build, single.builds = [own] ∧ { own with labels := build.labels } = build

/-- A job has staged all that it has to when the build that it shares is staged. -/
theorem Share.allStaged_iff {state single : State} {build : Build}
    (share : Share state single build) (refs : Refs) :
    AllStaged single refs ↔ Staged state build refs := by
  obtain ⟨own, only, same⟩ := share.own
  have variant : own.variant = build.variant := by rw [← same]
  have images : own.images = build.images := by rw [← same]
  unfold AllStaged Staged StagingOf StagedAs
  rw [only, List.forall_mem_singleton, share.version, share.shortSha, variant, images]

/-- The job for one variant plans the build of that variant, at its own time. -/
theorem stateFile_only (lower : engine.toLowerCase "GOPROXY" ≠ "INPUT_VARIANTS") {job : JobRun}
    {state : State} (done : job.stateFile engine = .ok state) (later : Variant → String) :
    List.Forall₂ (fun variant build => ∃ single,
      (job.only variant.name (later variant)).stateFile engine = .ok single ∧
        Share state single build) state.variants state.builds := by
  obtain ⟨completed, builds, file, computed, rfl⟩ := JobRun.stateFile_ok_iff.mp done
  obtain ⟨resolved, resolves, rfl⟩ := JobRun.resolvedFile_ok_iff.mp file
  obtain ⟨rules, flavor, labels, tags, parsed, generated, some_, mapped, _⟩ :=
    computeBuilds_ok_iff.mp computed
  refine ((List.forall₂_and_left ..).mpr ⟨fun _ => id, mapM_ok_iff.1 mapped⟩).imp ?_
  rintro variant build ⟨member, planned⟩
  obtain ⟨names, named, built⟩ := bind_ok_iff.1 planned
  obtain rfl := pure_ok_iff.1 built
  let completed := resolvedWith engine job.env job.endpoints resolved
  let own : Build := {
    variant := variant.name, suffix := variant.suffix, dockerfile := variant.dockerfile,
    target := variant.target, isDefault := variant.isDefault, buildArgs := variant.buildArgs,
    platforms := variant.platforms, tagNames := names,
    labels := buildLabels completed labels (later variant),
    images := completed.images.map fun image =>
      ⟨image.base, image.registryId, names.map fun name => image.base ++ ":" ++ name⟩ }
  refine ⟨{ completed with variants := [variant], builds := [own] }, ?_, rfl, rfl, own, rfl, rfl⟩
  have single : (job.only variant.name (later variant)).resolvedFile engine =
      .ok { completed with variants := [variant] } :=
    JobRun.resolvedFile_ok_iff.mpr
      ⟨_, resolve_only resolves member, (only_resolvedWith lower _ resolved [variant]).symm⟩
  refine JobRun.stateFile_ok_iff.mpr ⟨_, [own], single, computeBuilds_ok_iff.mpr
    ⟨rules, flavor, labels, tags, ?_, generated, some_, ?_, findDuplicateTags_single own⟩, rfl⟩
  · exact (parseMeta_only job.now).trans parsed
  · exact mapM_ok_iff.2 (.cons (bind_ok_iff.2 ⟨names, named, rfl⟩) .nil)

/-- Jobs for one variant each, at whatever times, plan what one job for all variants plans, and the
publication finds all of its staging references exactly when each of them has staged its own. -/
theorem parallel_jobs_agree (lower : engine.toLowerCase "GOPROXY" ≠ "INPUT_VARIANTS") {job : JobRun}
    {state : State} (done : job.stateFile engine = .ok state) (later : Variant → String) :
    ∃ singles : List State,
      List.Forall₂ (fun variant single =>
        (job.only variant.name (later variant)).stateFile engine = .ok single) state.variants singles ∧
      List.Forall₂ (Share state) singles state.builds ∧
      ∀ refs, AllStaged state refs ↔ ∀ single ∈ singles, AllStaged single refs := by
  obtain ⟨singles, done, shares⟩ := exists_between (stateFile_only lower done later)
  refine ⟨singles, done, shares, fun refs => ?_⟩
  have whole : ∀ {singles builds}, List.Forall₂ (Share state) singles builds →
      ((∀ build ∈ builds, Staged state build refs) ↔ ∀ single ∈ singles, AllStaged single refs) := by
    intro singles builds shares
    induction shares with
    | nil => exact iff_of_true (by rintro _ ⟨⟩) (by rintro _ ⟨⟩)
    | cons share _ ih => rw [List.forall_mem_cons, List.forall_mem_cons, share.allStaged_iff, ih]
  exact whole shares

/-- A job of the small release with one rule. -/
def smallJobRun : JobRun where
  env := Function.update smallEnv "DOCKER_META_TAGS" (some "x")

/-- The two jobs of the small release together stage what one job of both stages. -/
theorem parallel_jobs_agree_smallJobRun :
    ∃ singles : List State,
      List.Forall₂ (fun variant single =>
        (smallJobRun.only variant.name variant.name).stateFile plainEngine = .ok single)
        smallRelease.variants singles ∧
      List.Forall₂ (Share smallRelease) singles smallRelease.builds ∧
      ∀ refs, AllStaged smallRelease refs ↔ ∀ single ∈ singles, AllStaged single refs :=
  parallel_jobs_agree (by decide)
    (by decide : smallJobRun.stateFile plainEngine = .ok smallRelease) Variant.name

end MessagePusher.Release
