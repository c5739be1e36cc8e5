import MessagePusher.Release.VariantTable

/-!
# The owner of the unsuffixed tags

An accepted table has its variants in the order of its rows, and exactly one of them is the default
variant, the one whose build keeps the unsuffixed tags. Jobs that divide the names of the table
among them therefore build it once, without knowing of each other.
-/

namespace MessagePusher.Release

open Common Scripts Semantics.Fallible

/-- The first column of a row. -/
def rowName (row : String) : String := ((Text.split row '|').map trim).getD 0 ""

/-- The selections of several jobs name each variant of the table once, and none of them is left
empty, which would be all variants. -/
structure Partition (table : List Variant) (selections : List String) : Prop where
  nonempty : ∀ selection ∈ selections, splitList selection ≠ []
  within : ∀ selection ∈ selections, ∀ name ∈ splitList selection, name ∈ table.map Variant.name
  covers : ∀ name ∈ table.map Variant.name, ∃ selection ∈ selections, name ∈ splitList selection
  apart : selections.Pairwise fun first second =>
    ∀ name ∈ splitList first, name ∉ splitList second

/-- Whether a job with this selection builds the default variant. -/
def selectsOwner (table : List Variant) (selection : String) : Bool :=
  match variantSelection table selection with
  | .ok selected => selected.any Variant.isDefault
  | .error _ => false

variable {raw selection : String} {table before : List Variant} {selections : List String}

/-! ### The table -/

theorem parseVariant_rowName {seen : List String} {line : String} {variant : Variant}
    (parsed : parseVariant seen line = .ok variant) : variant.name = rowName line := by
  unfold parseVariant at parsed
  simp only [check_ok_iff, bind_ok_iff, pure_ok_iff] at parsed
  obtain ⟨-, -, buildArgs, -, platforms, -, rfl⟩ := parsed
  rfl

/-- Each line puts its variant behind the others. -/
theorem parseVariantLines_names {lines : List String}
    (parsed : parseVariantLines lines before = .ok table) :
    table.map Variant.name = before.map Variant.name ++ lines.map rowName := by
  induction lines generalizing before with
  | nil =>
      cases parsed
      exact (List.append_nil _).symm
  | cons line lines ih =>
      obtain ⟨variant, first, rest⟩ := bind_ok_iff.1 parsed
      rw [ih rest, List.map_append, List.map_singleton, parseVariant_rowName first,
        List.append_assoc]
      rfl

/-- A table is what the loop arrives at, with a lone variant as its own default. -/
theorem parseVariants_ok (parsed : parseVariants raw = .ok table) :
    table.map Variant.name = (splitLines raw).map rowName ∧
      table.countP Variant.isDefault = 1 := by
  unfold parseVariants at parsed
  simp only [check_ok_iff, bind_ok_iff] at parsed
  obtain ⟨some_, variants, lines, few, marked, rest⟩ := parsed
  have names : variants.map Variant.name = (splitLines raw).map rowName :=
    parseVariantLines_names lines
  rw [← List.countP_eq_length_filter] at few marked rest
  split_ifs at rest with unmarked
  · obtain rfl := pure_ok_iff.1 rest
    have sameLength : variants.length = (splitLines raw).length := by
      simpa using congrArg List.length names
    have nonempty : (splitLines raw).length ≠ 0 := fun nil => some_ (List.length_eq_zero_iff.mp nil)
    -- Without a mark there is one row, and its variant becomes the default one.
    obtain ⟨lone, rfl⟩ : ∃ lone, variants = [lone] := by
      refine List.length_eq_one_iff.mp ?_
      have notMany : ¬ 1 < variants.length := fun many => marked ⟨unmarked, many⟩
      omega
    exact ⟨names, rfl⟩
  · obtain rfl := pure_ok_iff.1 rest
    exact ⟨names, by omega⟩

/-! ### The selections -/

/-- Exactly one element has a property that some has and no two do. -/
theorem countP_eq_one {α : Type*} {test : α → Bool} {values : List α}
    (some_ : ∃ value ∈ values, test value = true)
    (apart : values.Pairwise fun first second => ¬ (test first = true ∧ test second = true)) :
    values.countP test = 1 := by
  induction values with
  | nil =>
      obtain ⟨value, member, -⟩ := some_
      cases member
  | cons first rest ih =>
      obtain ⟨fresh, others⟩ := List.pairwise_cons.mp apart
      by_cases here : test first = true
      · have none_ : rest.countP test = 0 :=
          List.countP_eq_zero.mpr fun other member also => fresh other member ⟨here, also⟩
        rw [List.countP_cons_of_pos here, none_]
      · rw [List.countP_cons_of_neg here]
        refine ih ?_ others
        obtain ⟨value, member, holds⟩ := some_
        rcases List.mem_cons.mp member with rfl | later
        · exact absurd holds here
        · exact ⟨value, later, holds⟩

/-- A selection of known names goes through. -/
theorem variantSelection_known (named : splitList selection ≠ [])
    (known : ∀ name ∈ splitList selection, name ∈ table.map Variant.name) :
    variantSelection table selection =
      .ok (table.filter fun variant => variant.name ∈ splitList selection) := by
  have noneUnknown : ((splitList selection).filter fun name =>
      name ∉ table.map Variant.name) = [] :=
    List.filter_eq_nil_iff.mpr fun name member => by simpa using known name member
  unfold variantSelection
  dsimp only
  rw [if_neg named, if_neg (not_not.mpr noneUnknown)]

/-- Of a partition exactly one selection has the default variant. -/
theorem Partition.countP_selectsOwner (partition : Partition table selections)
    (single : table.countP Variant.isDefault = 1) :
    selections.countP (selectsOwner table) = 1 := by
  have one : (table.filter Variant.isDefault).length = 1 := by
    rw [← List.countP_eq_length_filter]
    exact single
  obtain ⟨owner, only⟩ := List.length_eq_one_iff.mp one
  have ofTable : ∀ variant, variant ∈ table ∧ variant.isDefault = true ↔ variant = owner := by
    intro variant
    rw [← List.mem_filter, only, List.mem_singleton]
  obtain ⟨listed, isDefault⟩ := (ofTable owner).mpr rfl
  have selects : ∀ selection ∈ selections,
      (selectsOwner table selection = true ↔ owner.name ∈ splitList selection) := by
    intro selection member
    unfold selectsOwner
    rw [variantSelection_known (partition.nonempty selection member)
      (partition.within selection member)]
    dsimp only
    rw [List.any_eq_true]
    constructor
    · rintro ⟨variant, chosen, marked⟩
      obtain ⟨known, wanted⟩ := List.mem_filter.mp chosen
      obtain rfl := (ofTable variant).mp ⟨known, marked⟩
      exact of_decide_eq_true wanted
    · intro wanted
      exact ⟨owner, List.mem_filter.mpr ⟨listed, decide_eq_true wanted⟩, isDefault⟩
  apply countP_eq_one
  · obtain ⟨selection, member, wanted⟩ := partition.covers _ (List.mem_map_of_mem listed)
    exact ⟨selection, member, (selects selection member).mpr wanted⟩
  · refine partition.apart.imp_of_mem ?_
    rintro first second member later disjoint ⟨has, also⟩
    exact disjoint _ ((selects first member).mp has) ((selects second later).mp also)

/-- An accepted table has one default variant among variants with distinct names in the order of its
rows. A selection leaves the variants and their order as they are, and of the jobs of a partition
exactly one has the default variant. -/
theorem unsuffixed_tags_have_one_owner (parsed : parseVariants raw = .ok table) :
    table.countP Variant.isDefault = 1 ∧ (table.map Variant.name).Nodup ∧
      table.map Variant.name = (splitLines raw).map rowName ∧
      (∀ selection selected, variantSelection table selection = .ok selected →
        selected.Sublist table) ∧
      ∀ selections, Partition table selections →
        (∀ selection ∈ selections, ∃ selected, variantSelection table selection = .ok selected) ∧
          selections.countP (selectsOwner table) = 1 := by
  obtain ⟨names, single⟩ := parseVariants_ok parsed
  have distinct := (TableNames.of_parseVariants parsed).distinct
  refine ⟨single, distinct, names, fun _ _ => sublist_variantSelection, ?_⟩
  intro selections partition
  refine ⟨?_, partition.countP_selectsOwner single⟩
  intro selection member
  exact ⟨_, variantSelection_known (partition.nonempty selection member)
    (partition.within selection member)⟩

/-- Two jobs for three variants. -/
theorem unsuffixed_tags_have_one_owner_slim : ∃ table,
    parseVariants "alpine\nslim||||true\nfull" = .ok table ∧
      Partition table ["full, alpine", "slim"] ∧
      ["full, alpine", "slim"].countP (selectsOwner table) = 1 := by
  have parsed : parseVariants "alpine\nslim||||true\nfull" = .ok
      [⟨"alpine", "Dockerfile.alpine", "", "-alpine", false, [], []⟩,
        ⟨"slim", "Dockerfile.slim", "", "-slim", true, [], []⟩,
        ⟨"full", "Dockerfile.full", "", "-full", false, [], []⟩] := by decide
  have partition : Partition
      [⟨"alpine", "Dockerfile.alpine", "", "-alpine", false, [], []⟩,
        ⟨"slim", "Dockerfile.slim", "", "-slim", true, [], []⟩,
        ⟨"full", "Dockerfile.full", "", "-full", false, [], []⟩] ["full, alpine", "slim"] :=
    ⟨by decide, by decide, by decide, by decide⟩
  have owned := (unsuffixed_tags_have_one_owner parsed).2.2.2.2 _ partition
  exact ⟨_, parsed, partition, owned.2⟩

end MessagePusher.Release
