import MessagePusher.Release.LatestOwner
import Mathlib.Data.List.Flatten

/-!
# The tag names of a run

What the meta step names the builds of a run depends on the rules, on the shared tags and on the
variants. A run with some of the variants gives these the names that a run with all of them does.
-/

namespace MessagePusher.Release

open Common Scripts Semantics.Fallible

/-- The variants of the builds with their tag names, unless the meta step fails. -/
def tagNamesOf (result : Except String (List Build)) : Option (List (String × List String)) :=
  result.toOption.map fun builds => builds.map fun build => (build.variant, build.tagNames)

/-- The tag names of a variant. -/
def NamedBy (tags : List Tag) (isTagEvent : Bool) (variant : Variant)
    (entry : String × List String) : Prop :=
  entry.1 = variant.name ∧ variantTagNames tags variant isTagEvent = .ok entry.2

/-- No tag name comes with two variants. -/
def Unshared (names : List (String × List String)) : Prop :=
  (names.flatMap fun entry => entry.2.map fun name => (entry.1, name)).Pairwise
    fun left right => left.2 = right.2 → left.1 = right.1

variable {engine : Engine} {flavor : Flavor} {rules : List Rule} {state other : State}
  {tags : List Tag} {variants : List Variant} {isTagEvent : Bool} {input : MetaInput}
  {names : List (String × List String)}

theorem findDuplicateTags_eq_nil_iff {builds : List Build} :
    findDuplicateTags builds = [] ↔
      Unshared (builds.map fun build => (build.variant, build.tagNames)) := by
  unfold findDuplicateTags Unshared
  rw [duplicatesFrom_eq_nil_iff, List.flatMap_map]
  exact and_iff_right fun _ _ first found => by cases found

theorem NamedBy.unique {variant : Variant} {first second : String × List String}
    (left : NamedBy tags isTagEvent variant first)
    (right : NamedBy tags isTagEvent variant second) : first = second :=
  Prod.ext (left.1.trans right.1.symm) (Except.ok.inj (left.2.symm.trans right.2))

/-- The plans of the variants have the tag names of these. -/
theorem planBuilds_names {labels : List KeyValue} {builds : List Build}
    (plans : variants.mapM (planBuild state tags labels) = .ok builds) :
    List.Forall₂ (NamedBy tags state.isTagEvent) variants
      (builds.map fun build => (build.variant, build.tagNames)) := by
  rw [List.forall₂_map_right_iff]
  refine (mapM_ok_iff.1 plans).imp fun variant build done => ?_
  obtain ⟨computed, named, -⟩ := planBuild_ok done
  exact ⟨named, computed⟩

theorem exists_planBuilds (labels : List KeyValue)
    (named : List.Forall₂ (NamedBy tags state.isTagEvent) variants names) :
    ∃ builds, variants.mapM (planBuild state tags labels) = .ok builds ∧
      (builds.map fun build => (build.variant, build.tagNames)) = names := by
  have each : ∀ variant ∈ variants, ∃ build, planBuild state tags labels variant = .ok build := by
    intro variant member
    induction named with
    | nil => cases member
    | cons first _ ih =>
        rcases List.mem_cons.mp member with rfl | later
        · unfold planBuild
          rw [first.2]
          exact ⟨_, rfl⟩
        · exact ih later
  obtain ⟨builds, plans⟩ := exists_mapM each
  exact ⟨builds, plans, List.right_unique_forall₂' (fun _ _ _ left right => left.unique right)
    (planBuilds_names plans) named⟩

/-- What the tag names of a run depend on. -/
theorem tagNamesOf_eq_some_iff :
    tagNamesOf (computeBuilds engine state input) = some names ↔
      ∃ rules flavor labels tags, parseMeta input = .ok (rules, flavor, labels) ∧
        generateTags engine rules flavor state.context = .ok tags ∧ tags ≠ [] ∧
        List.Forall₂ (NamedBy tags state.isTagEvent) state.variants names ∧ Unshared names := by
  constructor
  · intro named
    cases computed : computeBuilds engine state input with
    | error text =>
        rw [computed] at named
        cases named
    | ok builds =>
        rw [computed] at named
        obtain rfl := Option.some.inj named
        obtain ⟨rules, flavor, labels, tags, parsed, generated, some_, plans, unique⟩ :=
          computeBuilds_ok_iff.1 computed
        exact ⟨rules, flavor, labels, tags, parsed, generated, some_, planBuilds_names plans,
          findDuplicateTags_eq_nil_iff.1 unique⟩
  · rintro ⟨rules, flavor, labels, tags, parsed, generated, some_, named, unshared⟩
    obtain ⟨builds, plans, rfl⟩ := exists_planBuilds (buildLabels state labels input.now) named
    have computed : computeBuilds engine state input = .ok builds :=
      computeBuilds_ok_iff.2 ⟨rules, flavor, labels, tags, parsed, generated, some_, plans,
        findDuplicateTags_eq_nil_iff.2 unshared⟩
    rw [computed]
    rfl

/-! ### Some of the variants -/

theorem Unshared.filter (unshared : Unshared names) (keep : String × List String → Bool) :
    Unshared (names.filter keep) :=
  List.Pairwise.sublist (List.filter_sublist.map _).flatten unshared

theorem NamedBy.filter (named : List.Forall₂ (NamedBy tags isTagEvent) variants names)
    (wanted : String → Bool) :
    List.Forall₂ (NamedBy tags isTagEvent) (variants.filter fun variant => wanted variant.name)
      (names.filter fun entry => wanted entry.1) := by
  induction named with
  | nil => exact .nil
  | @cons variant entry _ _ first _ ih =>
      rw [List.filter_cons, List.filter_cons, first.1]
      split_ifs
      · exact .cons first ih
      · exact ih

/-- The same rules with the same tags, for the variants that are wanted. -/
theorem tagNamesOf_filter {later : MetaInput} (wanted : String → Bool)
    (sameTags : ∀ rules flavor labels, parseMeta input = .ok (rules, flavor, labels) →
      generateTags engine rules flavor state.context =
        generateTags engine rules flavor other.context)
    (sameInput : parseMeta later = parseMeta input)
    (sameEvent : other.isTagEvent = state.isTagEvent)
    (chosen : other.variants = state.variants.filter fun variant => wanted variant.name)
    (named : tagNamesOf (computeBuilds engine state input) = some names) :
    tagNamesOf (computeBuilds engine other later) =
      some (names.filter fun entry => wanted entry.1) := by
  obtain ⟨rules, flavor, labels, tags, parsed, generated, some_, each, unshared⟩ :=
    tagNamesOf_eq_some_iff.1 named
  rw [sameTags rules flavor labels parsed] at generated
  refine tagNamesOf_eq_some_iff.2 ⟨rules, flavor, labels, tags, sameInput.trans parsed,
    generated, some_, ?_, unshared.filter _⟩
  rw [chosen, sameEvent]
  exact NamedBy.filter each wanted

end MessagePusher.Release
