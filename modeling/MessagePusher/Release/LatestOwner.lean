import MessagePusher.Release.SharedTags

/-!
# Disjoint tags and the owner of `latest`

The builds of a run share no tag, since a shared one is refused. That `latest` stays with the
default variant takes more: no other variant may be called so, and no tag of a rule may read
`latest` with the suffix of another variant behind it.
-/

namespace MessagePusher.Release

open Common Scripts Semantics.Fallible

/-- No two builds share a tag. -/
def TagsDisjoint (builds : List Build) : Prop :=
  builds.Pairwise fun first second => ∀ name ∈ first.tagNames, name ∉ second.tagNames

/-- Only the build of the default variant has the tag `latest`. -/
def LatestOwned (builds : List Build) : Prop :=
  ∀ build ∈ builds, "latest" ∈ build.tagNames → build.isDefault = true

/-- A tag of the rules reads `latest` with the suffix behind it, and is not the one that the
flavor adds. -/
def SpellsLatest (engine : Engine) (flavor : Flavor) (ctx : Context) (rules : List Rule)
    (suffix : String) : Prop :=
  ∃ name, (∃ rule ∈ rules, Adds engine flavor ctx rule name) ∧
    ¬ TakenOver engine flavor ctx rules name ∧ sanitizeTagName (name ++ suffix) = .ok "latest"

/-- No variant but the default one comes by the name `latest`, by its own or by its suffix. -/
def LatestSpared (engine : Engine) (flavor : Flavor) (state : State) (rules : List Rule) : Prop :=
  ∀ variant ∈ state.variants, variant.isDefault = false →
    ¬ (state.isTagEvent = true ∧ variant.name = "latest") ∧
      ¬ SpellsLatest engine flavor state.context rules variant.suffix

variable {engine : Engine} {flavor : Flavor} {rules : List Rule} {state : State}
  {variant : Variant} {build : Build} {builds : List Build}

/-! ### Duplicates -/

/-- A tag that is seen again came with the same variant before. -/
def AgreesWith (seen : List (String × String)) (pair : String × String) : Prop :=
  ∀ first, seen.lookup pair.2 = some first → first = pair.1

/-- A pair with a new tag, or with one that is seen with the same variant, changes nothing for
the others but that they must agree with it too. -/
theorem agreesWith_cons_iff {seen : List (String × String)} {variant name : String}
    {pair : String × String} (agrees : AgreesWith seen (variant, name)) :
    AgreesWith ((name, variant) :: seen) pair ↔
      AgreesWith seen pair ∧ (name = pair.2 → variant = pair.1) := by
  unfold AgreesWith at agrees ⊢
  rw [List.lookup_cons]
  by_cases same : pair.2 = name
  · rw [same, beq_self_eq_true]
    constructor
    · intro first
      have here : variant = pair.1 := first variant rfl
      exact ⟨fun other found => (agrees other found).trans here, fun _ => here⟩
    · rintro ⟨-, here⟩ first ⟨⟩
      exact here rfl
  · have different : ¬ name = pair.2 := fun equal => same equal.symm
    have missed : (pair.2 == name) = false := beq_eq_false_iff_ne.2 same
    rw [missed]
    simp [different]

/-- There is no duplicate exactly when a tag always comes with the same variant. -/
theorem duplicatesFrom_eq_nil_iff {pairs seen : List (String × String)} :
    duplicatesFrom pairs seen = [] ↔
      (∀ pair ∈ pairs, AgreesWith seen pair) ∧
        pairs.Pairwise fun left right => left.2 = right.2 → left.1 = right.1 := by
  induction pairs generalizing seen with
  | nil => simp [duplicatesFrom]
  | cons pair pairs ih =>
      obtain ⟨variant, name⟩ := pair
      have goOn : AgreesWith seen (variant, name) →
          (duplicatesFrom pairs ((name, variant) :: seen) = [] ↔
            (∀ pair ∈ (variant, name) :: pairs, AgreesWith seen pair) ∧
              ((variant, name) :: pairs).Pairwise fun left right =>
                left.2 = right.2 → left.1 = right.1) := by
        intro agrees
        rw [ih, List.forall_mem_cons, List.pairwise_cons]
        simp only [agreesWith_cons_iff agrees, forall_and]
        tauto
      unfold duplicatesFrom
      cases found : seen.lookup name with
      | none => exact goOn fun first known => by rw [found] at known; cases known
      | some first =>
          dsimp only
          split_ifs with different
          · refine iff_of_false id ?_
            rintro ⟨agree, -⟩
            exact different (agree _ List.mem_cons_self first found)
          · obtain rfl : first = variant := not_not.mp different
            exact goOn fun other known => Option.some.inj (known.symm.trans found)

/-- Builds of different variants without duplicates share no tag. -/
theorem tagsDisjoint_of_findDuplicateTags (distinct : (builds.map Build.variant).Nodup)
    (none_ : findDuplicateTags builds = []) : TagsDisjoint builds := by
  have agree := (duplicatesFrom_eq_nil_iff.1 none_).2
  rw [List.pairwise_flatMap] at agree
  rw [List.Nodup, List.pairwise_map] at distinct
  refine (List.pairwise_and_iff.2 ⟨distinct, agree.2⟩).imp ?_
  rintro first second ⟨different, across⟩ name left right
  exact different (across _ (List.mem_map_of_mem left) _ (List.mem_map_of_mem right) rfl)

/-! ### The tags of one variant -/

theorem mem_variantTagNames {tags : List Tag} {isTagEvent : Bool} {names : List String}
    (other : variant.isDefault = false)
    (done : variantTagNames tags variant isTagEvent = .ok names) {name : String} :
    name ∈ names ↔ (isTagEvent = true ∧ sanitizeTagName variant.name = .ok name) ∨
      ∃ tag ∈ tags, tag.isLatest = false ∧
        sanitizeTagName (tag.name ++ variant.suffix) = .ok name := by
  obtain ⟨clean, sanitized, same⟩ := bind_ok_iff.1 done
  obtain rfl := pure_ok_iff.1 same
  simp only [other, Bool.false_eq_true, if_false] at sanitized
  have listed : ∀ raw, raw ∈ (if isTagEvent = true then
        ((tags.filter fun tag => !tag.isLatest).map fun tag => tag.name ++ variant.suffix) ++
          [variant.name]
      else (tags.filter fun tag => !tag.isLatest).map fun tag => tag.name ++ variant.suffix) ↔
      (isTagEvent = true ∧ raw = variant.name) ∨
        ∃ tag ∈ tags, tag.isLatest = false ∧ tag.name ++ variant.suffix = raw := by
    intro raw
    cases isTagEvent <;> simp [and_assoc, or_comm]
  rw [List.mem_eraseDups]
  constructor
  · intro member
    obtain ⟨raw, known, cleaned⟩ := mem_of_mapM sanitized member
    rcases (listed raw).mp known with ⟨event, rfl⟩ | ⟨tag, shared, plain, rfl⟩
    · exact .inl ⟨event, cleaned⟩
    · exact .inr ⟨tag, shared, plain, cleaned⟩
  · have comes : ∀ raw, ((isTagEvent = true ∧ raw = variant.name) ∨
        ∃ tag ∈ tags, tag.isLatest = false ∧ tag.name ++ variant.suffix = raw) →
        sanitizeTagName raw = .ok name → name ∈ clean := by
      intro raw source cleaned
      obtain ⟨result, member, cleaned'⟩ := mapM_mem sanitized ((listed raw).mpr source)
      rw [cleaned] at cleaned'
      cases cleaned'
      exact member
    rintro (⟨event, cleaned⟩ | ⟨tag, shared, plain, cleaned⟩)
    · exact comes _ (.inl ⟨event, rfl⟩) cleaned
    · exact comes _ (.inr ⟨tag, shared, plain, rfl⟩) cleaned

/-- What the plan of a variant takes over from it. -/
theorem planBuild_ok {tags : List Tag} {labels : List KeyValue}
    (done : planBuild state tags labels variant = .ok build) :
    variantTagNames tags variant state.isTagEvent = .ok build.tagNames ∧
      build.variant = variant.name ∧ build.isDefault = variant.isDefault := by
  obtain ⟨names, computed, same⟩ := bind_ok_iff.1 done
  obtain rfl := pure_ok_iff.1 same
  exact ⟨computed, rfl, rfl⟩

/-- What a run of the meta step consists of. -/
theorem computeBuilds_ok_iff {input : MetaInput} :
    computeBuilds engine state input = .ok builds ↔
      ∃ rules flavor labels tags, parseMeta input = .ok (rules, flavor, labels) ∧
        generateTags engine rules flavor state.context = .ok tags ∧ tags ≠ [] ∧
        state.variants.mapM (planBuild state tags (buildLabels state labels input.now)) =
          .ok builds ∧
        findDuplicateTags builds = [] := by
  unfold computeBuilds planBuilds
  constructor
  · intro done
    obtain ⟨⟨rules, flavor, labels⟩, parsed, rest⟩ := bind_ok_iff.1 done
    obtain ⟨planned, plans, checked⟩ := bind_ok_iff.1 rest
    obtain ⟨unique, same⟩ := check_ok_iff.1 checked
    obtain rfl := pure_ok_iff.1 same
    obtain ⟨tags, generated, others⟩ := bind_ok_iff.1 plans
    obtain ⟨some_, mapped⟩ := check_ok_iff.1 others
    exact ⟨rules, flavor, labels, tags, parsed, generated, some_, mapped, not_not.mp unique⟩
  · rintro ⟨rules, flavor, labels, tags, parsed, generated, some_, mapped, unique⟩
    refine bind_ok_iff.2 ⟨_, parsed, bind_ok_iff.2 ⟨builds, ?_, ?_⟩⟩
    · exact bind_ok_iff.2 ⟨tags, generated, check_ok_iff.2 ⟨some_, mapped⟩⟩
    · exact check_ok_iff.2 ⟨not_not.mpr unique, rfl⟩

/-! ### The owner -/

/-- `latest` stays with the default variant when it is spared. -/
theorem latestOwned_iff {tags : List Tag} {labels : List KeyValue}
    (legal : ∀ variant ∈ state.variants, isVariantName variant.name = true)
    (plans : state.variants.mapM (planBuild state tags labels) = .ok builds)
    (generated : generateTags engine rules flavor state.context = .ok tags) :
    LatestOwned builds ↔ LatestSpared engine flavor state rules := by
  constructor
  · intro owned variant member other
    obtain ⟨build, built, planned⟩ := mapM_mem plans member
    obtain ⟨computed, -, isDefault⟩ := planBuild_ok planned
    have absent : "latest" ∉ build.tagNames := by
      intro latest
      have default := owned build built latest
      rw [isDefault, other] at default
      cases default
    rw [mem_variantTagNames other computed, not_or] at absent
    refine ⟨?_, ?_⟩
    · rintro ⟨event, named⟩
      refine absent.1 ⟨event, ?_⟩
      rw [named]
      decide
    · rintro ⟨name, added, free, reads⟩
      obtain ⟨tag, shared, plain, rfl⟩ := (mem_generateTags_iff generated).mpr ⟨added, free⟩
      exact absent.2 ⟨tag, shared, plain, reads⟩
  · intro spared build built latest
    obtain ⟨variant, member, planned⟩ := mem_of_mapM plans built
    obtain ⟨computed, -, isDefault⟩ := planBuild_ok planned
    rw [isDefault]
    by_contra notDefault
    have other : variant.isDefault = false := Bool.eq_false_iff.2 notDefault
    obtain ⟨notNamed, notSpelled⟩ := spared variant member other
    rcases (mem_variantTagNames other computed).mp latest with
      ⟨event, named⟩ | ⟨tag, shared, plain, reads⟩
    · have same : variant.name = "latest" :=
        ((sanitizeTagName_ok named).trans
          (cleanTagName_of_isVariantName (legal variant member))).symm
      exact notNamed ⟨event, same⟩
    · obtain ⟨added, free⟩ := (mem_generateTags_iff generated).mp ⟨tag, shared, plain, rfl⟩
      exact notSpelled ⟨tag.name, added, free, reads⟩

/-- The builds of a variant table are disjoint, and `latest` is the default variant's exactly when
no other one comes by that name. -/
theorem latest_has_one_owner_iff {table selected : List Variant} {tableRaw selectionRaw : String}
    {input : MetaInput} (parsed : parseVariants tableRaw = .ok table)
    (chosen : variantSelection table selectionRaw = .ok selected)
    (computed : computeBuilds engine { state with variants := selected } input = .ok builds) :
    (TagsDisjoint builds ∧ LatestOwned builds) ↔ ∃ rules flavor labels,
      parseMeta input = .ok (rules, flavor, labels) ∧
        LatestSpared engine flavor { state with variants := selected } rules := by
  obtain ⟨rules, flavor, labels, tags, read, generated, -, plans, unique⟩ :=
    computeBuilds_ok_iff.1 computed
  have names := (TableNames.of_parseVariants parsed).variantSelection chosen
  have disjoint : TagsDisjoint builds := by
    refine tagsDisjoint_of_findDuplicateTags ?_ unique
    rw [map_of_mapM plans fun variant build planned => (planBuild_ok planned).2.1]
    exact names.distinct
  rw [and_iff_right disjoint]
  have owned : LatestOwned builds ↔
      LatestSpared engine flavor { state with variants := selected } rules :=
    latestOwned_iff names.legal plans generated
  rw [owned]
  constructor
  · intro spared
    exact ⟨rules, flavor, labels, read, spared⟩
  · rintro ⟨rules', flavor', labels', read', spared⟩
    rw [read] at read'
    cases read'
    exact spared

/-! ### A variant that is called `latest` -/

/-- An engine whose own functions the runs below do not use. -/
def plainEngine : Engine where
  toLowerCase := id
  localeCompare _ _ := 0
  number _ := none
  regExp _ := .error "Invalid regular expression"

/-- The push of the tag `v1.2.3-rc.1`, as the meta step reads it. -/
def preRelease : State where
  version := "1.2.3-rc.1"
  tag := "v1.2.3-rc.1"
  prerelease := true
  ref := "refs/tags/v1.2.3-rc.1"
  isTagEvent := true

/-- Whether a tag of the rules reads `latest` with the suffix behind it. -/
def someReadsLatest (engine : Engine) (flavor : Flavor) (ctx : Context) (rules : List Rule)
    (suffix : String) : Bool :=
  rules.any fun rule => match ruleTag engine flavor ctx rule with
    | .ok (some name) => sanitizeTagName (name ++ suffix) = .ok "latest"
    | _ => false

theorem not_spellsLatest {ctx : Context} {suffix : String}
    (noneReads : someReadsLatest engine flavor ctx rules suffix = false) :
    ¬ SpellsLatest engine flavor ctx rules suffix := by
  rintro ⟨name, ⟨rule, member, adds⟩, -, reads⟩
  have silent := List.any_eq_false.mp noneReads rule member
  rw [Adds] at adds
  simp [adds, reads] at silent

/-- A release of two variants with a tag of its own. -/
def slimState : State where
  version := "1.2.3"
  isTagEvent := true
  variants :=
    [⟨"slim", "Dockerfile.slim", "", "-slim", false, [], []⟩,
      ⟨"full", "Dockerfile.full", "", "-full", true, [], []⟩]

theorem latest_has_one_owner_iff_slim :
    ∃ builds, computeBuilds plainEngine slimState { tagsRaw := "x" } = .ok builds ∧
      TagsDisjoint builds ∧ LatestOwned builds := by
  have parsed : parseVariants "slim\nfull||||true" = .ok slimState.variants := by decide
  obtain ⟨builds, computed⟩ := exists_ok
    (by decide : (computeBuilds plainEngine slimState { tagsRaw := "x" }).isOk = true)
  refine ⟨builds, computed, (@latest_has_one_owner_iff plainEngine slimState _ _ _ _ "" _
    parsed rfl computed).mpr
      ⟨[⟨.raw, [("value", "x"), ("type", "raw")], "x"⟩], {}, [], by decide, ?_⟩⟩
  intro variant member other
  refine ⟨?_, not_spellsLatest ?_⟩
  · rintro ⟨-, named⟩
    revert variant
    decide
  · revert variant
    decide

def latestVariants : List Variant :=
  [⟨"latest", "Dockerfile.latest", "", "-latest", false, [], []⟩,
    ⟨"full", "Dockerfile.full", "", "-full", true, [], []⟩]

/-- A pre-release of a table with a variant `latest`: its floating tag is `latest`. -/
theorem latest_goes_to_a_variant :
    ¬ ∀ tableRaw table selectionRaw selected (state : State) input builds,
      parseVariants tableRaw = .ok table → variantSelection table selectionRaw = .ok selected →
      computeBuilds plainEngine { state with variants := selected } input = .ok builds →
      TagsDisjoint builds ∧ LatestOwned builds := by
  intro claimed
  have parsed : parseVariants "latest\nfull||||true" = .ok latestVariants := by decide
  have owns : ((computeBuilds plainEngine { preRelease with variants := latestVariants }
      { tagsRaw := "type=ref,event=tag" }).toOption.any fun builds => builds.any fun build =>
        build.tagNames.contains "latest" && !build.isDefault) = true := by decide
  cases computed : computeBuilds plainEngine { preRelease with variants := latestVariants }
      { tagsRaw := "type=ref,event=tag" } with
  | error text =>
      rw [computed] at owns
      cases owns
  | ok builds =>
      rw [computed] at owns
      obtain ⟨build, built, latest⟩ := List.any_eq_true.mp owns
      have both : "latest" ∈ build.tagNames ∧ build.isDefault = false := by simpa using latest
      have owner := (claimed _ _ "" _ preRelease _ builds parsed rfl computed).2 build built both.1
      rw [both.2] at owner
      cases owner

end MessagePusher.Release
