import MessagePusher.Release.VariantTable

/-!
# The tags that all variants share

Which tags `generateTags` returns: those of the enabled rules, and `latest`, which takes the place
of a rule's tag with the same name where none of these outranks it.
-/

namespace MessagePusher.Release

open Common Scripts Semantics.Fallible

/-! ### Numbers -/

theorem number_le_trans {first second third : Number} (left : first.le second = true)
    (right : second.le third = true) : first.le third = true := by
  cases first with
  | none => cases left
  | some first =>
      cases second with
      | none => cases left
      | some second =>
          cases third with
          | none => cases right
          | some third =>
              exact decide_eq_true (le_trans (of_decide_eq_true left) (of_decide_eq_true right))

/-- Of two numbers one is at most the other. -/
theorem number_le_total {first second : Number} (isNumber : first ≠ none)
    (otherNumber : second ≠ none) (above : ¬ first.le second = true) :
    second.le first = true := by
  obtain ⟨first, rfl⟩ := Option.ne_none_iff_exists'.1 isNumber
  obtain ⟨second, rfl⟩ := Option.ne_none_iff_exists'.1 otherNumber
  have notBelow : ¬ first ≤ second := fun below => above (decide_eq_true below)
  exact decide_eq_true (le_of_lt (not_le.mp notBelow))

theorem number_le_self {number : Number} (isNumber : number ≠ none) :
    number.le number = true := by
  obtain ⟨value, rfl⟩ := Option.ne_none_iff_exists'.1 isNumber
  exact decide_eq_true (le_refl value)

variable {engine : Engine} {flavor : Flavor} {ctx : Context} {rule : Rule} {rules before : List Rule}
  {collected : List Tag} {tag : Tag}

theorem rank_isNumber : rule.rank engine ≠ none := by
  unfold Rule.rank
  split_ifs with finite
  · exact (of_decide_eq_true finite).1
  · exact Option.some_ne_none _

/-! ### One more tag -/

/-- The collected tag of a name. -/
def tagOf (collected : List Tag) (name : String) : Option Tag :=
  collected.find? fun tag => tag.name = name

theorem tagOf_name {name : String} (found : tagOf collected name = some tag) : tag.name = name := by
  simpa using List.find?_some found

/-- What replaces the tags of one name keeps all names. -/
theorem replaced_name (tag other : Tag) :
    (if other.name = tag.name then tag else other).name = other.name := by
  split_ifs with same
  · exact same.symm
  · rfl

/-- A tag replaces the one of its name, unless that one outranks it. -/
theorem tagOf_addTag (name : String) :
    tagOf (addTag collected tag) name =
      if name = tag.name then
        some ((tagOf collected name).elim tag fun existing =>
          if existing.priority.le tag.priority then tag else existing)
      else tagOf collected name := by
  have read : (collected.find? fun existing => existing.name = tag.name) =
      tagOf collected tag.name := rfl
  unfold addTag
  rw [read]
  cases found : tagOf collected tag.name with
  | none =>
      dsimp only
      unfold tagOf at found ⊢
      rw [List.find?_append]
      split_ifs with same
      · subst same
        simp [found]
      · have other : ¬ tag.name = name := fun equal => same equal.symm
        simp [other]
  | some existing =>
      have replaced : tagOf (collected.map fun other => if other.name = tag.name then tag else other)
          name = (tagOf collected name).map fun other =>
            if other.name = tag.name then tag else other := by
        unfold tagOf
        rw [List.find?_map]
        congr 2
        funext other
        exact congrArg (fun shown => decide (shown = name)) (replaced_name tag other)
      dsimp only
      by_cases same : name = tag.name
      · subst same
        rw [if_pos rfl, found]
        split_ifs with below
        · rw [replaced, found]
          simp [tagOf_name found, below]
        · rw [found]
          simp [below]
      · rw [if_neg same]
        split_ifs
        · rw [replaced]
          cases shown : tagOf collected name with
          | none => rfl
          | some other =>
              have different : other.name ≠ tag.name := by
                rw [tagOf_name shown]
                exact same
              simp [different]
        · rfl

/-- Under the name of an added tag stands that tag, or one that outranks it. -/
theorem tagOf_addTag_self {shown : Tag} (found : tagOf (addTag collected tag) tag.name = some shown) :
    (shown = tag ∧ ∀ old, tagOf collected tag.name = some old →
        old.priority.le tag.priority = true) ∨
      (tagOf collected tag.name = some shown ∧ ¬ shown.priority.le tag.priority = true) := by
  rw [tagOf_addTag, if_pos rfl] at found
  cases existing : tagOf collected tag.name with
  | none =>
      rw [existing] at found
      cases found
      exact .inl ⟨rfl, by rintro old ⟨⟩⟩
  | some old =>
      rw [existing] at found
      simp only [Option.elim, Option.some.injEq] at found
      split_ifs at found with below
      · exact .inl ⟨found.symm, by rintro _ ⟨⟩; exact below⟩
      · subst found
        exact .inr ⟨rfl, below⟩

/-- The tags have distinct names. -/
def DistinctNames (collected : List Tag) : Prop := (collected.map Tag.name).Nodup

theorem DistinctNames.addTag (distinct : DistinctNames collected) (tag : Tag) :
    DistinctNames (addTag collected tag) := by
  unfold Scripts.addTag DistinctNames
  cases found : collected.find? fun existing => existing.name = tag.name with
  | none =>
      have fresh : tag.name ∉ collected.map Tag.name := by
        simpa using List.find?_eq_none.mp found
      rw [List.map_append, List.map_singleton]
      exact List.nodup_append.mpr ⟨distinct, List.nodup_singleton _, by
        rintro name known _ (_ | ⟨_, ⟨⟩⟩) rfl
        exact fresh known⟩
  | some existing =>
      dsimp only
      split_ifs
      · have same : (collected.map fun other => if other.name = tag.name then tag else other).map
            Tag.name = collected.map Tag.name := by
          rw [List.map_map]
          exact List.map_congr_left fun other _ => replaced_name tag other
        rw [same]
        exact distinct
      · exact distinct

/-- With distinct names, a tag is the one that its name has. -/
theorem DistinctNames.mem_iff (distinct : DistinctNames collected) :
    tag ∈ collected ↔ tagOf collected tag.name = some tag := by
  constructor
  · intro member
    cases found : tagOf collected tag.name with
    | none => simpa using List.find?_eq_none.mp found tag member
    | some other =>
        rw [List.inj_on_of_nodup_map distinct (List.mem_of_find?_eq_some found) member
          (tagOf_name found)]
  · exact List.mem_of_find?_eq_some

/-! ### The tags of the rules -/

/-- An enabled rule adds a tag with this name. -/
def Adds (engine : Engine) (flavor : Flavor) (ctx : Context) (rule : Rule) (name : String) : Prop :=
  ruleTag engine flavor ctx rule = .ok (some name)

/-- The priority that the rules give `latest`. -/
def latestOf (engine : Engine) (flavor : Flavor) (ctx : Context) (rules : List Rule) :
    Option Number :=
  rules.foldl
    (fun latestFrom rule => match ruleTag engine flavor ctx rule with
      | .ok (some _) => rule.latestAfter engine ctx latestFrom
      | _ => latestFrom)
    none

/-- What is collected of some rules: of each name the tag with the highest priority. -/
structure Collected (engine : Engine) (flavor : Flavor) (ctx : Context) (rules : List Rule)
    (collected : List Tag) (latestFrom : Option Number) : Prop where
  distinct : DistinctNames collected
  plain : ∀ name tag, tagOf collected name = some tag → tag.isLatest = false
  added : ∀ name tag, tagOf collected name = some tag →
    ∃ rule ∈ rules, Adds engine flavor ctx rule name ∧ rule.rank engine = tag.priority
  highest : ∀ name tag, tagOf collected name = some tag → ∀ rule ∈ rules,
    Adds engine flavor ctx rule name → (rule.rank engine).le tag.priority = true
  complete : ∀ name, tagOf collected name = none → ∀ rule ∈ rules,
    ¬ Adds engine flavor ctx rule name
  latest : latestFrom = latestOf engine flavor ctx rules

namespace Collected

variable {latestFrom latestAfter : Option Number} {after : List Tag}

theorem nil : Collected engine flavor ctx [] [] none where
  distinct := List.nodup_nil
  plain := by rintro name tag ⟨⟩
  added := by rintro name tag ⟨⟩
  highest := by rintro name tag ⟨⟩
  complete := by rintro name - rule ⟨⟩
  latest := rfl

/-- A rule without a tag changes nothing. -/
theorem skip (so : Collected engine flavor ctx before collected latestFrom)
    (none_ : ruleTag engine flavor ctx rule = .ok none) :
    Collected engine flavor ctx (before ++ [rule]) collected latestFrom := by
  have nothing : ∀ name, ¬ Adds engine flavor ctx rule name := by
    intro name adds
    rw [Adds, none_] at adds
    cases adds
  refine ⟨so.distinct, so.plain, ?_, ?_, ?_, ?_⟩
  · intro name tag found
    obtain ⟨other, member, adds⟩ := so.added name tag found
    exact ⟨other, List.mem_append_left _ member, adds⟩
  · intro name tag found other member adds
    rcases List.mem_append.mp member with known | here
    · exact so.highest name tag found other known adds
    · rw [List.mem_singleton.mp here] at adds
      exact absurd adds (nothing name)
  · intro name absent other member
    rcases List.mem_append.mp member with known | here
    · exact so.complete name absent other known
    · rw [List.mem_singleton.mp here]
      exact nothing name
  · rw [so.latest, latestOf, latestOf, List.foldl_append]
    simp [none_]

/-- A rule adds its tag. -/
theorem add (so : Collected engine flavor ctx before collected latestFrom) {name : String}
    (adds : Adds engine flavor ctx rule name) :
    Collected engine flavor ctx (before ++ [rule])
      (addTag collected { name, priority := rule.rank engine })
      (rule.latestAfter engine ctx latestFrom) := by
  have onlyName : ∀ {other}, Adds engine flavor ctx rule other → other = name := by
    intro other also
    exact Option.some.inj (Except.ok.inj (also.symm.trans adds))
  have ofElse : ∀ {other tag}, other ≠ name →
      tagOf (addTag collected { name, priority := rule.rank engine }) other = some tag →
        tagOf collected other = some tag := by
    intro other tag different found
    rwa [tagOf_addTag, if_neg different] at found
  refine ⟨so.distinct.addTag _, ?_, ?_, ?_, ?_, ?_⟩
  · intro other tag found
    by_cases same : other = name
    · subst same
      rcases tagOf_addTag_self found with ⟨rfl, -⟩ | ⟨old, -⟩
      · rfl
      · exact so.plain other tag old
    · exact so.plain other tag (ofElse same found)
  · intro other tag found
    have earlier : tagOf collected other = some tag → ∃ first ∈ before ++ [rule],
        Adds engine flavor ctx first other ∧ first.rank engine = tag.priority := by
      intro old
      obtain ⟨first, member, both⟩ := so.added other tag old
      exact ⟨first, List.mem_append_left _ member, both⟩
    by_cases same : other = name
    · subst same
      rcases tagOf_addTag_self found with ⟨rfl, -⟩ | ⟨old, -⟩
      · exact ⟨rule, List.mem_append_right _ List.mem_cons_self, adds, rfl⟩
      · exact earlier old
    · exact earlier (ofElse same found)
  · intro other tag found first member also
    by_cases same : other = name
    · subst same
      rcases tagOf_addTag_self found with ⟨rfl, above⟩ | ⟨old, notAbove⟩
      · -- The new tag is at least the highest one so far, which is at least any earlier one.
        rcases List.mem_append.mp member with known | here
        · cases existing : tagOf collected other with
          | none => exact absurd also (so.complete other existing first known)
          | some old =>
              exact number_le_trans (so.highest other old existing first known also)
                (above old existing)
        · rw [List.mem_singleton.mp here]
          exact number_le_self rank_isNumber
      · rcases List.mem_append.mp member with known | here
        · exact so.highest other tag old first known also
        · obtain ⟨highest, -, -, rank⟩ := so.added other tag old
          rw [List.mem_singleton.mp here]
          have isNumber : tag.priority ≠ none := by
            rw [← rank]
            exact rank_isNumber
          exact number_le_total isNumber rank_isNumber notAbove
    · rcases List.mem_append.mp member with known | here
      · exact so.highest other tag (ofElse same found) first known also
      · rw [List.mem_singleton.mp here] at also
        exact absurd (onlyName also) same
  · intro other absent first member also
    rw [tagOf_addTag] at absent
    split_ifs at absent with same
    rcases List.mem_append.mp member with known | here
    · exact so.complete other absent first known also
    · rw [List.mem_singleton.mp here] at also
      exact same (onlyName also)
  · rw [so.latest, latestOf, latestOf, List.foldl_append]
    rw [Adds] at adds
    simp [adds]

/-- The loop collects the tags of the rules that are left. -/
theorem collectTags (so : Collected engine flavor ctx before collected latestFrom)
    (done : collectTags engine flavor ctx rules collected latestFrom = .ok (after, latestAfter)) :
    Collected engine flavor ctx (before ++ rules) after latestAfter := by
  induction rules generalizing before collected latestFrom with
  | nil =>
      cases done
      rw [List.append_nil]
      exact so
  | cons rule rules ih =>
      obtain ⟨tag, first, rest⟩ := bind_ok_iff.1 done
      rw [List.append_cons]
      cases tag with
      | none => exact ih (so.skip first) rest
      | some name => exact ih (so.add first) rest

/-- Of each name that a rule adds there is a tag, and no others. -/
theorem name_iff (so : Collected engine flavor ctx rules collected latestFrom) {name : String} :
    (∃ tag, tagOf collected name = some tag) ↔ ∃ rule ∈ rules, Adds engine flavor ctx rule name := by
  constructor
  · rintro ⟨tag, found⟩
    obtain ⟨rule, member, adds, -⟩ := so.added name tag found
    exact ⟨rule, member, adds⟩
  · rintro ⟨rule, member, adds⟩
    cases found : tagOf collected name with
    | none => exact absurd adds (so.complete name found rule member)
    | some tag => exact ⟨tag, rfl⟩

end Collected

/-- The tag `latest` of the flavor takes the place of the rules' tag with its name. -/
def TakenOver (engine : Engine) (flavor : Flavor) (ctx : Context) (rules : List Rule)
    (name : String) : Prop :=
  flavor.latest ≠ "false" ∧ latestName flavor = .ok name ∧
    ∃ priority, latestOf engine flavor ctx rules = some priority ∧ ∀ rule ∈ rules,
      Adds engine flavor ctx rule name → (rule.rank engine).le priority = true

theorem withLatest_ok {latestFrom : Option Number} {all : List Tag}
    (done : withLatest flavor collected latestFrom = .ok all) :
    (all = collected ∧ (latestFrom = none ∨ flavor.latest = "false")) ∨
      ∃ name priority, flavor.latest ≠ "false" ∧ latestName flavor = .ok name ∧
        latestFrom = some priority ∧
        all = addTag collected { name, priority, isLatest := true } := by
  cases latestFrom with
  | none =>
      cases done
      exact .inl ⟨rfl, .inl rfl⟩
  | some priority =>
      unfold withLatest at done
      dsimp only at done
      split_ifs at done with refused
      · cases done
        exact .inl ⟨rfl, .inr refused⟩
      · obtain ⟨name, named, same⟩ := bind_ok_iff.1 done
        exact .inr ⟨name, priority, refused, named, rfl, (pure_ok_iff.1 same).symm⟩

/-- The tags that are not `latest` are those that the rules add and that are not taken over. -/
theorem Collected.plain_iff {latestFrom : Option Number} {all : List Tag}
    (so : Collected engine flavor ctx rules collected latestFrom)
    (done : withLatest flavor collected latestFrom = .ok all) {name : String} :
    (∃ tag, tagOf all name = some tag ∧ tag.isLatest = false) ↔
      (∃ rule ∈ rules, Adds engine flavor ctx rule name) ∧
        ¬ TakenOver engine flavor ctx rules name := by
  have ofCollected : (∃ tag, tagOf collected name = some tag ∧ tag.isLatest = false) ↔
      ∃ rule ∈ rules, Adds engine flavor ctx rule name := by
    rw [← so.name_iff]
    exact ⟨fun ⟨tag, found, _⟩ => ⟨tag, found⟩, fun ⟨tag, found⟩ => ⟨tag, found,
      so.plain name tag found⟩⟩
  rcases withLatest_ok done with ⟨rfl, without⟩ | ⟨latest, priority, wanted, named, from_, rfl⟩
  · rw [ofCollected]
    refine (and_iff_left ?_).symm
    rintro ⟨wanted, -, priority, from_, -⟩
    rcases without with nothing | refused
    · rw [← so.latest, nothing] at from_
      cases from_
    · exact wanted refused
  · by_cases same : name = latest
    · subst same
      constructor
      · rintro ⟨tag, found, plain⟩
        rcases tagOf_addTag_self found with ⟨rfl, -⟩ | ⟨old, outranks⟩
        · cases plain
        · refine ⟨so.name_iff.1 ⟨tag, old⟩, ?_⟩
          rintro ⟨-, -, other, from_', below⟩
          obtain rfl : priority = other := by
            rw [← so.latest, from_] at from_'
            exact Option.some.inj from_'
          obtain ⟨rule, member, adds, rank⟩ := so.added name tag old
          have reached := below rule member adds
          rw [rank] at reached
          exact outranks reached
      · rintro ⟨rules, free⟩
        obtain ⟨old, found⟩ := so.name_iff.2 rules
        have outranks : ¬ old.priority.le priority = true := by
          intro below
          refine free ⟨wanted, named, priority, so.latest.symm.trans from_, ?_⟩
          intro rule member adds
          exact number_le_trans (so.highest name old found rule member adds) below
        refine ⟨old, ?_, so.plain name old found⟩
        rw [tagOf_addTag, if_pos rfl, found]
        simp [outranks]
    · have free : ¬ TakenOver engine flavor ctx rules name := by
        rintro ⟨-, named', -⟩
        rw [named] at named'
        exact same (Except.ok.inj named').symm
      rw [tagOf_addTag, if_neg same, ofCollected, and_iff_left free]

/-- The shared tags are the collected ones, with `latest`, in another order. -/
theorem generateTags_ok {tags : List Tag}
    (done : generateTags engine rules flavor ctx = .ok tags) :
    ∃ collected latestFrom all, Collected engine flavor ctx rules collected latestFrom ∧
      withLatest flavor collected latestFrom = .ok all ∧ ∀ tag, tag ∈ tags ↔ tag ∈ all := by
  obtain ⟨⟨collected, latestFrom⟩, collects, rest⟩ := bind_ok_iff.1 done
  obtain ⟨all, latest, sorted⟩ := bind_ok_iff.1 rest
  obtain rfl := pure_ok_iff.1 sorted
  have so : Collected engine flavor ctx rules collected latestFrom := by
    simpa using Collected.nil.collectTags collects
  exact ⟨collected, latestFrom, all, so, latest, fun _ => List.mem_insertionSort _⟩

/-- The shared tags that are not `latest`. -/
theorem mem_generateTags_iff {tags : List Tag}
    (done : generateTags engine rules flavor ctx = .ok tags) {name : String} :
    (∃ tag ∈ tags, tag.isLatest = false ∧ tag.name = name) ↔
      (∃ rule ∈ rules, Adds engine flavor ctx rule name) ∧
        ¬ TakenOver engine flavor ctx rules name := by
  obtain ⟨collected, latestFrom, all, so, latest, sorted⟩ := generateTags_ok done
  have distinct : DistinctNames all := by
    rcases withLatest_ok latest with ⟨rfl, -⟩ | ⟨_, _, -, -, -, rfl⟩
    · exact so.distinct
    · exact so.distinct.addTag _
  rw [← so.plain_iff latest]
  constructor
  · rintro ⟨tag, member, plain, rfl⟩
    exact ⟨tag, distinct.mem_iff.1 ((sorted tag).mp member), plain⟩
  · rintro ⟨tag, found, plain⟩
    obtain rfl := tagOf_name found
    exact ⟨tag, (sorted tag).mpr (distinct.mem_iff.2 found), plain, rfl⟩

/-! ### Two contexts -/

/-- The shared tags depend on what the rules add, and on whether it is a pre-release. -/
theorem generateTags_congr {other : Context} (prerelease : other.isPrerelease = ctx.isPrerelease)
    (same : ∀ rule ∈ rules, ruleTag engine flavor ctx rule = ruleTag engine flavor other rule) :
    generateTags engine rules flavor ctx = generateTags engine rules flavor other := by
  have collects : ∀ collected latestFrom,
      collectTags engine flavor ctx rules collected latestFrom =
        collectTags engine flavor other rules collected latestFrom := by
    induction rules with
    | nil => exact fun _ _ => rfl
    | cons rule rules ih =>
        intro collected latestFrom
        have rest := ih fun later member => same later (List.mem_cons_of_mem _ member)
        have after : rule.latestAfter engine other = rule.latestAfter engine ctx := by
          funext latestFrom
          rw [Rule.latestAfter, Rule.latestAfter, prerelease]
        simp only [collectTags, same rule List.mem_cons_self, rest, after]
  unfold generateTags
  rw [collects]

end MessagePusher.Release
