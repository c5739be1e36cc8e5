import MessagePusher.JsonText.Tree
import MessagePusher.Substitution.LongestName
import MessagePusher.Template.PathOccurrences
import MessagePusher.Model.ConstructRule
import MessagePusher.Store.Entries

/-!
# One pass over a construct rule

What a webhook would make of a rule if it replaced all variables at once. It replaces one after
the other, so that the value of one is searched for those behind it.
-/

namespace MessagePusher.Template

open Common Model JsonText Substitution

/-- A name as the two engines of templates read it. -/
def IsIdentifier (name : String) : Prop :=
  name ≠ "" ∧ ∀ char ∈ name.toList, isTemplateIdentifierByte char

/-- The names in the order in which they are replaced. -/
def replacedNames (names : List String) : List (List Char) :=
  (names.insertionSort NamesBefore).map String.toList

/-- The value of a name. -/
def valueOf (extracted : List (String × String)) (name : List Char) : List Char :=
  ((extracted.lookup (String.ofList name)).getD "").toList

/-- The placeholders of a text, each with the longest name that fits, and what is between them. -/
def placeholders (names : List String) (text : String) : List (Piece Char) :=
  pieces '$' (firstName (replacedNames names)) 0 text.toList

/-- The text with its placeholders replaced in one pass. -/
def replaceAtOnce (extracted : List (String × String)) (text : String) : String :=
  String.ofList (simultaneous '$' (firstName (replacedNames (extracted.map Prod.fst)))
    (valueOf extracted) text.toList)

/-- The rule of a decoded map, with a change of its strings. -/
def ruleWith (change : String → String) (raw : List (String × Json)) : WebhookConstructRule :=
  let field (key : String) := mapLeaves change ((raw.lookup key).getD .null)
  { title := field "title"
    description := field "description"
    content := field "content"
    url := field "url"
    to_ := field "to"
    extra := (raw.filter fun member => member.1 ∉ messageKeys).map fun member =>
      (member.1, mapLeaves change member.2) }

/-- The rule with its placeholders replaced in one pass. -/
def renderAtOnce (constructRule : String) (extracted : List (String × String)) :
    Option WebhookConstructRule :=
  (decodeMap constructRule).map (ruleWith (replaceAtOnce extracted))

/-- A string of the rule that is not a key. -/
def IsLeaf (constructRule leaf : String) : Prop :=
  ∃ raw member, decodeMap constructRule = some raw ∧ member ∈ raw ∧ Within (.string leaf) member.2

/-- At each step the variable occurs in the text, as it then is, at its own placeholders only. -/
def StaysApart (extracted : List (String × String)) (text : String) : Prop :=
  Unmixed '$' (replacedNames (extracted.map Prod.fst)) (valueOf extracted)
    (placeholders (extracted.map Prod.fst) text)

/-- The placeholders of the text have the name that is replaced last. -/
def OnlyLastName (names : List String) (text : String) : Prop :=
  ∀ name, .slot name ∈ placeholders names text → (replacedNames names).getLast? = some name

variable {constructRule text : String} {extracted : List (String × String)} {names : List String}

/-! ### The replacements of the code -/

theorem replaceFrom_eq (old new : List Char) (skip : Nat) (text : List Char) :
    Text.replaceFrom old new skip text = replace old new skip text := by
  induction text generalizing skip with
  | nil => cases skip <;> rfl
  | cons char text ih =>
      cases skip with
      | succ skip => exact ih skip
      | zero => rw [Text.replaceFrom, replace, ih, ih]

/-- The code replaces one name after the other. -/
theorem replaceInText_eq (extracted : List (String × String)) (text : String) :
    replaceInText (sortedWebhookVariables extracted) text =
      String.ofList (sequential '$' (replacedNames (extracted.map Prod.fst)) (valueOf extracted)
        text.toList) := by
  have general : ∀ (keys : List String) (text : String),
      replaceInText (keys.map fun key => ("$" ++ key, (extracted.lookup key).getD "")) text =
        String.ofList (sequential '$' (keys.map String.toList) (valueOf extracted) text.toList) := by
    intro keys
    induction keys with
    | nil => exact fun text => String.ofList_toList.symm
    | cons key keys ih =>
        intro text
        have step := ih (Text.replaceText text ("$" ++ key) ((extracted.lookup key).getD ""))
        rw [Text.replaceText, String.toList_ofList, replaceFrom_eq, String.toList_append] at step
        rw [replaceInText, List.map_cons, List.foldl_cons, ← replaceInText]
        rw [Text.replaceText, replaceFrom_eq, String.toList_append]
        rw [step, List.map_cons, sequential, sequential, List.foldl_cons, valueOf,
          String.ofList_toList]
        rfl
  exact general _ text

/-! ### The order of the names -/

theorem mem_replacedNames {name : List Char} :
    name ∈ replacedNames names ↔ ∃ key ∈ names, key.toList = name := by
  rw [replacedNames, List.mem_map]
  simp only [List.mem_insertionSort]

theorem longestFirst_replacedNames (distinct : names.Nodup) : LongestFirst (replacedNames names) := by
  rw [LongestFirst, replacedNames, List.pairwise_map]
  have sorted : (names.insertionSort NamesBefore).Pairwise NamesBefore :=
    List.pairwise_insertionSort _ _
  have apart : (names.insertionSort NamesBefore).Nodup :=
    (List.perm_insertionSort _ names).nodup_iff.mpr distinct
  refine (sorted.and apart).imp ?_
  rintro first second ⟨before, differ⟩ ⟨more, longer⟩
  by_cases nothing : more = []
  · rw [nothing, List.append_nil] at longer
    exact differ (String.ext longer)
  · exact not_namesBefore_longer longer.symm nothing before

theorem noDollar_of_identifier {name : String} (identifier : IsIdentifier name) :
    '$' ∉ name.toList := fun member => absurd (identifier.2 '$' member) (by decide)

theorem alone_replacedNames (identifiers : ∀ name ∈ names, IsIdentifier name) :
    ∀ name ∈ replacedNames names, '$' ∉ name := by
  intro name listed
  obtain ⟨key, member, rfl⟩ := mem_replacedNames.mp listed
  exact noDollar_of_identifier (identifiers key member)

theorem fresh_replacedNames (identifiers : ∀ name ∈ names, IsIdentifier name) :
    ∀ name ∈ replacedNames names, ' ' ∉ '$' :: name := by
  intro name listed blank
  obtain ⟨key, member, rfl⟩ := mem_replacedNames.mp listed
  rcases List.mem_cons.mp blank with same | inside
  · exact absurd same (by decide)
  · exact absurd ((identifiers key member).2 ' ' inside) (by decide)

/-! ### One text -/

/-- Where the occurrences stay apart, one pass is enough. -/
theorem replaceInText_of_staysApart (distinct : (extracted.map Prod.fst).Nodup)
    (identifiers : ∀ name ∈ extracted.map Prod.fst, IsIdentifier name)
    (apart : StaysApart extracted text) :
    replaceInText (sortedWebhookVariables extracted) text = replaceAtOnce extracted text := by
  have alone := alone_replacedNames identifiers
  rw [replaceInText_eq, replaceAtOnce, sequential_eq_simultaneous (chooses_firstName alone)
    (longestFirst_replacedNames distinct).nodup (fun name listed => mem_of_slot alone listed) apart]

/-- The extracted variables, given by their names and values. -/
def extractedOf (names : List String) (value : String → String) : List (String × String) :=
  names.map fun name => (name, value name)

@[simp]
theorem extractedOf_names (names : List String) (value : String → String) :
    (extractedOf names value).map Prod.fst = names := by
  rw [extractedOf, List.map_map]
  exact List.map_id names

theorem valueOf_extractedOf {name : String} (value : String → String) (listed : name ∈ names) :
    valueOf (extractedOf names value) name.toList = (value name).toList := by
  have found : (extractedOf names value).lookup name = some (value name) :=
    Store.Entries.lookup_graph value listed
  rw [valueOf, String.ofList_toList, found, Option.getD_some]

/-- Any values of the replaced names are those of extracted variables. -/
theorem eq_valueOf_extractedOf (names : List String) (value : List Char → List Char) :
    ∀ name ∈ replacedNames names, value name =
      valueOf (extractedOf names fun key => String.ofList (value key.toList)) name := by
  intro name listed
  obtain ⟨key, member, rfl⟩ := mem_replacedNames.mp listed
  rw [valueOf_extractedOf _ member, String.toList_ofList]

/-- Every text is safe for all values if and only if only the last name occurs in it. -/
theorem replaceInText_eq_replaceAtOnce_iff (distinct : names.Nodup)
    (identifiers : ∀ name ∈ names, IsIdentifier name) :
    (∀ value, replaceInText (sortedWebhookVariables (extractedOf names value)) text =
      replaceAtOnce (extractedOf names value) text) ↔ OnlyLastName names text := by
  have alone := alone_replacedNames identifiers
  have order := longestFirst_replacedNames distinct
  constructor
  · intro agree name slot
    refine last_of_all_values (fresh_replacedNames identifiers) alone (fun value => ?_) slot
    have same := eq_valueOf_extractedOf names value
    rw [sequential_congr same,
      simultaneous_congr (chooses_firstName alone) fun _ name found => same name (mem_of_firstName found)]
    have here := agree fun key => String.ofList (value key.toList)
    rw [replaceInText_eq, replaceAtOnce, extractedOf_names] at here
    exact String.ofList_injective here
  · intro last value
    have named := extractedOf_names names value
    refine replaceInText_of_staysApart (by rwa [named]) (by rwa [named]) ?_
    rw [StaysApart, placeholders, named]
    exact unmixed_of_last order alone _ last

/-! ### A whole rule -/

theorem renderWebhookConstructRule_eq (constructRule : String)
    (extracted : List (String × String)) :
    renderWebhookConstructRule constructRule extracted =
      (decodeMap constructRule).map
        (ruleWith (replaceInText (sortedWebhookVariables extracted))) := rfl

theorem keysSorted_of_decodeMap {raw : List (String × Json)}
    (decoded : decodeMap constructRule = some raw) : KeysSorted raw := by
  unfold decodeMap at decoded
  split at decoded
  · next whole =>
    cases decoded
    exact (decoded_of_decodeValue whole).maps _ .self
  · cases decoded
    exact List.Pairwise.nil
  · cases decoded

/-- The value of a key is that of its member. -/
theorem lookup_of_mem {raw : List (String × Json)} (sorted : KeysSorted raw)
    {member : String × Json} (listed : member ∈ raw) : raw.lookup member.1 = some member.2 :=
  Store.Entries.lookup_of_mem (List.pairwise_map.mpr (sorted.imp fun before => ne_of_lt before))
    listed

/-- The rules are the same if and only if the changes are on every leaf. -/
theorem ruleWith_eq_iff {change other : String → String} {raw : List (String × Json)}
    (sorted : KeysSorted raw) : ruleWith change raw = ruleWith other raw ↔
      ∀ member ∈ raw, ∀ leaf, Within (.string leaf) member.2 → change leaf = other leaf := by
  constructor
  · intro same member listed
    rw [← mapLeaves_eq_iff]
    have found := lookup_of_mem sorted listed
    by_cases field : member.1 ∈ messageKeys
    · have fields : ∀ key ∈ messageKeys, mapLeaves change ((raw.lookup key).getD .null) =
          mapLeaves other ((raw.lookup key).getD .null) := by
        simp only [ruleWith, WebhookConstructRule.mk.injEq] at same
        obtain ⟨title, description, content, url, to_, -⟩ := same
        simp only [messageKeys, List.forall_mem_cons, List.not_mem_nil, false_implies,
          implies_true, and_true]
        exact ⟨title, description, content, url, to_⟩
      have here := fields member.1 field
      rwa [found, Option.getD_some] at here
    · have extras := congrArg WebhookConstructRule.extra same
      have inExtra : member ∈ raw.filter fun member => member.1 ∉ messageKeys :=
        List.mem_filter.mpr ⟨listed, decide_eq_true field⟩
      exact (Prod.mk.inj (List.map_inj_left.mp extras member inExtra)).2
  · intro same
    have value : ∀ key, mapLeaves change ((raw.lookup key).getD .null) =
        mapLeaves other ((raw.lookup key).getD .null) := by
      intro key
      cases found : raw.lookup key with
      | none => rfl
      | some value =>
          obtain ⟨before, after, rfl, -⟩ := List.lookup_eq_some_iff.mp found
          exact mapLeaves_eq_iff.mpr (same (key, value) (by simp))
    have extras : ∀ member ∈ raw.filter fun member => member.1 ∉ messageKeys,
        (member.1, mapLeaves change member.2) = (member.1, mapLeaves other member.2) := by
      intro member listed
      rw [mapLeaves_eq_iff.mpr (same member (List.mem_filter.mp listed).1)]
    simp only [ruleWith, value, List.map_congr_left extras]

/-- A rule is rendered as in one pass if and only if its leaves are. -/
theorem renderWebhookConstructRule_eq_iff : renderWebhookConstructRule constructRule extracted =
      renderAtOnce constructRule extracted ↔
    ∀ leaf, IsLeaf constructRule leaf →
      replaceInText (sortedWebhookVariables extracted) leaf = replaceAtOnce extracted leaf := by
  rw [renderWebhookConstructRule_eq, renderAtOnce]
  cases decoded : decodeMap constructRule with
  | none =>
      refine iff_of_true rfl ?_
      rintro leaf ⟨raw, member, found, -⟩
      cases decoded.symm.trans found
  | some raw =>
      rw [Option.map_some, Option.map_some, Option.some.injEq,
        ruleWith_eq_iff (keysSorted_of_decodeMap decoded)]
      constructor
      · rintro same leaf ⟨found, member, again, listed, within⟩
        cases decoded.symm.trans again
        exact same member listed leaf within
      · intro same member listed leaf within
        exact same leaf ⟨raw, member, decoded, listed, within⟩

/-- A rule is rendered as in one pass where at each step the variable occurs at its own
placeholders only. For all values at once it is if and only if every placeholder of the rule has
the name that is replaced last. -/
theorem rule_is_rendered_at_once_iff (constructRule : String) (distinct : names.Nodup)
    (identifiers : ∀ name ∈ names, IsIdentifier name) :
    (∀ value, (∀ leaf, IsLeaf constructRule leaf → StaysApart (extractedOf names value) leaf) →
      renderWebhookConstructRule constructRule (extractedOf names value) =
        renderAtOnce constructRule (extractedOf names value)) ∧
    ((∀ value, renderWebhookConstructRule constructRule (extractedOf names value) =
        renderAtOnce constructRule (extractedOf names value)) ↔
      ∀ leaf, IsLeaf constructRule leaf → OnlyLastName names leaf) := by
  refine ⟨fun value apart => ?_, fun agree leaf inside => ?_, fun last value => ?_⟩
  · have named := extractedOf_names names value
    refine renderWebhookConstructRule_eq_iff.mpr fun leaf inside => ?_
    exact replaceInText_of_staysApart (by rwa [named]) (by rwa [named]) (apart leaf inside)
  · refine (replaceInText_eq_replaceAtOnce_iff distinct identifiers).mp fun value => ?_
    exact renderWebhookConstructRule_eq_iff.mp (agree value) leaf inside
  · refine renderWebhookConstructRule_eq_iff.mpr fun leaf inside => ?_
    exact (replaceInText_eq_replaceAtOnce_iff distinct identifiers).mpr (last leaf inside) value

/-! ### A title that is the placeholder of another variable -/

def titleTree : Json := .object [("content", .string "$title")]

def titleRule : String := String.ofList (JsonText.text (escapeTree titleTree))

def titleNames : List String := ["title", "url"]

theorem isIdentifier_titleNames : ∀ name ∈ titleNames, IsIdentifier name := by
  have each : ∀ name ∈ titleNames, name ≠ "" ∧ name.toList.all isTemplateIdentifierByte := by decide
  exact fun name listed => ⟨(each name listed).1, List.all_eq_true.mp (each name listed).2⟩

theorem decodeMap_titleRule : decodeMap titleRule = some [("content", .string "$title")] := by
  have maps : IsMaps titleTree := by
    refine IsMaps.object (List.pairwise_singleton _ _) ?_
    simp [isMaps_string]
  have decoded : decodeValue titleRule = some titleTree :=
    decodeValue_marshal (if_pos (by decide)) (by decide) maps
  rw [decodeMap, decoded]
  rfl

theorem rule_is_rendered_at_once_iff_title :
    (∀ value, (∀ leaf, IsLeaf titleRule leaf → StaysApart (extractedOf titleNames value) leaf) →
      renderWebhookConstructRule titleRule (extractedOf titleNames value) =
        renderAtOnce titleRule (extractedOf titleNames value)) ∧
    ((∀ value, renderWebhookConstructRule titleRule (extractedOf titleNames value) =
        renderAtOnce titleRule (extractedOf titleNames value)) ↔
      ∀ leaf, IsLeaf titleRule leaf → OnlyLastName titleNames leaf) :=
  rule_is_rendered_at_once_iff titleRule (by decide) isIdentifier_titleNames

/-- The value of the title is `$url`, and the one of the url is put in its place. -/
theorem value_is_searched :
    ¬ ∀ constructRule names value, names.Nodup → (∀ name ∈ names, IsIdentifier name) →
      renderWebhookConstructRule constructRule (extractedOf names value) =
        renderAtOnce constructRule (extractedOf names value) := by
  intro claimed
  have same := claimed titleRule titleNames (fun name => if name = "title" then "$url" else "x")
    (by decide) isIdentifier_titleNames
  have leaf : IsLeaf titleRule "$title" :=
    ⟨_, ("content", .string "$title"), decodeMap_titleRule, by simp, .self⟩
  have there := renderWebhookConstructRule_eq_iff.mp same "$title" leaf
  revert there
  decide

end MessagePusher.Template
