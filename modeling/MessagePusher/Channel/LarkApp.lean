import MessagePusher.Common.TrimSpace
import MessagePusher.Delivery.GroupProduct
import MessagePusher.Template.IdentityScript

/-!
# Messages of lark apps

What `buildLarkAppMessage` makes of a message, with `encoding/json` and `strings.ToLower` in the
place of the functions that the senders leave open.
-/

namespace MessagePusher.Channel

open Common Model JsonText
open Template (KeepsValue not_keepsValue)
open MessagePusher.Delivery (plainLibrary)

/-- A library with `encoding/json`, and with `strings.ToLower` over a table of runes. -/
def Library.withText (lib : Library) (lowerRune : Char → Char) : Library :=
  { lib with
    toLower := Text.mapRunes lowerRune
    jsonObject := fun text =>
      match unmarshal text with
      | some (.object members) => some members
      | _ => none
    marshal := fun value => (JsonText.marshal value).getD "" }

/-! ### What a text says -/

/-- The text is one JSON value, however deep it is nested. -/
def ReadsAs (text : String) (value : Json) : Prop := ∃ limit, decode limit text = some value

theorem ReadsAs.unique {text : String} {value found : Json} (reads : ReadsAs text value)
    (again : ReadsAs text found) : value = found := by
  obtain ⟨_, decoded⟩ := reads
  obtain ⟨_, other⟩ := again
  exact decode_unique decoded other

/-- The text is a JSON object that `json.Unmarshal` takes: it is not nested too deep, and its
numbers are within the range of a float. -/
def TakenAsObject (text : String) : Prop :=
  ∃ members, decode maxNestingDepth text = some (.object members) ∧
    ∀ literal, Within (.number literal) (.object members) → (Float64.parseFloat literal).isSome

/-- What is written of a value reads as the value. -/
theorem readsAs_marshal {value : Json} (valid : NumbersValid value) :
    ReadsAs ((JsonText.marshal value).getD "") value := by
  have written : JsonText.marshal value = some _ := if_pos valid
  rw [written, Option.getD_some]
  exact ⟨depth value, decode_marshal written (Nat.le_refl _)⟩

theorem isSome_throughFloat (literal : String) :
    (Float64.throughFloat literal).isSome = (Float64.parseFloat literal).isSome := by
  rw [Float64.throughFloat, Option.isSome_map]

/-- The numbers of a value that was decoded to floats can be written. -/
theorem numbersValid_of_unmarshal {text : String} {value : Json}
    (decoded : unmarshal text = some value) : NumbersValid value := by
  obtain ⟨tree, -, floats, rfl⟩ := unmarshal_eq_some_iff.mp decoded
  apply NumbersValid.toMaps
  intro literal within
  obtain ⟨source, inside, rfl⟩ := within_number_mapNumbers within
  obtain ⟨written, through⟩ := Option.isSome_iff_exists.mp (floats source inside)
  rw [floatLiteral, through]
  exact Float64.isNumber_throughFloat through

/-- White space alone is no token. -/
theorem lexFrom_blank {text : List Char} (blank : ∀ char ∈ text, Text.isSpace char = true) :
    lexFrom .idle text = [] ∨ .bad ∈ lexFrom .idle text := by
  induction text with
  | nil => exact .inl rfl
  | cons char rest ih =>
      rw [List.forall_mem_cons] at blank
      by_cases white : isWhitespace char = true
      · have idle : Mode.idle.step char = ([], some .idle) := if_pos white
        rw [lexFrom_cons idle, List.nil_append]
        exact ih blank.2
      · -- The other spaces of Unicode start no token.
        have stuck : Mode.idle.step char = ([], none) := by
          have noQuote : char ≠ '"' := by
            rintro rfl
            cases blank.1
          have noMark : punctuation.lookup char = none := by
            cases found : punctuation.lookup char with
            | none => rfl
            | some token =>
                have marks : (punctuation.all fun entry => !Text.isSpace entry.1) = true := by decide
                have solid := List.all_eq_true.mp marks _ (lookup_mem found)
                simp [blank.1] at solid
          have noWord : words.lookup char = none := by
            cases found : words.lookup char with
            | none => rfl
            | some word =>
                have letters : (words.all fun entry => !Text.isSpace entry.1) = true := by decide
                have solid := List.all_eq_true.mp letters _ (lookup_mem found)
                simp [blank.1] at solid
          have noNumber : NumberPhase.start char = none := by
            unfold NumberPhase.start
            split_ifs with minus zero digit
            · subst minus
              cases blank.1
            · subst zero
              cases blank.1
            · have spaces := blank.1
              simp only [Text.isSpace, Char.isDigit, Bool.or_eq_true, Bool.and_eq_true,
                decide_eq_true_eq, List.contains_iff_mem, List.mem_cons, List.not_mem_nil,
                or_false] at spaces digit
              have low : 48 ≤ char.toNat := digit.1
              have high : char.toNat ≤ 57 := digit.2
              omega
            · rfl
          show start char = ([], none)
          rw [start, if_neg white, if_neg noQuote, noMark, noWord, noNumber]
          rfl
        rw [lexFrom_stuck stuck]
        exact .inr (by simp)

/-- A text with a value in it is not blank. -/
theorem trimSpace_ne_of_decode {limit : Nat} {text : String} {value : Json}
    (decoded : decode limit text = some value) : Text.trimSpace text ≠ "" := by
  intro empty
  obtain ⟨tree, found, -⟩ := Option.map_eq_some_iff.mp decoded
  obtain ⟨parsed, -⟩ := checked_eq_some_iff.mp found
  rcases lexFrom_blank (Text.blank_of_trimSpace empty) with none_ | bad
  · rw [lex, none_] at parsed
    cases parsed
  · exact not_bad_of_parseTree parsed bad

section

variable {lib : Library} {lowerRune : Char → Char} {text : String} {object : List (String × Json)}

/-- The object that the builders see. -/
theorem larkJSONObjectMap_eq_some_iff :
    larkJSONObjectMap (lib.withText lowerRune) text = some object ↔
      unmarshal text = some (.object object) := by
  unfold larkJSONObjectMap
  constructor
  · intro found
    split_ifs at found
    dsimp only [Library.withText] at found
    split at found
    · next members decoded =>
      rw [decoded, Option.some.inj found]
    · cases found
  · intro decoded
    obtain ⟨tree, read, -, -⟩ := unmarshal_eq_some_iff.mp decoded
    rw [if_neg (trimSpace_ne_of_decode read)]
    dsimp only [Library.withText]
    rw [decoded]

theorem larkJSONObjectMap_isSome_iff :
    (larkJSONObjectMap (lib.withText lowerRune) text).isSome = true ↔ TakenAsObject text := by
  rw [Option.isSome_iff_exists]
  constructor
  · rintro ⟨object, found⟩
    obtain ⟨tree, read, floats, same⟩ :=
      unmarshal_eq_some_iff.mp (larkJSONObjectMap_eq_some_iff.mp found)
    cases tree with
    | object members =>
        exact ⟨members, read, fun literal within => isSome_throughFloat literal ▸ floats literal within⟩
    | _ => cases same
  · rintro ⟨members, read, floats⟩
    refine ⟨_, larkJSONObjectMap_eq_some_iff.mpr (unmarshal_eq_some_iff.mpr ⟨_, read, ?_, rfl⟩)⟩
    exact fun literal within => (isSome_throughFloat literal).trans (floats literal within)

/-! ### Post messages -/

/-- The language map of a caller's object, in the writing that comes first. -/
def languageMap (members : List (String × Json)) : Json :=
  match members.lookup "post" with
  | some post => post
  | none =>
      if (members.lookup "zh_cn").isSome || (members.lookup "en_us").isSome then .object members
      else .object [("zh_cn", .object members)]

theorem larkPostLang_ok {postLang : List (String × Json)}
    (found : larkPostLang object = .ok postLang) : languageMap object = .object postLang := by
  unfold larkPostLang at found
  unfold languageMap
  split at found
  · next post writing =>
    rw [writing, Except.ok.inj found]
  · cases found
  · next writing =>
    rw [writing]
    dsimp only
    split_ifs at found with languages
    · rw [if_pos languages, Except.ok.inj found]
    · rw [if_neg languages, ← Except.ok.inj found]

/-- What an accepted post message is. -/
theorem buildLarkAppPostMessage_ok {lib : Library} {message : Message} {spec : LarkAppSpec}
    (built : buildLarkAppPostMessage lib message = .ok spec) :
    ∃ object postLang, larkJSONObjectMap lib message.content = some object ∧
      languageMap object = .object postLang ∧
      spec = ⟨"post", lib.marshal (.object postLang)⟩ := by
  unfold buildLarkAppPostMessage at built
  simp only [bind, Except.bind, pure, Except.pure] at built
  split_ifs at built with blank
  cases object : larkJSONObjectMap lib message.content with
  | none =>
      rw [object] at built
      cases built
  | some members =>
      rw [object] at built
      dsimp only at built
      cases language : larkPostLang members with
      | error text =>
          rw [language] at built
          cases built
      | ok postLang =>
          rw [language] at built
          dsimp only at built
          cases valid : validateLarkPostLang postLang with
          | error text =>
              rw [valid] at built
              cases built
          | ok done =>
              rw [valid] at built
              exact ⟨members, postLang, rfl, larkPostLang_ok language, (Except.ok.inj built).symm⟩

theorem lookup_mapNumbers (change : String → String) (members : List (String × Json))
    (key : String) :
    (members.map fun member => (member.1, mapNumbers change member.2)).lookup key =
      (members.lookup key).map (mapNumbers change) := by
  induction members with
  | nil => rfl
  | cons member members ih =>
      obtain ⟨own, value⟩ := member
      rw [List.map_cons, List.lookup_cons, List.lookup_cons]
      cases key == own with
      | true => rfl
      | false => exact ih

theorem languageMap_mapNumbers (change : String → String) (members : List (String × Json)) :
    languageMap (members.map fun member => (member.1, mapNumbers change member.2)) =
      mapNumbers change (languageMap members) := by
  unfold languageMap
  rw [lookup_mapNumbers, lookup_mapNumbers, lookup_mapNumbers, Option.isSome_map, Option.isSome_map]
  cases members.lookup "post" with
  | some post => rfl
  | none =>
      dsimp only [Option.map_none]
      split_ifs
      · rw [mapNumbers, mapNumberMembers_eq]
      · rw [mapNumbers, mapNumberMembers, mapNumberMembers, mapNumbers, mapNumberMembers_eq]

theorem lookup_member {members : List (String × Json)} {key : String} {value : Json}
    (found : members.lookup key = some value) : (key, value) ∈ members := by
  obtain ⟨before, after, rfl, -⟩ := List.lookup_eq_some_iff.mp found
  simp

theorem isMaps_languageMap {members : List (String × Json)} (maps : IsMaps (.object members)) :
    IsMaps (languageMap members) := by
  unfold languageMap
  split
  · next post writing => exact maps.member (lookup_member writing)
  · split_ifs
    · exact maps
    · refine IsMaps.object (List.pairwise_singleton _ _) ?_
      rintro member listed
      rw [List.mem_singleton.mp listed]
      exact maps

theorem numbersValid_languageMap {members : List (String × Json)}
    (valid : NumbersValid (.object members)) : NumbersValid (languageMap members) := by
  unfold languageMap
  split
  · next post writing => exact fun literal within => valid literal (.member (lookup_member writing) within)
  · split_ifs
    · exact valid
    · intro literal within
      rcases within_object.mp within with same | ⟨member, listed, inside⟩
      · cases same
      · rw [List.mem_singleton.mp listed] at inside
        exact valid literal inside

end

/-- The members of an object as a map: the last one of each key. -/
def asMap (members : List (String × Json)) : List (String × Json) :=
  memberMap (membersToMaps members)

/-- The content of an accepted post message. -/
theorem readsAs_post {lib : Library} {lowerRune : Char → Char} {message : Message}
    {spec : LarkAppSpec} {members : List (String × Json)}
    (built : buildLarkAppPostMessage (lib.withText lowerRune) message = .ok spec)
    (given : ReadsAs message.content (.object members)) :
    ReadsAs spec.content (mapNumbers floatLiteral (languageMap (asMap members))) := by
  obtain ⟨object, postLang, found, language, rfl⟩ := buildLarkAppPostMessage_ok built
  have decoded := larkJSONObjectMap_eq_some_iff.mp found
  obtain ⟨tree, read, -, same⟩ := unmarshal_eq_some_iff.mp decoded
  obtain rfl := given.unique ⟨_, read⟩
  have maps : object = (asMap members).map fun member =>
      (member.1, mapNumbers floatLiteral member.2) := by
    rw [toMaps_mapNumbers, toMaps, mapNumbers, mapNumberMembers_eq] at same
    exact Json.object.inj same
  have whole : Json.object postLang = mapNumbers floatLiteral (languageMap (asMap members)) := by
    rw [← language, maps, languageMap_mapNumbers]
  have valid : NumbersValid (.object postLang) :=
    language ▸ numbersValid_languageMap (numbersValid_of_unmarshal decoded)
  rw [← whole]
  exact readsAs_marshal valid

/-- The language map keeps its value exactly when each of its numbers does. -/
theorem meaning_languageMap_iff (members : List (String × Json)) :
    meaning (mapNumbers floatLiteral (languageMap (asMap members))) =
        meaning (languageMap (asMap members)) ↔
      ∀ literal, Within (.number literal) (languageMap (asMap members)) → KeepsValue literal := by
  have maps : IsMaps (languageMap (asMap members)) := by
    apply isMaps_languageMap
    have whole : Json.object (asMap members) = toMaps (.object members) := rfl
    rw [whole]
    exact isMaps_toMaps _
  rw [meaning, meaning, toMaps_mapNumbers, toMaps_of_isMaps maps]
  exact denote_mapNumbers_iff

/-- The content of an accepted post message is the caller's language map exactly when each number
of the map is the same after it has been a float. -/
theorem post_keeps_value_iff (lib : Library) (lowerRune : Char → Char) {message : Message}
    {spec : LarkAppSpec} {members : List (String × Json)}
    (built : buildLarkAppPostMessage (lib.withText lowerRune) message = .ok spec)
    (given : ReadsAs message.content (.object members)) :
    (∃ sent, ReadsAs spec.content sent ∧ meaning sent = meaning (languageMap (asMap members))) ↔
      ∀ literal, Within (.number literal) (languageMap (asMap members)) → KeepsValue literal := by
  have sent := readsAs_post built given
  rw [← meaning_languageMap_iff]
  constructor
  · rintro ⟨value, reads, same⟩
    obtain rfl := reads.unique sent
    exact same
  · exact fun same => ⟨_, sent, same⟩

/-! A post with an identifier that no float is. -/

/-- The language map with its identifier. -/
def numberedPost (identifier : String) : List (String × Json) :=
  [("zh_cn", .object [("content", .array []), ("id", .number identifier)])]

def numberedContent : String := "\x7b\"zh_cn\":\x7b\"content\":[],\"id\":9007199254740993\x7d\x7d"

theorem decode_numberedContent : decode maxNestingDepth numberedContent =
    some (.object (numberedPost "9007199254740993")) := by
  have spelled : JsonText.text (escapeTree (.object (numberedPost "9007199254740993"))) =
      numberedContent.toList := by decide
  have valid : NumbersValid (.object (numberedPost "9007199254740993")) := by decide
  have written : JsonText.marshal (.object (numberedPost "9007199254740993")) =
      some numberedContent := by
    rw [JsonText.marshal, if_pos valid, spelled, String.ofList_toList]
  exact decode_marshal written (by decide)

/-- The message that the sender makes of it. -/
def numberedSpec : LarkAppSpec :=
  ⟨"post", (plainLibrary.withText Char.toLower).marshal
    (.object (numberedPost (floatLiteral "9007199254740993")))⟩

theorem numberedPost_built :
    buildLarkAppPostMessage (plainLibrary.withText Char.toLower) { content := numberedContent } =
      .ok numberedSpec := by
  have decoded : unmarshal numberedContent =
      some (.object (numberedPost (floatLiteral "9007199254740993"))) := by
    refine unmarshal_eq_some_iff.mpr ⟨_, decode_numberedContent, ?_, rfl⟩
    intro literal within
    have listed := mem_numbers_iff.mpr within
    have single : numbers (.object (numberedPost "9007199254740993")) = ["9007199254740993"] := rfl
    rw [single, List.mem_singleton] at listed
    subst listed
    decide
  have found : larkJSONObjectMap (plainLibrary.withText Char.toLower) numberedContent =
      some (numberedPost (floatLiteral "9007199254740993")) :=
    larkJSONObjectMap_eq_some_iff.mpr decoded
  have filled : Text.trimSpace numberedContent ≠ "" := by decide
  unfold buildLarkAppPostMessage
  simp only [bind, Except.bind, pure, Except.pure]
  rw [if_neg filled, found]
  rfl

theorem languageMap_numberedPost (identifier : String) :
    languageMap (asMap (numberedPost identifier)) = .object (numberedPost identifier) := by
  have block : toMaps (.object [("content", .array []), ("id", .number identifier)]) =
      .object [("content", .array []), ("id", .number identifier)] := by
    have sorted : KeysSorted [("content", Json.array []), ("id", .number identifier)] := by
      have before : "content" < "id" := by decide
      simpa [KeysSorted] using before
    exact congrArg Json.object (memberMap_of_sorted sorted)
  have whole : asMap (numberedPost identifier) = numberedPost identifier := by
    rw [asMap, numberedPost, membersToMaps, block]
    rfl
  rw [whole]
  rfl

theorem large_identifier_is_rounded :
    buildLarkAppPostMessage (plainLibrary.withText Char.toLower) { content := numberedContent } =
        .ok numberedSpec ∧
      ReadsAs numberedContent (.object (numberedPost "9007199254740993")) ∧
      ¬ ∃ sent, ReadsAs numberedSpec.content sent ∧
        meaning sent = meaning (languageMap (asMap (numberedPost "9007199254740993"))) := by
  refine ⟨numberedPost_built, ⟨_, decode_numberedContent⟩, ?_⟩
  rintro ⟨sent, reads, same⟩
  obtain rfl := reads.unique (readsAs_post numberedPost_built ⟨_, decode_numberedContent⟩)
  refine not_keepsValue ((meaning_languageMap_iff _).mp same _ ?_)
  rw [languageMap_numberedPost]
  exact mem_numbers_iff.mp (by decide)

theorem post_keeps_value_iff_numbered :
    (∃ sent, ReadsAs numberedSpec.content sent ∧
        meaning sent = meaning (languageMap (asMap (numberedPost "9007199254740993")))) ↔
      ∀ literal, Within (.number literal)
        (languageMap (asMap (numberedPost "9007199254740993"))) → KeepsValue literal :=
  post_keeps_value_iff plainLibrary Char.toLower numberedPost_built ⟨_, decode_numberedContent⟩

end MessagePusher.Channel
