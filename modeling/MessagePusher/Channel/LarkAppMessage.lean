import MessagePusher.Channel.LarkApp

/-!
# Well-formed messages of lark apps

Every message that `buildLarkAppMessage` does not refuse has a type that is spelled as the
platform spells it and a content that is a JSON object, on each of the paths through the builders.
-/

namespace MessagePusher.Channel

open Common Model JsonText
open MessagePusher.Delivery (plainLibrary)

/-- The text of a text message. -/
def larkText (message : Message) : String := orElse message.description message.content

/-- The key of the types with a single field. -/
def larkKey (msgType : String) : Option String :=
  if msgType = "image" then some "image_key"
  else if msgType = "share_chat" then some "chat_id"
  else if msgType = "share_user" then some "user_id"
  else if msgType ∈ ["audio", "media", "file", "sticker"] then some "file_key"
  else none

/-- The card that shows a content. -/
def larkCard (content : String) : Json :=
  .object
    [ ("config", .object [("wide_screen_mode", .bool true), ("enable_forward", .bool true)]),
      ("elements", .array [.object [("tag", .string "div"),
        ("text", .object [("tag", .string "lark_md"), ("content", .string content)])]]) ]

/-- The paths through `buildLarkAppMessage` for a type that end without an error. -/
inductive Built (lib : Library) (message : Message) (msgType : String) : LarkAppSpec → Prop where
  | text (type : msgType = "text") (solid : Text.trimSpace (larkText message) ≠ "") :
      Built lib message msgType
        ⟨"text", lib.marshal (.object [("text", .string (larkText message))])⟩
  | post {object postLang} (type : msgType = "post")
      (found : larkJSONObjectMap lib message.content = some object)
      (language : languageMap object = .object postLang) :
      Built lib message msgType ⟨"post", lib.marshal (.object postLang)⟩
  | carried (untexted : msgType ≠ "text")
      (taken : (larkJSONObjectMap lib message.content).isSome) :
      Built lib message msgType ⟨msgType, message.content⟩
  | card (type : msgType = "interactive")
      (untaken : ¬ (larkJSONObjectMap lib message.content).isSome) :
      Built lib message msgType ⟨"interactive", lib.marshal (larkCard message.content)⟩
  | keyed {key} (single : larkKey msgType = some key)
      (untaken : ¬ (larkJSONObjectMap lib message.content).isSome) :
      Built lib message msgType
        ⟨msgType, lib.marshal (.object [(key, .string (Text.trimSpace message.content))])⟩

section Paths

variable {lib : Library} {message : Message} {msgType : String} {spec : LarkAppSpec}

/-- A message of a type with one key is built as that. -/
theorem built_keyed {key : String} (single : larkKey msgType = some key)
    (built : buildLarkAppKeyedContentMessage lib msgType message.content key = .ok spec) :
    Built lib message msgType spec := by
  unfold buildLarkAppKeyedContentMessage at built
  split_ifs at built with blank taken
  · have untexted : msgType ≠ "text" := by
      rintro rfl
      cases single
    rw [← Except.ok.inj built]
    exact .carried untexted taken
  · rw [← Except.ok.inj built]
    exact .keyed single taken

/-- What is built is one of the kinds. -/
theorem built_of_ok (built : buildLarkAppMessage lib message = .ok spec) :
    Built lib message (larkAppMsgType lib message) spec := by
  unfold buildLarkAppMessage at built
  dsimp only at built
  generalize larkAppMsgType lib message = msgType at built ⊢
  split_ifs at built with text post interactive image chat user file taken
  · unfold buildLarkAppTextMessage at built
    dsimp only at built
    split_ifs at built with blank
    rw [← Except.ok.inj built]
    exact .text text blank
  · obtain ⟨object, postLang, found, language, rfl⟩ := buildLarkAppPostMessage_ok built
    exact .post post found language
  · unfold buildLarkAppInteractiveMessage at built
    split_ifs at built with blank taken
    · rw [← Except.ok.inj built, ← interactive]
      exact .carried text taken
    · rw [← Except.ok.inj built]
      exact .card interactive taken
  · refine built_keyed ?_ built
    rw [larkKey, if_pos image]
  · refine built_keyed ?_ built
    rw [larkKey, if_neg image, if_pos chat]
  · refine built_keyed ?_ built
    rw [larkKey, if_neg image, if_neg chat, if_pos user]
  · refine built_keyed ?_ built
    rw [larkKey, if_neg image, if_neg chat, if_neg user, if_pos file]
  · rw [← Except.ok.inj built]
    exact .carried text taken

/-- The message goes out under the type that it goes by. -/
theorem Built.msgType_eq (built : Built lib message msgType spec) : spec.msgType = msgType := by
  cases built with
  | text type => exact type.symm
  | post type => exact type.symm
  | card type => exact type.symm
  | carried => rfl
  | keyed => rfl

end Paths

/-! ### The type -/

/-- A text in lower case stays. -/
theorem mapRunes_plain {lowerRune : Char → Char} (table : Text.LowerCase lowerRune) {text : String}
    (plain : (text.toList.all fun char => char.toNat < 128 && char.toLower = char) = true) :
    Text.mapRunes lowerRune text = text := by
  have same : text.toList.map lowerRune = text.toList.map id := by
    apply List.map_congr_left
    intro char member
    have letter := List.all_eq_true.mp plain char member
    rw [Bool.and_eq_true, decide_eq_true_eq, decide_eq_true_eq] at letter
    rw [table.ascii char letter.1, letter.2]
    rfl
  rw [Text.mapRunes, same, List.map_id, String.ofList_toList]

/-- A type is spelled as the platform spells its types. -/
structure Spelled (lower : String → String) (msgType : String) : Prop where
  named : msgType ≠ ""
  trimmed : Text.trimSpace msgType = msgType
  lowered : lower msgType = msgType

/-- The type of a message is spelled in lower case. -/
theorem larkAppMsgType_spelled {lowerRune : Char → Char} (table : Text.LowerCase lowerRune)
    (lib : Library) (message : Message) :
    Spelled (Text.mapRunes lowerRune) (larkAppMsgType (lib.withText lowerRune) message) := by
  have lower : (lib.withText lowerRune).toLower = Text.mapRunes lowerRune := rfl
  unfold larkAppMsgType
  rw [lower]
  dsimp only
  by_cases unset : Text.mapRunes lowerRune (Text.trimSpace message.msgType) = ""
  · rw [if_pos unset]
    by_cases description : message.description ≠ ""
    · rw [if_pos description]
      exact ⟨by decide, by decide, mapRunes_plain table (by decide)⟩
    · rw [if_neg description]
      exact ⟨by decide, by decide, mapRunes_plain table (by decide)⟩
  · rw [if_neg unset]
    exact ⟨unset, Text.trimSpace_mapRunes table _, Text.mapRunes_mapRunes table _⟩

/-! ### The content -/

/-- Without numbers there is none to be wrong. -/
theorem numbersValid_of_nil {value : Json} (none_ : numbers value = []) : NumbersValid value := by
  intro literal within
  have listed := mem_numbers_iff.mpr within
  rw [none_] at listed
  cases listed

/-- A message that the platform takes, for the type that the message goes by. -/
structure WellFormed (lower : String → String) (message : Message) (msgType : String)
    (spec : LarkAppSpec) : Prop where
  typed : spec.msgType = msgType
  spelled : Spelled lower spec.msgType
  object : ∃ members, ReadsAs spec.content (.object members)
  text : msgType = "text" → Text.trimSpace (larkText message) ≠ "" ∧
    ReadsAs spec.content (.object [("text", .string (larkText message))])
  /-- A content that is no object is the value of the single field. -/
  keyed : ∀ key, larkKey msgType = some key → ¬ TakenAsObject message.content →
    ReadsAs spec.content (.object [(key, .string (Text.trimSpace message.content))])
  carried : msgType ≠ "text" → msgType ≠ "post" → TakenAsObject message.content →
    spec.content = message.content
  card : msgType = "interactive" → ¬ TakenAsObject message.content →
    ReadsAs spec.content (larkCard message.content)

/-- A message that is built is well formed. -/
theorem Built.wellFormed {lib : Library} {lowerRune : Char → Char} {message : Message}
    {msgType : String} {spec : LarkAppSpec}
    (built : Built (lib.withText lowerRune) message msgType spec)
    (own : Spelled (Text.mapRunes lowerRune) msgType) :
    WellFormed (Text.mapRunes lowerRune) message msgType spec := by
  have type := built.msgType_eq
  have spelled : Spelled (Text.mapRunes lowerRune) spec.msgType := type ▸ own
  have written : ∀ value, numbers value = [] →
      ReadsAs ((lib.withText lowerRune).marshal value) value :=
    fun value none_ => readsAs_marshal (numbersValid_of_nil none_)
  cases built with
  | text is solid =>
      subst is
      have reads := written (.object [("text", .string (larkText message))]) rfl
      refine ⟨type, spelled, ⟨_, reads⟩, fun _ => ⟨solid, reads⟩, ?_, fun other => absurd rfl other, ?_⟩
      · rintro key ⟨⟩
      · exact fun other => absurd other (by decide)
  | @post object postLang is found language =>
      subst is
      have valid : NumbersValid (.object postLang) :=
        language ▸ numbersValid_languageMap
          (numbersValid_of_unmarshal (larkJSONObjectMap_eq_some_iff.mp found))
      refine ⟨type, spelled, ⟨_, readsAs_marshal valid⟩, ?_, ?_, fun _ other => absurd rfl other, ?_⟩
      · exact fun other => absurd other (by decide)
      · rintro key ⟨⟩
      · exact fun other => absurd other (by decide)
  | carried untexted taken =>
      have object : TakenAsObject message.content := larkJSONObjectMap_isSome_iff.mp taken
      have reads : ∃ members, ReadsAs message.content (.object members) := by
        obtain ⟨members, read, -⟩ := object
        exact ⟨members, _, read⟩
      exact ⟨type, spelled, reads, fun text => absurd text untexted,
        fun _ _ other => absurd object other, fun _ _ _ => rfl, fun _ other => absurd object other⟩
  | card is untaken =>
      subst is
      have reads := written (larkCard message.content) rfl
      have other : ¬ TakenAsObject message.content :=
        fun object => untaken (larkJSONObjectMap_isSome_iff.mpr object)
      refine ⟨type, spelled, ⟨_, reads⟩, ?_, ?_, fun _ _ object => absurd object other,
        fun _ _ => reads⟩
      · exact fun text => absurd text (by decide)
      · rintro key ⟨⟩
  | @keyed key single untaken =>
      have reads := written (.object [(key, .string (Text.trimSpace message.content))]) rfl
      have other : ¬ TakenAsObject message.content :=
        fun object => untaken (larkJSONObjectMap_isSome_iff.mpr object)
      refine ⟨type, spelled, ⟨_, reads⟩, ?_, ?_, fun _ _ object => absurd object other, ?_⟩
      · rintro rfl
        cases single
      · intro same found _
        rw [single] at found
        cases found
        exact reads
      · rintro rfl
        cases single

/-- Every message that is not refused is well formed. -/
theorem buildLarkAppMessage_wellFormed (lib : Library) {lowerRune : Char → Char}
    (table : Text.LowerCase lowerRune) {message : Message} {spec : LarkAppSpec}
    (built : buildLarkAppMessage (lib.withText lowerRune) message = .ok spec) :
    WellFormed (Text.mapRunes lowerRune) message
      (larkAppMsgType (lib.withText lowerRune) message) spec :=
  (built_of_ok built).wellFormed (larkAppMsgType_spelled table lib message)

/-! A card that is nested too deep for the decoder, and a plain text. -/

theorem lowerCase_ascii : Text.LowerCase Char.toLower := by
  have cases_ : ∀ char : Char, char.toLower = char ∨
      (65 ≤ char.toNat ∧ char.toNat ≤ 90 ∧ char.toLower.toNat = char.toNat + 32) := by
    intro char
    unfold Char.toLower
    split_ifs with upper
    · have low : 65 ≤ char.toNat := upper.1
      have high : char.toNat ≤ 90 := upper.2
      refine .inr ⟨low, high, ?_⟩
      have sum : (char.val + ('a'.val - 'A'.val)).toNat = char.val.toNat + 32 := by
        have small : char.val.toNat ≤ 90 := high
        rw [UInt32.toNat_add]
        have off : ('a'.val - 'A'.val).toNat = 32 := by decide
        rw [off]
        omega
      exact sum
    · exact .inl rfl
  refine ⟨fun char _ => rfl, ?_, ?_⟩
  · intro char
    rcases cases_ char with same | ⟨low, high, lower⟩
    · rw [same, same]
    · rcases cases_ char.toLower with same | ⟨-, high', -⟩
      · exact same
      · omega
  · intro char blank
    rcases cases_ char with same | ⟨low, high, lower⟩
    · rwa [same] at blank
    · simp only [Text.isSpace, lower, Bool.or_eq_true, Bool.and_eq_true, decide_eq_true_eq,
        List.contains_iff_mem, List.mem_cons, List.not_mem_nil, or_false] at blank
      omega
/-- Objects within objects. -/
def nested : Nat → Json
  | 0 => .object []
  | count + 1 => .object [("a", nested count)]

theorem depth_nested (count : Nat) : depth (nested count) = count + 1 := by
  induction count with
  | zero => rfl
  | succ count ih => simp [nested, depth, membersDepth, ih]

theorem numbers_nested (count : Nat) : numbers (nested count) = [] := by
  induction count with
  | zero => rfl
  | succ count ih => simpa [nested, numbers, memberNumbers] using ih

/-- An interactive message whose content is an object in so many others. -/
def deepCard (count : Nat) : Message where
  content := (JsonText.marshal (nested count)).getD ""
  msgType := "interactive"

/-- The card in a card that is sent instead. -/
def deepSpec (count : Nat) : LarkAppSpec :=
  ⟨"interactive", (plainLibrary.withText Char.toLower).marshal (larkCard (deepCard count).content)⟩

/-- JSON itself knows no limit of the nesting. -/
theorem readsAs_deepCard (count : Nat) : ReadsAs (deepCard count).content (nested count) :=
  readsAs_marshal (numbersValid_of_nil (numbers_nested count))

/-- `json.Unmarshal` does. -/
theorem not_takenAsObject_deepCard {count : Nat} (deep : maxNestingDepth ≤ count) :
    ¬ TakenAsObject (deepCard count).content := by
  rintro ⟨members, read, -⟩
  have same := (readsAs_deepCard count).unique ⟨_, read⟩
  have shallow := depth_of_decode read
  rw [← same, depth_nested] at shallow
  omega

/-- A card that is nested too deeply is taken for a text. -/
theorem deepCard_built {count : Nat} (deep : maxNestingDepth ≤ count) :
    buildLarkAppMessage (plainLibrary.withText Char.toLower) (deepCard count) =
      .ok (deepSpec count) := by
  have type : larkAppMsgType (plainLibrary.withText Char.toLower) (deepCard count) = "interactive" := by
    have spelled : Text.mapRunes Char.toLower (Text.trimSpace "interactive") = "interactive" := by
      decide
    have lower : (plainLibrary.withText Char.toLower).toLower
        (Text.trimSpace (deepCard count).msgType) = "interactive" := spelled
    rw [larkAppMsgType, lower]
    exact if_neg (by decide)
  have filled : Text.trimSpace (deepCard count).content ≠ "" := by
    obtain ⟨limit, read⟩ := readsAs_deepCard count
    exact trimSpace_ne_of_decode read
  have untaken : ¬ (larkJSONObjectMap (plainLibrary.withText Char.toLower)
      (deepCard count).content).isSome = true :=
    fun taken => not_takenAsObject_deepCard deep (larkJSONObjectMap_isSome_iff.mp taken)
  have interactive : buildLarkAppMessage (plainLibrary.withText Char.toLower) (deepCard count) =
      buildLarkAppInteractiveMessage (plainLibrary.withText Char.toLower) (deepCard count) := by
    have untexted : ("interactive" : String) ≠ "text" := by decide
    have unposted : ("interactive" : String) ≠ "post" := by decide
    unfold buildLarkAppMessage
    dsimp only
    rw [type, if_neg untexted, if_neg unposted, if_pos rfl]
  rw [interactive, buildLarkAppInteractiveMessage, if_neg filled, if_neg untaken]
  rfl

theorem deepSpec_ne (count : Nat) : (deepSpec count).content ≠ (deepCard count).content := by
  intro same
  have written : (deepSpec count).content =
      (JsonText.marshal (larkCard (deepCard count).content)).getD "" := rfl
  have card : ReadsAs (deepSpec count).content (larkCard (deepCard count).content) := by
    rw [written]
    exact readsAs_marshal (numbersValid_of_nil rfl)
  have object := (readsAs_deepCard count).unique (same ▸ card)
  cases count with
  | zero => simp [nested, larkCard] at object
  | succ count => simp [nested, larkCard] at object

theorem deep_card_is_wrapped :
    (∃ members, ReadsAs (deepCard 10000).content (.object members) ∧
      ∀ literal, Within (.number literal) (.object members) →
        (Float64.parseFloat literal).isSome) ∧
      buildLarkAppMessage (plainLibrary.withText Char.toLower) (deepCard 10000) =
        .ok (deepSpec 10000) ∧
      (deepSpec 10000).msgType = "interactive" ∧
      (deepSpec 10000).content ≠ (deepCard 10000).content := by
  refine ⟨⟨[("a", nested 9999)], readsAs_deepCard 10000, ?_⟩, deepCard_built (Nat.le_refl _), rfl,
    deepSpec_ne 10000⟩
  intro literal within
  have listed := mem_numbers_iff.mpr within
  have none_ : numbers (.object [("a", nested 9999)]) = [] := numbers_nested 10000
  rw [none_] at listed
  cases listed

/-- A description, sent as a text. -/
def larkHello : Message where
  description := "hello"

/-- A text as it is sent. -/
def larkHelloSpec : LarkAppSpec :=
  ⟨"text", (plainLibrary.withText Char.toLower).marshal (.object [("text", .string "hello")])⟩

theorem buildLarkAppMessage_wellFormed_hello :
    WellFormed (Text.mapRunes Char.toLower) larkHello
      (larkAppMsgType (plainLibrary.withText Char.toLower) larkHello) larkHelloSpec :=
  buildLarkAppMessage_wellFormed plainLibrary lowerCase_ascii rfl

end MessagePusher.Channel
