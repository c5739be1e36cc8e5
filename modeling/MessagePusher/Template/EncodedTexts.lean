import MessagePusher.Store.Entries
import MessagePusher.Template.PathOccurrences
import MessagePusher.Template.Placeholders

/-!
# Templates of characters and templates of bytes

On the bytes of a text, `RenderTemplate` makes the bytes of what it makes of the characters.
-/

namespace MessagePusher.Template.Bytewise

open Common (Json)
open Common.TemplateBytes JsonText Utf8

/-! ### Classes of bytes -/

/-- A class of bytes and a class of characters that are the same ASCII characters. -/
structure SameAscii (bytes : UInt8 → Bool) (chars : Char → Bool) : Prop where
  ascii : ∀ value < 0x80, bytes (UInt8.ofNat value) = chars (Char.ofNat value)
  noOtherByte : ∀ byte, ¬ byte < 0x80 → bytes byte = false
  noOtherChar : ∀ char : Char, ¬ char.toNat < 0x80 → chars char = false

variable {bytes : UInt8 → Bool} {symbols : Char → Bool} {chars rest : List Char} {char : Char}

/-- A character is in the class by itself when its first byte is, and no other byte is. -/
theorem SameAscii.encoded (same : SameAscii bytes symbols) (char : Char) :
    ∃ first more, String.utf8EncodeChar char = first :: more ∧ bytes first = symbols char ∧
      (symbols char → more = []) := by
  obtain ⟨first, more, spelled, -⟩ := utf8EncodeChar_eq char
  refine ⟨first, more, spelled, ?_⟩
  by_cases small : char.toNat < 0x80
  · have one := utf8EncodeChar_ascii small
    rw [spelled, List.cons.injEq] at one
    obtain ⟨rfl, rfl⟩ := one
    refine ⟨?_, fun _ => rfl⟩
    rw [same.ascii _ small, Char.ofNat_toNat]
  · have high : ¬ first < 0x80 :=
      not_ascii_of_mem_utf8EncodeChar small (spelled ▸ List.mem_cons_self ..)
    have noChar := same.noOtherChar char small
    refine ⟨(same.noOtherByte first high).trans noChar.symm, fun symbol => ?_⟩
    rw [noChar] at symbol
    cases symbol

/-- Bytes and characters are taken alike by tests that accept ASCII only. -/
theorem SameAscii.takeWhile (same : SameAscii bytes symbols) (chars : List Char) :
    (encode chars).takeWhile bytes = encode (chars.takeWhile symbols) := by
  induction chars with
  | nil => rfl
  | cons char chars ih =>
      obtain ⟨first, more, spelled, class_, alone⟩ := same.encoded char
      rw [encode_cons, spelled, List.takeWhile_cons]
      by_cases symbol : symbols char
      · obtain rfl := alone symbol
        rw [List.cons_append, List.takeWhile_cons, class_, symbol, List.nil_append, ih]
        simp [spelled]
      · have outside := class_.trans (Bool.eq_false_of_not_eq_true symbol)
        rw [List.cons_append, List.takeWhile_cons, outside, if_neg symbol]
        rfl

/-- The first byte passes such a test when the first character does. -/
theorem SameAscii.head_any (same : SameAscii bytes symbols) (chars : List Char) :
    (encode chars).head?.any bytes = chars.head?.any symbols := by
  cases chars with
  | nil => rfl
  | cons char chars =>
      obtain ⟨first, more, spelled, class_, -⟩ := same.encoded char
      rw [encode_cons, spelled]
      exact class_

/-- The bytes of a path are ASCII. -/
theorem ascii_of_pathByte (pathByte : Common.isTemplatePathByte char) : char.toNat < 0x80 := by
  have below : ∀ last : Char, last.toNat < 0x80 → char ≤ last → char.toNat < 0x80 :=
    fun last small before => Nat.lt_of_le_of_lt before small
  simp only [Common.isTemplatePathByte, Bool.or_eq_true, Bool.and_eq_true, decide_eq_true_eq]
    at pathByte
  rcases pathByte with ((((⟨-, before⟩ | ⟨-, before⟩) | ⟨-, before⟩) | rfl) | rfl) | rfl
  · exact below 'z' (by decide) before
  · exact below 'Z' (by decide) before
  · exact below '9' (by decide) before
  · decide
  · decide
  · decide

theorem sameAscii_pathByte : SameAscii isTemplatePathByte Common.isTemplatePathByte where
  ascii := by decide
  noOtherByte := by
    have each : ∀ value < 0x80, isTemplatePathByte (UInt8.ofNat (value + 0x80)) = false := by
      decide
    intro byte high
    have large : 0x80 ≤ byte.toNat := Nat.not_lt.mp fun low => high (UInt8.lt_iff_toNat_lt.mpr low)
    have small := byte.toNat_lt
    have found := each (byte.toNat - 0x80) (by omega)
    rwa [Nat.sub_add_cancel large, UInt8.ofNat_toNat] at found
  noOtherChar := fun char high =>
    Bool.eq_false_of_not_eq_true fun pathByte => high (ascii_of_pathByte pathByte)

theorem sameAscii_identifierByte :
    SameAscii isTemplateIdentifierByte Common.isTemplateIdentifierByte where
  ascii := by decide
  noOtherByte := fun byte high => Bool.eq_false_of_not_eq_true fun identifier => by
    have pathByte := isTemplatePathByte_of_identifier identifier
    rw [sameAscii_pathByte.noOtherByte byte high] at pathByte
    cases pathByte
  noOtherChar := fun char high => Bool.eq_false_of_not_eq_true fun identifier =>
    high (ascii_of_pathByte (Common.isTemplatePathByte_of_identifier identifier))

theorem sameAscii_pathStartByte :
    SameAscii isTemplatePathStartByte Common.isTemplatePathStartByte where
  ascii := by decide
  noOtherByte := fun byte high => Bool.eq_false_of_not_eq_true fun start => by
    have pathByte := isTemplatePathByte_of_start start
    rw [sameAscii_pathByte.noOtherByte byte high] at pathByte
    cases pathByte
  noOtherChar := fun char high => Bool.eq_false_of_not_eq_true fun start =>
    high (ascii_of_pathByte (Common.isTemplatePathByte_of_start start))

/-! ### Variables -/

/-- A string as its bytes; any other value as it is. -/
def Value.ofJson : Json → Value
  | .string text => .text (encode text.toList)
  | value => .json value

/-- The variables with the bytes of their names and strings. -/
def encodedVars (vars : Common.Variables) : Variables :=
  vars.map fun entry => (encode entry.1.toList, Value.ofJson entry.2)

/-- A write in bytes. -/
def encodedWrite : Common.Write → Write
  | .copy text => .copy (encode text)
  | .value text => .value (encode text)

variable {vars : Common.Variables} {value : Json}

/-- A value is looked at as it came. -/
theorem seen_ofJson (value : Json) : (Value.ofJson value).seen = value := by
  cases value with
  | string text =>
      rw [Value.ofJson, Value.seen, characters_encode, String.ofList_toList]
  | _ => rfl

/-- A value has the same text in bytes. -/
theorem templateValueString_ofJson (value : Json) :
    templateValueString (Value.ofJson value) =
      (Common.templateValueString value).map fun text => encode text.toList := by
  cases value <;> rfl

/-- A path finds the same text in bytes. -/
theorem templatePathText_ofJson (value : Json) (path : List Char) :
    templatePathText (Value.ofJson value) (encode path) =
      (Common.templatePathText value path).map fun text => encode text.toList := by
  rw [templatePathText, seen_ofJson, characters_encode]

/-- Different names have different bytes. -/
theorem encode_toList_injective :
    Function.Injective fun name : String => encode name.toList :=
  fun _ _ same => String.ext (encode_injective same)

/-- The names in bytes are those of the variables. -/
theorem mem_names_encodedVars {name : Bytes} :
    name ∈ (encodedVars vars).map Prod.fst ↔
      ∃ source ∈ vars.map Prod.fst, name = encode source.toList := by
  simp only [encodedVars, List.map_map, List.mem_map, Function.comp_apply]
  constructor
  · rintro ⟨entry, listed, rfl⟩
    exact ⟨entry.1, ⟨entry, listed, rfl⟩, rfl⟩
  · rintro ⟨source, ⟨entry, listed, rfl⟩, rfl⟩
    exact ⟨entry, listed, rfl⟩

/-- A name has its value in bytes too. -/
theorem lookup_encodedVars (name : String) :
    ((encodedVars vars).lookup (encode name.toList)).getD (.json .null) =
      Value.ofJson ((vars.lookup name).getD .null) := by
  have renamed := Store.Entries.lookup_rename encode_toList_injective vars Value.ofJson name
  rw [encodedVars, renamed]
  cases vars.lookup name with
  | none => rfl
  | some value => rfl

theorem encode_eq_nil_iff : encode chars = [] ↔ chars = [] := by
  constructor
  · exact fun same => encode_injective same
  · rintro rfl
    rfl

/-- The names are the same ones: in both orders the longest comes first. -/
theorem templateName_encode (vars : Common.Variables) (rest : List Char) :
    templateName (encodedVars vars) (encode rest) =
      (Common.templateName vars rest).map fun name => encode name.toList := by
  have fitting : ∀ name : Bytes, name ∈ (encodedVars vars).map Prod.fst → name ≠ [] →
      name <+: encode rest → ∃ source ∈ vars.map Prod.fst, source ≠ "" ∧ source.toList <+: rest ∧
        name = encode source.toList := by
    intro name listed some_ fits
    obtain ⟨source, member, rfl⟩ := mem_names_encodedVars.mp listed
    refine ⟨source, member, ?_, encode_prefix_iff.mp fits, rfl⟩
    rintro rfl
    exact some_ rfl
  cases found : Common.templateName vars rest with
  | none =>
      rw [Option.map_none, templateName, List.find?_eq_none]
      intro name listed isPrefix
      obtain ⟨member, some_⟩ := mem_templateNames.mp listed
      obtain ⟨source, inVars, named, fits, -⟩ :=
        fitting name member some_ (List.isPrefixOf_iff_prefix.mp isPrefix)
      obtain ⟨chosen, -, taken, -⟩ := exists_templateName inVars named fits
      cases taken.symm.trans found
  | some name =>
      obtain ⟨listed, after, rfl⟩ := Common.templateName_spec found
      have named : name ≠ "" :=
        (Common.mem_templateNames.mp (List.mem_of_find?_eq_some found)).2
      refine templateName_longest (mem_names_encodedVars.mpr ⟨name, listed, rfl⟩) ?_
        (encode_prefix_iff.mpr (List.prefix_append _ _)) ?_
      · rw [ne_eq, encode_eq_nil_iff]
        exact fun empty => named (String.ext empty)
      · intro other member fits
        by_cases some_ : other = []
        · rw [some_]
          exact Nat.zero_le _
        · obtain ⟨source, inVars, nonempty, fitsSource, rfl⟩ := fitting other member some_ fits
          obtain ⟨chosen, -, taken, -, longer⟩ := exists_templateName inVars nonempty fitsSource
          obtain rfl := Option.some.inj (found.symm.trans taken)
          exact (encode_prefix_iff.mpr longer).length_le

/-! ### One round -/

/-- An ASCII byte is only in the character that it is. -/
theorem not_mem_utf8EncodeChar {ascii : Char} (apart : char ≠ ascii) (small : ascii.toNat < 0x80) :
    UInt8.ofNat ascii.toNat ∉ String.utf8EncodeChar char := by
  intro inside
  have low : UInt8.ofNat ascii.toNat < 0x80 := by
    rw [UInt8.lt_iff_toNat_lt, UInt8.toNat_ofNat', Nat.mod_eq_of_lt (by omega)]
    exact small
  have alone := utf8EncodeChar_of_ascii_mem low inside
  rw [← utf8EncodeChar_ascii small] at alone
  have one : encode [char] = encode [ascii] := by
    rw [encode_cons, encode_cons, alone]
  exact apart (List.cons.inj (encode_injective one)).1

/-- The encoding of a character other than an ASCII one does not begin with the byte of that. -/
theorem head_encode_ne {ascii : Char} (apart : char ≠ ascii) (small : ascii.toNat < 0x80)
    (rest : List Char) : (encode (char :: rest)).head? ≠ some (UInt8.ofNat ascii.toNat) := by
  obtain ⟨first, more, spelled, -⟩ := utf8EncodeChar_eq char
  have absent := not_mem_utf8EncodeChar apart small
  rw [spelled] at absent
  rw [encode_cons, spelled, List.cons_append, List.head?_cons]
  rintro ⟨⟩
  exact absent (List.mem_cons_self ..)

/-- A path ends at the same place in bytes. -/
theorem templatePath_encode (after : List Char) :
    templatePath (encode after) = (Common.templatePath after).map encode := by
  cases after with
  | nil => rfl
  | cons dot after =>
      by_cases isDot : dot = '.'
      · subst isDot
        have spelledDot : String.utf8EncodeChar '.' = [0x2e] := rfl
        cases after with
        | nil => rfl
        | cons first rest =>
            obtain ⟨byte, more, spelled, start, -⟩ := sameAscii_pathStartByte.encoded first
            have path : (byte :: (more ++ encode rest)).takeWhile isTemplatePathByte =
                encode ((first :: rest).takeWhile Common.isTemplatePathByte) := by
              rw [← sameAscii_pathByte.takeWhile, encode_cons, spelled, List.cons_append]
            rw [encode_cons, encode_cons, spelledDot, spelled, List.singleton_append,
              List.cons_append, templatePath_cons, path, start, Common.templatePath_cons]
            simp only [true_and]
            split_ifs
            · rfl
            · rfl
      · have noDot := head_encode_ne isDot (by decide) after
        rw [templatePath_of_noDot noDot]
        cases after with
        | nil => rw [Common.templatePath_single, Option.map_none]
        | cons first rest =>
            rw [Common.templatePath_cons, if_neg fun both => isDot both.1, Option.map_none]

/-- A character below 0x80 is one byte. -/
theorem encode_ascii_cons (small : char.toNat < 0x80) (chars : List Char) :
    encode (char :: chars) = UInt8.ofNat char.toNat :: encode chars := by
  rw [encode_cons, utf8EncodeChar_ascii small, List.singleton_append]

theorem encode_dollar (chars : List Char) : encode ('$' :: chars) = 0x24 :: encode chars :=
  encode_ascii_cons (by decide) chars

theorem encode_dot (chars : List Char) : encode ('.' :: chars) = 0x2e :: encode chars :=
  encode_ascii_cons (by decide) chars

/-- A round without a path uses up the name. -/
theorem length_encode_name (name after : List Char) :
    (encode ((name ++ after).take name.length)).length = (encode name).length := by
  rw [List.take_left]

/-- A round with a path uses up the name, the dot and the path. -/
theorem length_encode_path (name path more : List Char) :
    (encode ((name ++ '.' :: (path ++ more)).take (name.length + 1 + path.length))).length =
      (encode name).length + 1 + (encode path).length := by
  have length : name.length + 1 + path.length = (name ++ '.' :: path).length := by
    rw [List.length_append, List.length_cons]
    omega
  have whole : name ++ '.' :: (path ++ more) = (name ++ '.' :: path) ++ more := by simp
  rw [length, whole, List.take_left, encode_append, encode_dot, List.length_append,
    List.length_cons]
  omega

/-- A name without a path is written alike. -/
theorem plainWrite_ofJson (name : List Char) (value : Json) :
    plainWrite (encode name) (Value.ofJson value) =
      encodedWrite (match Common.templateValueString value with
        | some text => .value text.toList
        | none => .copy ('$' :: name)) := by
  rw [plainWrite, templateValueString_ofJson]
  cases Common.templateValueString value with
  | some text => rfl
  | none => exact congrArg Write.copy (encode_dollar name).symm

/-- A round on the bytes is the round on the characters. -/
theorem placeholder_encode (vars : Common.Variables) (rest : List Char) :
    placeholder (encodedVars vars) (encode rest) =
      (encodedWrite (Common.placeholder vars rest).1,
        (encode (rest.take (Common.placeholder vars rest).2)).length) := by
  unfold placeholder Common.placeholder
  rw [templateName_encode]
  cases named : Common.templateName vars rest with
  | none => rfl
  | some name =>
      obtain ⟨-, after, rfl⟩ := Common.templateName_spec named
      rw [Option.map_some]
      dsimp only
      rw [lookup_encodedVars, encode_append, List.drop_left, List.drop_left, templatePath_encode,
        sameAscii_identifierByte.head_any, plainWrite_ofJson]
      cases found : Common.templatePath after with
      | some path =>
          obtain ⟨⟨more, rfl⟩, -⟩ := Common.templatePath_spec found
          rw [Option.map_some]
          dsimp only
          rw [templatePathText_ofJson, isTemplatePathCapable, seen_ofJson]
          cases Common.templatePathText ((vars.lookup name).getD .null) path with
          | some text => exact congrArg (Prod.mk _) (length_encode_path ..).symm
          | none =>
              rw [Option.map_none]
              dsimp only
              split_ifs
              · refine Prod.ext ?_ (length_encode_path ..).symm
                show Write.copy _ = Write.copy _
                rw [encode_dollar, encode_append, encode_dot]
              · cases Common.templateValueString ((vars.lookup name).getD .null) with
                | some text => exact congrArg (Prod.mk _) (length_encode_name ..).symm
                | none => exact congrArg (Prod.mk _) (length_encode_name ..).symm
      | none =>
          rw [Option.map_none]
          dsimp only
          cases Common.templateValueString ((vars.lookup name).getD .null) with
          | some text =>
              dsimp only
              split_ifs
              · refine Prod.ext ?_ (length_encode_name ..).symm
                exact congrArg Write.copy (encode_dollar _).symm
              · exact congrArg (Prod.mk _) (length_encode_name ..).symm
          | none =>
              dsimp only
              split_ifs
              · refine Prod.ext ?_ (length_encode_name ..).symm
                exact congrArg Write.copy (encode_dollar _).symm
              · exact congrArg (Prod.mk _) (length_encode_name ..).symm

/-! ### The loop -/

/-- A value is escaped alike. -/
theorem escapeTemplateValue_encode (isPrint : Char → Bool) (text : List Char) :
    escapeTemplateValue isPrint (encode text) = encode (Common.escapeTemplateValue isPrint text) := by
  rw [escapeTemplateValue_eq, Common.escapeTemplateValue_eq, runes_encode]
  induction text with
  | nil => rfl
  | cons char text ih =>
      rw [List.map_cons, List.flatMap_cons, List.flatMap_cons, encode_append, ih]
      rfl

/-- A write comes out alike. -/
theorem written_encodedWrite (isPrint : Char → Bool) (write : Common.Write) :
    (encodedWrite write).written isPrint = encode (write.written isPrint) := by
  cases write with
  | copy text => rfl
  | value text => exact escapeTemplateValue_encode isPrint text

/-- On the bytes of a text, the bytes of what is made of the characters. -/
theorem renderWrites_encode (isPrint : Char → Bool) (vars : Common.Variables)
    (template : List Char) :
    (renderWrites (encodedVars vars) 0 (encode template)).flatMap (Write.written isPrint) =
      encode (Common.renderChars isPrint vars template) := by
  rw [Common.renderChars]
  induction length : template.length using Nat.strong_induction_on generalizing template with
  | _ length ih =>
    cases template with
    | nil => rfl
    | cons char rest =>
        rw [List.length_cons] at length
        by_cases isDollar : char = '$'
        · subst isDollar
          obtain ⟨taken, more, rfl, used, -⟩ := Common.placeholder_spec vars rest
          have round := placeholder_encode vars (taken ++ more)
          rw [used, List.take_left, encode_append] at round
          rw [List.length_append] at length
          rw [encode_dollar, encode_append, Common.renderWrites_dollar used]
          have step := renderWrites_dollar (congrArg Prod.snd round)
          rw [round] at step
          rw [step, List.flatMap_cons, List.flatMap_cons, encode_append, written_encodedWrite,
            ih more.length (by omega) more rfl]
        · have noDollar : 0x24 ∉ String.utf8EncodeChar char :=
            not_mem_utf8EncodeChar isDollar (by decide)
          have copied : ((String.utf8EncodeChar char).map fun byte => Write.copy [byte]).flatMap
              (Write.written isPrint) = String.utf8EncodeChar char := by
            rw [List.flatMap_map]
            exact List.flatMap_singleton' _
          rw [encode_cons, renderWrites_copies noDollar, List.flatMap_append, copied,
            Common.renderWrites_copy isDollar, List.flatMap_cons, encode_append,
            ih rest.length (by omega) rest rfl]
          simp [Common.Write.written]

/-- `RenderTemplate` on the bytes of texts is `RenderTemplate` on their characters. -/
theorem renderTemplate_encode (isPrint : Char → Bool) (template : String)
    (vars : Common.Variables) :
    renderTemplate isPrint (encode template.toList) (encodedVars vars) =
      encode (Common.renderTemplate isPrint template vars).toList := by
  rw [renderTemplate, renderWrites_encode, Common.renderTemplate, String.toList_ofList]

end MessagePusher.Template.Bytewise
