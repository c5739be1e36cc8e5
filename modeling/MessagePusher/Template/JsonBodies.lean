import MessagePusher.Common.Variables

/-!
# Request bodies that are JSON

A template that is a JSON text and has its placeholders inside of string literals. What is
put there is escaped by `%q`, whose escapes are only in part those of JSON.
-/

namespace MessagePusher.Template

open Common JsonText

/-! ### `%q` and JSON -/

/-- The characters that `%q` writes in a way JSON has as well: what is printable, the controls
with a short escape in both, and what `%q` writes with four digits. -/
def QuotedAsJson (isPrint : Char → Bool) (char : Char) : Prop :=
  isPrintable isPrint char = true ∨ char.toNat ∈ [0x08, 0x09, 0x0a, 0x0c, 0x0d] ∨
    (0x80 ≤ char.toNat ∧ char.toNat < 0x10000)

variable {isPrint : Char → Bool}

/-- A digit stands for itself in a literal. -/
theorem isPlain_hexDigit (value : Nat) : isPlain (hexDigit (value % 16)) := by
  refine isPlain_of_hexValue ?_
  rw [hexValue_hexDigit _ (Nat.mod_lt _ (by omega))]
  rfl

/-- A character is written as a literal of itself, or with an escape that JSON does not have. -/
def WrittenAs (isPrint : Char → Bool) (char : Char) (written : List Char) : Prop :=
  (QuotedAsJson isPrint char ∧ Spells written (.char char)) ∨
    (¬ QuotedAsJson isPrint char ∧ ∃ letter ∈ ['a', 'v', 'x', 'U'], ∃ digits,
      written = '\\' :: letter :: digits ∧ ∀ digit ∈ digits, isPlain digit)

/-- A printable character that needs no escape stands for itself. -/
theorem writtenAs_printable {char : Char} (quote : ¬ (char = '"' ∨ char = '\\'))
    (printable : isPrintable isPrint char) : WrittenAs isPrint char [char] := by
  left
  rw [not_or] at quote
  refine ⟨.inl printable, .plain ?_⟩
  have visible : 0x20 ≤ char.toNat := by
    unfold isPrintable at printable
    split_ifs at printable with ascii
    · simp only [Bool.and_eq_true, decide_eq_true_eq] at printable
      exact printable.1
    · omega
  simp [isPlain, quote, visible]

/-- Of the escapes of one letter, JSON has all but two. -/
theorem writtenAs_letter {char letter : Char} (hidden : ¬ isPrintable isPrint char)
    (found : letterEscapes.lookup char.toNat = some letter) :
    WrittenAs isPrint char ['\\', letter] := by
  have listed : (char.toNat, letter) ∈ letterEscapes := by
    obtain ⟨before, after, split, -⟩ := List.lookup_eq_some_iff.mp found
    rw [split]
    simp
  have entries : ∀ entry ∈ letterEscapes,
      (entry.1 ∈ [0x08, 0x09, 0x0a, 0x0c, 0x0d] ∧
          shortEscape entry.2 = some (Char.ofNat entry.1)) ∨
        (entry.1 ∉ [0x08, 0x09, 0x0a, 0x0c, 0x0d] ∧ entry.1 < 0x80 ∧
          entry.2 ∈ ['a', 'v', 'x', 'U']) := by decide
  rcases entries _ listed with ⟨control, escape⟩ | ⟨noControl, ascii, noJson⟩
  · left
    rw [Char.ofNat_toNat] at escape
    exact ⟨.inr (.inl control), .short escape⟩
  · right
    refine ⟨?_, letter, noJson, [], rfl, by simp⟩
    rintro (shown | control | ⟨high, -⟩)
    · exact hidden shown
    · exact noControl control
    · exact absurd ascii (Nat.not_lt.mpr high)

/-- Of the escapes by code, JSON has the one of four digits. -/
theorem writtenAs_code {char : Char} (hidden : ¬ isPrintable isPrint char)
    (absent : letterEscapes.lookup char.toNat = none) :
    WrittenAs isPrint char
      (if char.toNat < 0x20 ∨ char.toNat = 0x7f then '\\' :: 'x' :: quoteDigits 2 char.toNat
        else if char.toNat < 0x10000 then '\\' :: 'u' :: hexFour char.toNat
        else '\\' :: 'U' :: quoteDigits 8 char.toNat) := by
  have digitsPlain : ∀ count value, ∀ digit ∈ quoteDigits count value, isPlain digit := by
    intro count value digit member
    obtain ⟨place, -, rfl⟩ := List.mem_map.mp member
    exact isPlain_hexDigit _
  have noLetter : char.toNat ∉ [0x08, 0x09, 0x0a, 0x0c, 0x0d] := by
    intro control
    have listed : ∀ code ∈ [0x08, 0x09, 0x0a, 0x0c, 0x0d],
        (letterEscapes.lookup code).isSome := by decide
    have some_ := listed _ control
    rw [absent] at some_
    cases some_
  split_ifs with control short
  · right
    refine ⟨?_, 'x', by simp, _, rfl, digitsPlain 2 _⟩
    rintro (shown | letter | ⟨high, -⟩)
    · exact hidden shown
    · exact noLetter letter
    · omega
  · left
    refine ⟨.inr (.inr ⟨?_, short⟩), ?_⟩
    · by_contra low
      have shown : isPrintable isPrint char = true := by
        rw [isPrintable, if_pos (by omega)]
        simp
        omega
      exact hidden shown
    · have spelled := @Spells.unicode _ _ _ _ _ (hexCode_hexFour short)
      rw [Piece.ofCode_toNat] at spelled
      exact spelled
  · right
    refine ⟨?_, 'U', by simp, _, rfl, digitsPlain 8 _⟩
    rintro (shown | letter | ⟨-, small⟩)
    · exact hidden shown
    · exact noLetter letter
    · exact short small

/-- A character is written in one of the ways that `%q` knows. -/
theorem appendEscapedRune_cases (isPrint : Char → Bool) (char : Char) :
    WrittenAs isPrint char (appendEscapedRune isPrint char) := by
  rw [appendEscapedRune]
  by_cases quote : char = '"' ∨ char = '\\'
  · rw [if_pos quote]
    rcases quote with rfl | rfl
    · exact .inl ⟨.inl rfl, .short rfl⟩
    · exact .inl ⟨.inl rfl, .short rfl⟩
  rw [if_neg quote]
  by_cases printable : isPrintable isPrint char
  · rw [if_pos printable]
    exact writtenAs_printable quote printable
  rw [if_neg printable]
  cases found : letterEscapes.lookup char.toNat with
  | some letter => exact writtenAs_letter printable found
  | none => exact writtenAs_code printable found

/-- What is written for a text is a literal of the text, or no content of a literal at all. -/
theorem pieces?_escapeTemplateValue (text : List Char) :
    ((∀ char ∈ text, QuotedAsJson isPrint char) →
      pieces? (escapeTemplateValue isPrint text) = some (text.map .char)) ∧
    ((∃ char ∈ text, ¬ QuotedAsJson isPrint char) →
      ∀ rest, pieces? (escapeTemplateValue isPrint text ++ rest) = none) := by
  rw [escapeTemplateValue_eq]
  induction text with
  | nil => exact ⟨fun _ => rfl, fun ⟨_, member, _⟩ => by cases member⟩
  | cons char text ih =>
      rw [List.forall_mem_cons, List.exists_mem_cons_iff, List.flatMap_cons]
      rcases appendEscapedRune_cases isPrint char with ⟨quoted, spells⟩ |
        ⟨unquoted, letter, noJson, digits, form, -⟩
      · constructor
        · rintro ⟨-, others⟩
          rw [spells.pieces?, ih.1 others]
          rfl
        · rintro (here | others) rest
          · exact absurd quoted here
          · rw [List.append_assoc, spells.pieces?, ih.2 others]
            rfl
      · refine ⟨fun both => absurd both.1 unquoted, fun _ rest => ?_⟩
        rw [form]
        simp only [List.mem_cons, List.not_mem_nil, or_false] at noJson
        rcases noJson with rfl | rfl | rfl | rfl <;> rfl

/-- Whatever is written for a text, it does not end the literal. -/
theorem enclosed_escapeTemplateValue (text : List Char) :
    Enclosed (escapeTemplateValue isPrint text) := by
  rw [escapeTemplateValue_eq]
  induction text with
  | nil => exact .nil
  | cons char text ih =>
      rw [List.flatMap_cons]
      rcases appendEscapedRune_cases isPrint char with ⟨-, spells⟩ |
        ⟨-, letter, -, digits, form, plain⟩
      · exact ih.spelled spells
      · have digitsEnclosed : Enclosed (digits ++ text.flatMap (appendEscapedRune isPrint)) := by
          clear form
          induction digits with
          | nil => exact ih
          | cons digit digits ih =>
              rw [List.forall_mem_cons] at plain
              exact (ih plain.2).spelled (.plain plain.1)
        rw [form]
        exact .escape digitsEnclosed

/-! ### The parts of a literal -/

/-- The writes with neighbouring copies put together. -/
def mergeCopies : List Write → List Write
  | [] => []
  | .copy left :: rest =>
      match mergeCopies rest with
      | .copy right :: others => .copy (left ++ right) :: others
      | others => .copy left :: others
  | .value text :: rest => .value text :: mergeCopies rest

/-- What a literal of the template is put together from: copied parts of it and the texts of
the values. -/
def literalParts (vars : Variables) (raw : List Char) : List Write :=
  mergeCopies (renderWrites vars 0 raw)

/-- A copied part as JSON reads it, and the text of a value for its placeholder. -/
def reading : Write → List Char
  | .copy raw => unescape raw
  | .value text => text

/-- The text of a literal of the template, with every replaced placeholder standing for the text
of its value. -/
def leafText (vars : Variables) (raw : List Char) : List Char :=
  (literalParts vars raw).flatMap reading

/-- The pieces of a copied part, and those of the text of a value. -/
def partPieces : Write → List Piece
  | .copy raw => (pieces? raw).getD []
  | .value text => text.map .char

/-- The condition on a literal: the values that go into it have only characters that `%q` writes
as JSON does, and no empty value stands between the escapes of a surrogate pair. -/
def LiteralHolds (isPrint : Char → Bool) (vars : Variables) (raw : List Char) : Prop :=
  (∀ text, .value text ∈ literalParts vars raw → ∀ char ∈ text, QuotedAsJson isPrint char) ∧
    ¬ Joins ((literalParts vars raw).map partPieces)

/-- What is copied from the template is made of pieces. -/
def PartValid : Write → Prop
  | .copy raw => (pieces? raw).isSome
  | .value _ => True

/-- Two copies in a row are one. -/
theorem mergeCopies_copy_copy (left right : List Char) (rest : List Write) :
    mergeCopies (.copy left :: .copy right :: rest) = mergeCopies (.copy (left ++ right) :: rest) := by
  simp only [mergeCopies]
  cases mergeCopies rest with
  | nil => rfl
  | cons first others => cases first <;> simp

/-- What was merged may be merged behind anything. -/
theorem mergeCopies_congr (write : Write) {left right : List Write}
    (same : mergeCopies left = mergeCopies right) :
    mergeCopies (write :: left) = mergeCopies (write :: right) := by
  cases write <;> simp only [mergeCopies, same]

/-- Characters that are copied one by one are copied as a whole. -/
theorem mergeCopies_chars (first : Char) (more : List Char) (rest : List Write) :
    mergeCopies ((first :: more).map (fun char => .copy [char]) ++ rest) =
      mergeCopies (.copy (first :: more) :: rest) := by
  induction more generalizing first with
  | nil => rfl
  | cons next more ih =>
      rw [List.map_cons, List.cons_append, mergeCopies_congr _ (ih next), mergeCopies_copy_copy]
      rfl

/-- Merging keeps what is written. -/
theorem flatMap_written_mergeCopies (writes : List Write) :
    (mergeCopies writes).flatMap (Write.written isPrint) =
      writes.flatMap (Write.written isPrint) := by
  induction writes with
  | nil => rfl
  | cons write writes ih =>
      cases write with
      | value text => rw [mergeCopies, List.flatMap_cons, List.flatMap_cons, ih]
      | copy left =>
          rw [List.flatMap_cons, ← ih, mergeCopies]
          cases mergeCopies writes with
          | nil => rfl
          | cons first others => cases first <;> simp [Write.written]

/-- A valid copy in front leaves the parts valid. -/
theorem partValid_mergeCopies_copy {left : List Char} {rest : List Write}
    (valid : (pieces? left).isSome) (others : ∀ part ∈ mergeCopies rest, PartValid part) :
    ∀ part ∈ mergeCopies (.copy left :: rest), PartValid part := by
  rw [mergeCopies]
  cases merged : mergeCopies rest with
  | nil =>
      intro part member
      obtain rfl := List.mem_singleton.mp member
      exact valid
  | cons first more =>
      rw [merged, List.forall_mem_cons] at others
      cases first with
      | value text => exact List.forall_mem_cons.mpr ⟨valid, List.forall_mem_cons.mpr others⟩
      | copy right =>
          refine List.forall_mem_cons.mpr ⟨?_, others.2⟩
          obtain ⟨pieces, read⟩ := Option.isSome_iff_exists.mp valid
          have both := pieces?_append read right
          rw [PartValid, both, Option.isSome_map]
          exact others.1

section

variable {vars : Variables}

/-- The names of variables are identifiers. -/
def Identifiers (vars : Variables) : Prop :=
  ∀ name ∈ vars.map Prod.fst, ∀ char ∈ name.toList, isTemplateIdentifierByte char

/-- The bytes of a path stand for themselves in a literal. -/
theorem isPlain_of_pathByte {char : Char} (byte : isTemplatePathByte char) : isPlain char := by
  have quote : char ≠ '"' := by
    rintro rfl
    exact absurd byte (by decide)
  have slash : char ≠ '\\' := by
    rintro rfl
    exact absurd byte (by decide)
  have visible : 0x20 ≤ char.toNat := by
    have above : ∀ {bound : Char}, bound ≤ char → bound.toNat ≤ char.toNat :=
      fun reach => UInt32.le_iff_toNat_le.mp reach
    simp only [isTemplatePathByte, Bool.or_eq_true, Bool.and_eq_true, decide_eq_true_eq] at byte
    rcases byte with ((((⟨low, -⟩ | ⟨low, -⟩) | ⟨low, -⟩) | rfl) | rfl) | rfl
    · exact Nat.le_trans (by decide) (above low)
    · exact Nat.le_trans (by decide) (above low)
    · exact Nat.le_trans (by decide) (above low)
    · decide
    · decide
    · decide
  simp [isPlain, quote, slash, visible]

/-- A placeholder is made of plain characters. -/
theorem Identifiers.placeholder_plain (identifiers : Identifiers vars) (rest : List Char) :
    ∃ taken more, rest = taken ++ more ∧ (placeholder vars rest).2 = taken.length ∧
      ((placeholder vars rest).1 = .copy ('$' :: taken) ∨
        ∃ text, (placeholder vars rest).1 = .value text) ∧ ∀ char ∈ taken, isPlain char := by
  obtain ⟨taken, more, split, used, write, bytes⟩ := placeholder_spec vars rest
  refine ⟨taken, more, split, used, write, fun char member => ?_⟩
  rcases bytes char member with byte | ⟨name, listed, inName⟩
  · exact isPlain_of_pathByte byte
  · exact isPlain_of_pathByte (isTemplatePathByte_of_identifier (identifiers name listed char inName))

/-- Plain characters in front are pieces of their own. -/
theorem content_of_plain {taken more : List Char} {pieces : List Piece}
    (plain : ∀ char ∈ taken, isPlain char) (content : Content (taken ++ more) pieces) :
    ∃ left right, pieces = left ++ right ∧ Content taken left ∧ Content more right := by
  induction taken generalizing pieces with
  | nil => exact ⟨[], pieces, rfl, .nil, content⟩
  | cons char taken ih =>
      rw [List.forall_mem_cons] at plain
      have read := pieces?_eq_some_iff.mpr content
      rw [List.cons_append, pieces?_plain plain.1] at read
      obtain ⟨others, found, rfl⟩ := Option.map_eq_some_iff.mp read
      obtain ⟨left, right, rfl, first, second⟩ := ih plain.2 (pieces?_eq_some_iff.mp found)
      exact ⟨.char char :: left, right, rfl, .cons (.plain plain.1) first, second⟩

/-- No escape has a `$` in it. -/
theorem dollar_of_spells {unit : List Char} {piece : Piece} (spells : Spells unit piece)
    (dollar : '$' ∈ unit) : unit = ['$'] := by
  cases spells with
  | plain => rw [List.mem_singleton.mp dollar]
  | short escape =>
      simp only [List.mem_cons, List.not_mem_nil, or_false] at dollar
      rcases dollar with slash | rfl
      · exact absurd slash (by decide)
      · cases escape
  | unicode read =>
      have digits := isSome_of_hexCode read
      rcases List.mem_cons.mp dollar with slash | dollar
      · exact absurd slash (by decide)
      · rcases List.mem_cons.mp dollar with letter | dollar
        · exact absurd letter (by decide)
        · exact absurd (digits _ dollar) (by decide)

/-- Without a `$` everything is copied. -/
theorem renderWrites_unit {unit : List Char} (noDollar : '$' ∉ unit) (rest : List Char) :
    renderWrites vars 0 (unit ++ rest) =
      unit.map (fun char => .copy [char]) ++ renderWrites vars 0 rest := by
  induction unit with
  | nil => rfl
  | cons char unit ih =>
      rw [List.mem_cons, not_or] at noDollar
      rw [List.cons_append, renderWrites_copy (Ne.symm noDollar.1), ih noDollar.2, List.map_cons,
        List.cons_append]

/-- The copied parts of a literal are literals. -/
theorem partValid_literalParts (identifiers : Identifiers vars) {raw : List Char}
    {pieces : List Piece} (content : Content raw pieces) :
    ∀ part ∈ literalParts vars raw, PartValid part := by
  induction length : raw.length using Nat.strong_induction_on generalizing raw pieces with
  | _ length ih =>
    cases content with
    | nil => exact fun part member => by cases member
    | @cons unit piece rest others spells content =>
        have shorter : rest.length < (unit ++ rest).length := by
          have nonempty : 0 < unit.length := by cases spells <;> simp
          rw [List.length_append]
          omega
        by_cases dollar : '$' ∈ unit
        · obtain rfl := dollar_of_spells spells dollar
          obtain ⟨taken, more, rfl, used, write, plain⟩ := identifiers.placeholder_plain rest
          obtain ⟨left, right, rfl, first, second⟩ := content_of_plain plain content
          have remains : more.length < (['$'] ++ (taken ++ more)).length := by
            simp only [List.length_append, List.length_cons]
            omega
          have later := ih more.length (length ▸ remains) second rfl
          rw [literalParts, List.singleton_append, renderWrites_dollar used]
          rcases write with copied | ⟨text, replaced⟩
          · rw [copied]
            refine partValid_mergeCopies_copy ?_ later
            have read : pieces? ('$' :: taken) = some (piece :: left) :=
              pieces?_eq_some_iff.mpr (.cons spells first)
            rw [read]
            rfl
          · rw [replaced, mergeCopies]
            exact List.forall_mem_cons.mpr ⟨trivial, later⟩
        · have later := ih rest.length (by rw [← length]; exact shorter) content rfl
          rw [literalParts, renderWrites_unit dollar]
          obtain ⟨char, more, rfl⟩ : ∃ char more, unit = char :: more := by
            cases spells <;> exact ⟨_, _, rfl⟩
          rw [mergeCopies_chars]
          refine partValid_mergeCopies_copy ?_ later
          have alone := spells.pieces? []
          rw [List.append_nil] at alone
          rw [alone]
          rfl

/-! ### What is written into a literal -/

/-- A part is written as its pieces, if its value has only escapes of JSON. -/
theorem pieces?_written {part : Write} (valid : PartValid part)
    (quoted : ∀ text, part = .value text → ∀ char ∈ text, QuotedAsJson isPrint char) :
    pieces? (part.written isPrint) = some (partPieces part) := by
  cases part with
  | copy raw =>
      obtain ⟨pieces, read⟩ := Option.isSome_iff_exists.mp valid
      rw [Write.written, partPieces, read]
      rfl
  | value text => exact (pieces?_escapeTemplateValue text).1 (quoted text rfl)

/-- The parts in a row are written as their pieces. -/
theorem pieces?_parts {parts : List Write} (valid : ∀ part ∈ parts, PartValid part)
    (quoted : ∀ text, .value text ∈ parts → ∀ char ∈ text, QuotedAsJson isPrint char) :
    pieces? (parts.flatMap (Write.written isPrint)) = some (parts.map partPieces).flatten := by
  induction parts with
  | nil => rfl
  | cons part parts ih =>
      rw [List.forall_mem_cons] at valid
      have here := pieces?_written valid.1 fun text same =>
        quoted text (by rw [same]; exact List.mem_cons_self)
      have later := ih valid.2 fun text member => quoted text (List.mem_cons_of_mem _ member)
      rw [List.flatMap_cons, pieces?_append here, later]
      rfl

/-- A value with an escape that JSON does not have spoils the literal. -/
theorem pieces?_parts_unquoted {parts : List Write} (valid : ∀ part ∈ parts, PartValid part)
    {text : List Char} (member : .value text ∈ parts)
    (unquoted : ∃ char ∈ text, ¬ QuotedAsJson isPrint char) :
    pieces? (parts.flatMap (Write.written isPrint)) = none := by
  induction parts with
  | nil => cases member
  | cons part parts ih =>
      rw [List.forall_mem_cons] at valid
      rw [List.flatMap_cons]
      by_cases quoted : ∀ text, part = .value text → ∀ char ∈ text, QuotedAsJson isPrint char
      · rcases List.mem_cons.mp member with same | member
        · obtain ⟨char, inText, unquoted⟩ := unquoted
          exact absurd (quoted text same.symm char inText) unquoted
        · rw [pieces?_append (pieces?_written valid.1 quoted), ih valid.2 member]
          rfl
      · push Not at quoted
        obtain ⟨other, rfl, inOther⟩ := quoted
        exact (pieces?_escapeTemplateValue other).2 inOther _

/-- Whatever the values, no quote of theirs ends the literal. -/
theorem enclosed_parts {parts : List Write} (valid : ∀ part ∈ parts, PartValid part) :
    Enclosed (parts.flatMap (Write.written isPrint)) := by
  induction parts with
  | nil => exact .nil
  | cons part parts ih =>
      rw [List.forall_mem_cons] at valid
      rw [List.flatMap_cons]
      refine Enclosed.append ?_ (ih valid.2)
      cases part with
      | copy raw =>
          obtain ⟨pieces, read⟩ := Option.isSome_iff_exists.mp valid.1
          exact enclosed_of_pieces? read
      | value text => exact enclosed_escapeTemplateValue text

/-- A part is read as its pieces joined. -/
theorem reading_eq (part : Write) : reading part = joinPieces (partPieces part) := by
  cases part with
  | copy raw => rfl
  | value text => simpa [reading, partPieces] using (joinPieces_map_char text []).symm

/-- A leaf is read as its parts in a row. -/
theorem leafText_eq (raw : List Char) :
    leafText vars raw = ((literalParts vars raw).map partPieces).flatMap joinPieces := by
  rw [leafText, List.flatMap_map]
  exact List.flatMap_congr fun part _ => reading_eq part

/-- `RenderTemplate` on the content of a literal. -/
theorem renderChars_eq (raw : List Char) :
    renderChars isPrint vars raw = (literalParts vars raw).flatMap (Write.written isPrint) :=
  (flatMap_written_mergeCopies _).symm

/-- A literal with its placeholders replaced is a literal of the right text just when the
condition on it holds. -/
theorem literalHolds_iff (identifiers : Identifiers vars) {raw : List Char} {pieces : List Piece}
    (content : Content raw pieces) :
    LiteralHolds isPrint vars raw ↔
      (pieces? (renderChars isPrint vars raw)).isSome ∧
        unescape (renderChars isPrint vars raw) = leafText vars raw := by
  have valid := partValid_literalParts identifiers content
  by_cases quoted : ∀ text, .value text ∈ literalParts vars raw →
      ∀ char ∈ text, QuotedAsJson isPrint char
  · have read := pieces?_parts valid quoted
    rw [LiteralHolds, ← joinPieces_flatten_iff, leafText_eq, unescape, renderChars_eq, read]
    simp only [Option.getD_some, Option.isSome_some, true_and]
    exact and_iff_right quoted
  · refine iff_of_false (fun holds => quoted holds.1) ?_
    push Not at quoted
    obtain ⟨text, member, unquoted⟩ := quoted
    rw [renderChars_eq, pieces?_parts_unquoted valid member unquoted]
    rintro ⟨⟨⟩, -⟩

/-- A literal of one part only asks for the characters of its value. -/
theorem literalHolds_of_single {raw : List Char} {part : Write}
    (single : literalParts vars raw = [part])
    (quoted : ∀ text, part = .value text → ∀ char ∈ text, QuotedAsJson isPrint char) :
    LiteralHolds isPrint vars raw := by
  rw [LiteralHolds, single]
  constructor
  · intro text member
    exact quoted text (List.mem_singleton.mp member).symm
  · rintro ⟨before, left, gaps, right, after, split, -⟩
    have lengths := congrArg List.length split
    simp only [List.map_cons, List.map_nil, List.length_append, List.length_cons,
      List.length_nil] at lengths
    omega

/-! ### The whole template -/

/-- No name goes on behind a quote. -/
theorem boundary_quote (identifiers : Identifiers vars) (rest : List Char) :
    Boundary vars ('"' :: rest) := by
  rintro char ⟨⟩
  refine ⟨rfl, fun name listed inName => ?_⟩
  exact absurd (identifiers name listed '"' inName) (by decide)

/-- No token outside of a literal has a `$` in it. -/
theorem dollar_stuck {mode : Mode} (outside : mode.Outside) : (mode.step '$').2 = none := by
  cases mode with
  | idle => rfl
  | number phase read => cases phase <;> rfl
  | word token left =>
      have letters := outside.2
      have apart : ∀ letter ∈ left, '$' ≠ letter := by
        rintro letter member rfl
        exact absurd (letters _ member) (by decide)
      match left with
      | [] => rfl
      | [last] => simp [Mode.step, apart last]
      | first :: second :: rest => simp [Mode.step, apart first]
  | string | escape => exact outside.elim

/-- A character other than `$` is copied. -/
theorem renderChars_cons {char : Char} (noDollar : char ≠ '$') (rest : List Char) :
    renderChars isPrint vars (char :: rest) = char :: renderChars isPrint vars rest := by
  rw [renderChars, renderWrites_copy noDollar]
  rfl

/-- Behind a boundary the rendering starts anew. -/
theorem renderChars_append {text after : List Char} (boundary : Boundary vars after) :
    renderChars isPrint vars (text ++ after) =
      renderChars isPrint vars text ++ renderChars isPrint vars after := by
  rw [renderChars, renderWrites_append boundary, List.flatMap_append]
  rfl

/-- `RenderTemplate` changes a JSON text inside of its literals only. -/
theorem rewritten_renderChars (identifiers : Identifiers vars) {mode : Mode}
    (outside : mode.Outside) {template : List Char} (noBad : .bad ∉ lexFrom mode template)
    (literals : ∀ raw, .string raw ∈ lexFrom mode template → (pieces? raw).isSome) :
    Rewritten (renderChars isPrint vars) template (renderChars isPrint vars template) := by
  induction length : template.length using Nat.strong_induction_on generalizing mode template with
  | _ length ih =>
    cases template with
    | nil => exact .nil
    | cons char rest =>
        have goesOn := (outside.step char).2
        rcases step : mode.step char with ⟨tokens, _ | next⟩
        · rw [lexFrom_stuck step] at noBad
          exact absurd (List.mem_append_right _ (List.mem_singleton_self _)) noBad
        · rw [lexFrom_cons step, List.mem_append, not_or] at noBad
          rw [lexFrom_cons step] at literals
          have reaches := goesOn next (by rw [step])
          by_cases quote : char = '"'
          · subst quote
            rw [if_pos rfl] at reaches
            subst reaches
            rcases enclosed_or_bad rest with ⟨raw, tail, rfl, enclosed⟩ | stuck
            · have tokensOf := enclosed.lexFrom [] tail
              rw [List.nil_append] at tokensOf
              rw [tokensOf] at noBad literals
              have readable : (pieces? raw).isSome := literals raw (by simp)
              obtain ⟨pieces, read⟩ := Option.isSome_iff_exists.mp readable
              have valid := partValid_literalParts identifiers (pieces?_eq_some_iff.mp read)
              have written : Enclosed (renderChars isPrint vars raw) := by
                rw [renderChars_eq]
                exact enclosed_parts valid
              rw [renderChars_cons (by decide), renderChars_append (boundary_quote identifiers tail),
                renderChars_cons (by decide)]
              refine .literal enclosed written (@ih tail.length ?_ .idle trivial tail ?_ ?_ rfl)
              · rw [← length]
                simp
                omega
              · exact fun bad => noBad.2 (List.mem_cons_of_mem _ bad)
              · exact fun raw member =>
                  literals raw (List.mem_append_right _ (List.mem_cons_of_mem _ member))
            · rw [stuck] at noBad
              exact absurd (List.mem_singleton_self _) noBad.2
          · rw [if_neg quote] at reaches
            have noDollar : char ≠ '$' := by
              rintro rfl
              have none := dollar_stuck outside
              rw [step] at none
              cases none
            rw [renderChars_cons noDollar]
            refine .outside quote (ih rest.length (by rw [← length]; simp) reaches noBad.2 ?_ rfl)
            exact fun raw member => literals raw (List.mem_append_right _ member)

/-- The body decodes to the tree of the template, every string with its placeholders replaced
by the texts of the values, just when every literal meets the condition. -/
theorem body_decodes_iff (isPrint : Char → Bool) (limit : Nat) (template : String) (tree : Json)
    (identifiers : Identifiers vars) (valid : syntaxTree limit template = some tree) :
    decode limit (renderTemplate isPrint template vars) =
        some (mapStrings (overChars (leafText vars)) tree) ↔
      ∀ raw ∈ strings tree, LiteralHolds isPrint vars raw.toList := by
  obtain ⟨parsed, literals⟩ := checked_eq_some_iff.mp valid
  have noBad := not_bad_of_parseTree parsed
  have readable : ∀ raw, .string raw ∈ lex template.toList → (pieces? raw).isSome := by
    intro raw member
    have listed : String.ofList raw ∈ strings tree := by
      rw [strings_of_parseTree parsed]
      exact List.mem_flatMap.mpr ⟨_, member, List.mem_singleton_self _⟩
    simpa using literals _ listed
  have idle : Mode.Outside .idle := trivial
  have rewritten : Rewritten (renderChars isPrint vars) template.toList
      (renderChars isPrint vars template.toList) :=
    rewritten_renderChars identifiers idle noBad readable
  have reparsed : parseTree limit (lex (renderTemplate isPrint template vars).toList) =
      some (mapStrings (overChars (renderChars isPrint vars)) tree) := by
    rw [renderTemplate, String.toList_ofList, lex, rewritten.lexFrom idle, parseTree_map]
    exact congrArg (Option.map _) parsed
  have each : ∀ raw ∈ strings tree, (LiteralHolds isPrint vars raw.toList ↔
      (pieces? (renderChars isPrint vars raw.toList)).isSome ∧
        unescape (renderChars isPrint vars raw.toList) = leafText vars raw.toList) := by
    intro raw listed
    obtain ⟨pieces, read⟩ := Option.isSome_iff_exists.mp (literals raw listed)
    exact literalHolds_iff identifiers (pieces?_eq_some_iff.mp read)
  have validIff : LiteralsValid (mapStrings (overChars (renderChars isPrint vars)) tree) ↔
      ∀ raw ∈ strings tree, (pieces? (renderChars isPrint vars raw.toList)).isSome := by
    rw [LiteralsValid, strings_mapStrings, List.forall_mem_map]
    simp only [overChars_toList]
  have textIff : unescapeTree (mapStrings (overChars (renderChars isPrint vars)) tree) =
        mapStrings (overChars (leafText vars)) tree ↔
      ∀ raw ∈ strings tree,
        unescape (renderChars isPrint vars raw.toList) = leafText vars raw.toList := by
    rw [unescapeTree, mapStrings_mapStrings, mapStrings_eq_iff]
    refine forall_congr' fun raw => imp_congr_right fun _ => ?_
    rw [Function.comp_apply, overChars, overChars_toList, overChars, String.ofList_inj]
  rw [decode, Option.map_eq_some_iff]
  constructor
  · rintro ⟨found, isTree, same⟩ raw listed
    obtain ⟨found_, checks⟩ := checked_eq_some_iff.mp isTree
    obtain rfl := Option.some.inj (reparsed.symm.trans found_)
    exact (each raw listed).mpr ⟨validIff.mp checks raw listed, textIff.mp same raw listed⟩
  · intro holds
    refine ⟨_, checked_eq_some_iff.mpr ⟨reparsed, validIff.mpr fun raw listed => ?_⟩,
      textIff.mpr fun raw listed => ?_⟩
    · exact ((each raw listed).mp (holds raw listed)).1
    · exact ((each raw listed).mp (holds raw listed)).2

end

/-! ### A line break and a bell -/

/-- An object with the content as its text. -/
def contentTree : Json := .object [("text", .string "$content")]

/-- The template of that object. -/
def contentTemplate : String := String.ofList (text contentTree)

/-- The one variable of that template. -/
def contentIs (text : String) : Variables := [("content", .string text)]

theorem contentTemplate_valid : syntaxTree 1 contentTemplate = some contentTree :=
  syntaxTree_text (by decide) (by decide) (by decide)

theorem contentIs_identifiers (text : String) : Identifiers (contentIs text) := by
  intro name listed
  obtain rfl := List.mem_singleton.mp listed
  have all : "content".toList.all isTemplateIdentifierByte = true := by decide
  exact List.all_eq_true.mp all

/-- A value with a line break and quotes decodes to the tree with the value. -/
theorem line_break_decodes :
    decode 1 (renderTemplate (fun _ => true) contentTemplate (contentIs "a\n\"b\"")) =
      some (mapStrings (overChars (leafText (contentIs "a\n\"b\""))) contentTree) := by
  refine (body_decodes_iff _ 1 _ _ (contentIs_identifiers _) contentTemplate_valid).mpr ?_
  have key : literalParts (contentIs "a\n\"b\"") "text".toList = [.copy "text".toList] := by
    decide +kernel
  have leaf : literalParts (contentIs "a\n\"b\"") "$content".toList =
      [.value "a\n\"b\"".toList] := by decide +kernel
  intro raw listed
  have either : raw = "text" ∨ raw = "$content" := by
    simpa [contentTree, strings, memberStrings] using listed
  rcases either with rfl | rfl
  · refine literalHolds_of_single key ?_
    rintro text ⟨⟩
  · refine literalHolds_of_single leaf ?_
    rintro text ⟨⟩ char member
    have each : ∀ char ∈ "a\n\"b\"".toList, isPrintable (fun _ => true) char = true ∨
        char.toNat ∈ [0x08, 0x09, 0x0a, 0x0c, 0x0d] := by simp [isPrintable]
    rcases each char member with shown | control
    · exact .inl shown
    · exact .inr (.inl control)

/-- A bell in the content makes the body no JSON. -/
theorem bell_breaks_body :
    ¬ ∀ (isPrint : Char → Bool) (limit : Nat) (template : String) (vars : Variables) (tree : Json),
      Identifiers vars → syntaxTree limit template = some tree →
        decode limit (renderTemplate isPrint template vars) =
          some (mapStrings (overChars (leafText vars)) tree) := by
  intro claimed
  have decoded := claimed (fun _ => true) 1 contentTemplate (contentIs "\x07") contentTree
    (contentIs_identifiers _) contentTemplate_valid
  have broken : (decode 1 (renderTemplate (fun _ => true) contentTemplate
      (contentIs "\x07"))).isNone = true := by decide +kernel
  rw [decoded] at broken
  cases broken

end MessagePusher.Template
