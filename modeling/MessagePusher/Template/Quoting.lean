import Mathlib.Tactic.Ring
import MessagePusher.Common.TemplateBytes

/-!
# Quoted values are read back

`%q` writes each rune of a value in a way that tells where it ends, and which rune it is. So no two
values are written alike.
-/

namespace MessagePusher.Template.Bytewise

open Common.TemplateBytes JsonText Utf8

variable {isPrint : Char → Bool} {rune : Rune} {char : Char} {rest : List Char}

/-! ### Texts made of units -/

/-- Units that are read back one after the other make different texts of different lists. -/
theorem eq_of_flatMap_eq {Unit Symbol : Type} {Proper : Unit → Prop} {write : Unit → List Symbol}
    {read : List Symbol → Option (Unit × List Symbol)} (empty : read [] = none)
    (reads : ∀ unit, Proper unit → ∀ rest, read (write unit ++ rest) = some (unit, rest))
    {units others : List Unit} (proper : ∀ unit ∈ units, Proper unit)
    (properOthers : ∀ unit ∈ others, Proper unit)
    (same : units.flatMap write = others.flatMap write) : units = others := by
  have some_ : ∀ unit, Proper unit → ∀ rest, write unit ++ rest ≠ [] := by
    intro unit isProper rest nothing
    have found := reads unit isProper rest
    rw [nothing, empty] at found
    cases found
  induction units generalizing others with
  | nil =>
      cases others with
      | nil => rfl
      | cons other others => exact absurd same.symm (some_ other (properOthers other (by simp)) _)
  | cons unit units ih =>
      rw [List.forall_mem_cons] at proper
      cases others with
      | nil => exact absurd same (some_ unit proper.1 _)
      | cons other others =>
          rw [List.forall_mem_cons] at properOthers
          rw [List.flatMap_cons, List.flatMap_cons] at same
          have found := reads unit proper.1 (units.flatMap write)
          rw [same, reads other properOthers.1] at found
          obtain ⟨rfl, behind⟩ := Prod.mk.inj (Option.some.inj found)
          rw [ih proper.2 properOthers.2 behind.symm]

/-! ### Digits -/

/-- The number that digits add to. -/
def hexNumber (digits : List Char) : Option Nat :=
  digits.foldlM (fun value digit => (hexValue digit).map fun more => value * 16 + more) 0

theorem foldlM_quoteDigits (count value start : Nat) :
    (Common.quoteDigits count value).foldlM
        (fun value digit => (hexValue digit).map fun more => value * 16 + more) start =
      some (start * 16 ^ count + value % 16 ^ count) := by
  induction count generalizing start with
  | zero => simp [Common.quoteDigits, Nat.mod_one]
  | succ count ih =>
      have first : Common.quoteDigits (count + 1) value =
          hexDigit (value / 16 ^ count % 16) :: Common.quoteDigits count value := by
        rw [Common.quoteDigits, List.range_succ, List.reverse_append, List.map_append]
        rfl
      have digit := hexValue_hexDigit (value / 16 ^ count % 16) (Nat.mod_lt _ (by omega))
      rw [first, List.foldlM_cons, digit, Option.map_some]
      refine (ih _).trans (congrArg some ?_)
      rw [Nat.pow_succ, Nat.mod_mul]
      ring

theorem hexNumber_quoteDigits {count value : Nat} (short : value < 16 ^ count) :
    hexNumber (Common.quoteDigits count value) = some value := by
  rw [hexNumber, foldlM_quoteDigits, Nat.mod_eq_of_lt short, Nat.zero_mul, Nat.zero_add]

theorem hexFour_eq (value : Nat) : hexFour value = Common.quoteDigits 4 value := by
  simp [hexFour, Common.quoteDigits, List.range_succ]

theorem length_quoteDigits (count value : Nat) : (Common.quoteDigits count value).length = count := by
  rw [Common.quoteDigits, List.length_map, List.length_reverse, List.length_range]

/-! ### Runes -/

/-- The characters that `%q` writes for a rune. -/
def quoted (isPrint : Char → Bool) : Rune → List Char
  | .char char => Common.appendEscapedRune isPrint char
  | .stray byte => '\\' :: 'x' :: Common.quoteDigits 2 byte.toNat

theorem escapeTemplateValue_eq_encode (value : Bytes) :
    escapeTemplateValue isPrint value = encode ((runes value).flatMap (quoted isPrint)) := by
  rw [escapeTemplateValue_eq, encode, List.flatMap_assoc]
  refine List.flatMap_congr fun rune _ => ?_
  cases rune with
  | char char => rfl
  | stray byte => rfl

/-- The rune of a code of two digits: a control or a stray byte. -/
def byteRune (code : Nat) : Rune :=
  if code < 0x80 then .char (Char.ofNat code) else .stray (UInt8.ofNat code)

/-- The rune of so many digits, and what follows them. -/
def unquoteDigits (count : Nat) (toRune : Nat → Rune) (digits : List Char) :
    Option (Rune × List Char) :=
  (hexNumber (digits.take count)).map fun code => (toRune code, digits.drop count)

/-- The rune behind a backslash. -/
def unquoteEscape (letter : Char) (rest : List Char) : Option (Rune × List Char) :=
  if letter = 'x' then unquoteDigits 2 byteRune rest
  else if letter = 'u' then unquoteDigits 4 (fun code => .char (Char.ofNat code)) rest
  else if letter = 'U' then unquoteDigits 8 (fun code => .char (Char.ofNat code)) rest
  else if letter = '"' ∨ letter = '\\' then some (.char letter, rest)
  else (Common.letterEscapes.find? fun entry => entry.2 = letter).map fun entry =>
    (.char (Char.ofNat entry.1), rest)

/-- The first rune of a quoted text, and what follows. -/
def unquoteRune : List Char → Option (Rune × List Char)
  | [] => none
  | '\\' :: letter :: rest => unquoteEscape letter rest
  | char :: rest => some (.char char, rest)

theorem unquoteDigits_quoteDigits {count code : Nat} (short : code < 16 ^ count)
    (toRune : Nat → Rune) (rest : List Char) :
    unquoteDigits count toRune (Common.quoteDigits count code ++ rest) = some (toRune code, rest) := by
  have length := length_quoteDigits count code
  rw [unquoteDigits, List.take_left' length, List.drop_left' length, hexNumber_quoteDigits short,
    Option.map_some]

/-- A rune of a text: a character, or a stray byte that is not ASCII. -/
def Proper : Rune → Prop
  | .char _ => True
  | .stray byte => ¬ byte < 0x80

theorem proper_of_mem {text : Bytes} (listed : rune ∈ runes text) : Proper rune := by
  cases rune with
  | char char => trivial
  | stray byte => exact not_ascii_of_stray listed

theorem unquoteRune_plain (noEscape : char ≠ '\\') (rest : List Char) :
    unquoteRune (char :: rest) = some (.char char, rest) := by
  rw [unquoteRune]
  intro letter others escape
  exact absurd escape noEscape

/-- The escapes of one letter differ from each other, and from the escapes by code. -/
theorem unquoteEscape_letter {letter : Char}
    (found : Common.letterEscapes.lookup char.toNat = some letter) (rest : List Char) :
    unquoteEscape letter rest = some (.char char, rest) := by
  have entries : ∀ entry ∈ Common.letterEscapes, ∀ rest,
      unquoteEscape entry.2 rest = some (.char (Char.ofNat entry.1), rest) := by
    simp [Common.letterEscapes, unquoteEscape]
  obtain ⟨before, after, split, -⟩ := List.lookup_eq_some_iff.mp found
  have listed : (char.toNat, letter) ∈ Common.letterEscapes := by
    rw [split]
    simp
  rw [entries _ listed, Char.ofNat_toNat]

theorem unquoteRune_char (isPrint : Char → Bool) (char : Char) (rest : List Char) :
    unquoteRune (Common.appendEscapedRune isPrint char ++ rest) = some (.char char, rest) := by
  have valid : char.toNat < 0xd800 ∨ (0xdfff < char.toNat ∧ char.toNat < 0x110000) := char.valid
  have same : Char.ofNat char.toNat = char := Char.ofNat_toNat char
  rw [Common.appendEscapedRune]
  by_cases special : char = '"' ∨ char = '\\'
  · rw [if_pos special]
    rcases special with rfl | rfl
    · rfl
    · rfl
  rw [if_neg special]
  by_cases printable : Common.isPrintable isPrint char
  · rw [if_pos printable, List.singleton_append, unquoteRune_plain fun slash => special (.inr slash)]
  rw [if_neg printable]
  cases found : Common.letterEscapes.lookup char.toNat with
  | some letter => exact unquoteEscape_letter found rest
  | none =>
      dsimp only
      split_ifs with control short
      · have low : char.toNat < 0x80 := by omega
        refine (unquoteDigits_quoteDigits (by omega) byteRune rest).trans ?_
        rw [byteRune, if_pos low, same]
      · rw [hexFour_eq]
        refine (unquoteDigits_quoteDigits short _ rest).trans ?_
        rw [same]
      · refine (unquoteDigits_quoteDigits (by omega) _ rest).trans ?_
        rw [same]

/-- A quoted rune is read back. -/
theorem unquoteRune_quoted (isPrint : Char → Bool) (proper : Proper rune) (rest : List Char) :
    unquoteRune (quoted isPrint rune ++ rest) = some (rune, rest) := by
  cases rune with
  | char char => exact unquoteRune_char isPrint char rest
  | stray byte =>
      refine (unquoteDigits_quoteDigits byte.toNat_lt byteRune rest).trans ?_
      have high : ¬ byte.toNat < 0x80 := fun low => proper (UInt8.lt_iff_toNat_lt.mpr low)
      rw [byteRune, if_neg high, UInt8.ofNat_toNat]

/-! ### Values -/

/-- No two values are written alike. -/
theorem escapeTemplateValue_injective (isPrint : Char → Bool) :
    Function.Injective (escapeTemplateValue isPrint) := by
  intro value other same
  rw [escapeTemplateValue_eq_encode, escapeTemplateValue_eq_encode] at same
  have runesSame : runes value = runes other :=
    eq_of_flatMap_eq rfl (fun rune proper rest => unquoteRune_quoted isPrint proper rest)
      (fun _ listed => proper_of_mem listed) (fun _ listed => proper_of_mem listed)
      (encode_injective same)
  rw [← flatMap_bytes_runes value, runesSame, flatMap_bytes_runes]

theorem escapeTemplateValue_append {more : Bytes} (starts : ∀ byte ∈ more.head?, ¬ Continues byte)
    (value : Bytes) : escapeTemplateValue isPrint (value ++ more) =
      escapeTemplateValue isPrint value ++ escapeTemplateValue isPrint more := by
  rw [escapeTemplateValue_eq, runes_append starts, List.flatMap_append, escapeTemplateValue_eq,
    escapeTemplateValue_eq]

/-- A printable byte that is no quote and no backslash. -/
def PlainByte (byte : UInt8) : Prop := 0x20 ≤ byte ∧ byte < 0x7f ∧ byte ≠ 0x22 ∧ byte ≠ 0x5c

/-- What needs no escape is written as it is. -/
theorem escapeTemplateValue_plain {text : Bytes} (plain : ∀ byte ∈ text, PlainByte byte) :
    escapeTemplateValue isPrint text = text := by
  rw [escapeTemplateValue_eq]
  induction text with
  | nil => rfl
  | cons byte text ih =>
      rw [List.forall_mem_cons] at plain
      obtain ⟨⟨visible, below, noQuote, noSlash⟩, others⟩ := plain
      have low : byte.toNat < 0x7f := UInt8.lt_iff_toNat_lt.mp below
      have high : 0x20 ≤ byte.toNat := UInt8.le_iff_toNat_le.mp visible
      have ascii : byte < 0x80 := UInt8.lt_iff_toNat_lt.mpr (Nat.lt_trans low (by decide))
      have each : ∀ value < 0x80, (Char.ofNat value).toNat = value := by decide
      have code := each byte.toNat (by omega)
      have special : ¬ (Char.ofNat byte.toNat = '"' ∨ Char.ofNat byte.toNat = '\\') := by
        rintro (quote | slash)
        · rw [quote] at code
          exact noQuote (UInt8.toNat_inj.mp code.symm)
        · rw [slash] at code
          exact noSlash (UInt8.toNat_inj.mp code.symm)
      have printable : Common.isPrintable isPrint (Char.ofNat byte.toNat) := by
        rw [Common.isPrintable, code, if_pos (by omega)]
        simp
        omega
      have whole : quoteRune isPrint (.char (Char.ofNat byte.toNat)) = [byte] := by
        rw [quoteRune, Common.appendEscapedRune, if_neg special, if_pos printable, encode_cons,
          utf8EncodeChar_ofNat ascii]
        rfl
      rw [runes_ascii ascii, List.flatMap_cons, whole, ih others, List.singleton_append]

end MessagePusher.Template.Bytewise
