import MessagePusher.Utf8.Runes

/-!
# Encoded words

Base64, and the words of RFC 2047 that carry text outside of ASCII in a mail header. A header
value is read word by word; white space between two encoded words is no part of the text.
-/

namespace MessagePusher.Mail

/-! ### Base64 -/

/-- The digit for six bits. -/
def digit (bits : Nat) : Char :=
  if bits < 26 then Char.ofNat (bits + 'A'.toNat)
  else if bits < 52 then Char.ofNat (bits - 26 + 'a'.toNat)
  else if bits < 62 then Char.ofNat (bits - 52 + '0'.toNat)
  else if bits = 62 then '+'
  else '/'

def digit? (char : Char) : Option Nat :=
  if char.isUpper then some (char.toNat - 'A'.toNat)
  else if char.isLower then some (char.toNat - 'a'.toNat + 26)
  else if char.isDigit then some (char.toNat - '0'.toNat + 52)
  else if char = '+' then some 62
  else if char = '/' then some 63
  else none

/-- Three bytes are four digits; what is missing at the end is padded. -/
def base64 : List UInt8 → List Char
  | [] => []
  | [a] => [digit (a.toNat / 4), digit (a.toNat % 4 * 16), '=', '=']
  | [a, b] =>
      [digit (a.toNat / 4), digit (a.toNat % 4 * 16 + b.toNat / 16), digit (b.toNat % 16 * 4), '=']
  | a :: b :: c :: rest =>
      digit (a.toNat / 4) :: digit (a.toNat % 4 * 16 + b.toNat / 16) ::
        digit (b.toNat % 16 * 4 + c.toNat / 64) :: digit (c.toNat % 64) :: base64 rest

/-- The bytes of base64 digits. -/
def base64Decode : List Char → Option (List UInt8)
  | [] => some []
  | w :: x :: y :: z :: rest => do
      let first ← digit? w
      let second ← digit? x
      let a := UInt8.ofNat (first * 4 + second / 16)
      if y = '=' ∧ z = '=' ∧ rest = [] then return [a]
      let third ← digit? y
      let b := UInt8.ofNat (second % 16 * 16 + third / 4)
      if z = '=' ∧ rest = [] then return [a, b]
      let fourth ← digit? z
      return a :: b :: UInt8.ofNat (third % 4 * 64 + fourth) :: (← base64Decode rest)
  | _ => none

theorem digit?_digit {bits : Nat} (small : bits < 64) : digit? (digit bits) = some bits := by
  have each : ∀ bits < 64, digit? (digit bits) = some bits := by decide
  exact each bits small

theorem digit_ne_pad {bits : Nat} (small : bits < 64) : digit bits ≠ '=' := by
  have each : ∀ bits < 64, digit bits ≠ '=' := by decide
  exact each bits small

theorem length_base64 (bytes : List UInt8) :
    (base64 bytes).length = 4 * ((bytes.length + 2) / 3) := by
  induction bytes using base64.induct with
  | case1 => rfl
  | case2 a => simp [base64]
  | case3 a b => simp [base64]
  | case4 a b c rest ih =>
      simp only [base64, List.length_cons, ih]
      omega

/-- What is encoded is read back. -/
theorem base64Decode_base64 (bytes : List UInt8) : base64Decode (base64 bytes) = some bytes := by
  have byte : ∀ (value : UInt8) (sum : Nat), sum = value.toNat → UInt8.ofNat sum = value := by
    rintro value _ rfl
    exact UInt8.ofNat_toNat
  induction bytes using base64.induct with
  | case1 => rfl
  | case2 a =>
      have bound := a.toNat_lt
      rw [base64, base64Decode, digit?_digit (by omega), digit?_digit (by omega)]
      have first := byte a (a.toNat / 4 * 4 + a.toNat % 4 * 16 / 16) (by omega)
      simp only [Option.bind_eq_bind, Option.bind_some, Option.pure_def, if_true, and_self, first]
  | case3 a b =>
      have boundA := a.toNat_lt
      have boundB := b.toNat_lt
      have unpadded : digit (b.toNat % 16 * 4) ≠ '=' := digit_ne_pad (by omega)
      rw [base64, base64Decode, digit?_digit (by omega), digit?_digit (by omega),
        digit?_digit (by omega)]
      have first := byte a (a.toNat / 4 * 4 + (a.toNat % 4 * 16 + b.toNat / 16) / 16) (by omega)
      have second := byte b
        ((a.toNat % 4 * 16 + b.toNat / 16) % 16 * 16 + b.toNat % 16 * 4 / 4) (by omega)
      simp only [Option.bind_eq_bind, Option.bind_some, Option.pure_def, if_true, if_false, and_true,
        and_self, first, second, unpadded]
  | case4 a b c rest ih =>
      have boundA := a.toNat_lt
      have boundB := b.toNat_lt
      have boundC := c.toNat_lt
      have unpadded : digit (b.toNat % 16 * 4 + c.toNat / 64) ≠ '=' := digit_ne_pad (by omega)
      have last : digit (c.toNat % 64) ≠ '=' := digit_ne_pad (by omega)
      rw [base64, base64Decode, digit?_digit (by omega), digit?_digit (by omega),
        digit?_digit (by omega), digit?_digit (by omega), ih]
      have first := byte a (a.toNat / 4 * 4 + (a.toNat % 4 * 16 + b.toNat / 16) / 16) (by omega)
      have second := byte b ((a.toNat % 4 * 16 + b.toNat / 16) % 16 * 16 +
        (b.toNat % 16 * 4 + c.toNat / 64) / 4) (by omega)
      have third := byte c
        ((b.toNat % 16 * 4 + c.toNat / 64) % 4 * 64 + c.toNat % 64) (by omega)
      simp only [Option.bind_eq_bind, Option.bind_some, Option.pure_def, if_false, and_self, false_and,
        first, second, third, unpadded, last]

/-! ### Words -/

/-- The bytes of a text in the encoding `Q`. -/
def quotedDecode : List Char → Option (List UInt8)
  | [] => some []
  | '=' :: high :: low :: rest => do
      let first ← hexValue? high
      let second ← hexValue? low
      return UInt8.ofNat (16 * first + second) :: (← quotedDecode rest)
  | '=' :: _ => none
  | '_' :: rest => (quotedDecode rest).map (0x20 :: ·)
  | char :: rest => (quotedDecode rest).map (UInt8.ofNat char.toNat :: ·)
where
  hexValue? (char : Char) : Option Nat :=
    if char.isDigit then some (char.toNat - '0'.toNat)
    else if 'A' ≤ char ∧ char ≤ 'F' then some (char.toNat - 'A'.toNat + 10)
    else none

/-- Printable ASCII that neither ends a word nor stands between words. -/
def isWordChar (char : Char) : Bool := 0x21 ≤ char.toNat && char.toNat ≤ 0x7e && char ≠ '?'

/-- The bytes of an encoded word in UTF-8: `=?`, the charset, the encoding and the text, which is
not empty, and `?=`. -/
def readWord : List Char → Option (List UInt8)
  | '=' :: '?' :: rest =>
      match rest.dropWhile (· ≠ '?') with
      | '?' :: encoding :: '?' :: rest' =>
          let text := rest'.takeWhile (· ≠ '?')
          if (rest.takeWhile (· ≠ '?')).map Char.toLower = "utf-8".toList ∧
              rest'.dropWhile (· ≠ '?') = ['?', '='] ∧ text ≠ [] ∧ text.all isWordChar then
            if encoding.toLower = 'b' then base64Decode text
            else if encoding.toLower = 'q' then quotedDecode text
            else none
          else none
      | _ => none
  | _ => none

/-- White space in a header. -/
def isGap (char : Char) : Bool := char ∈ [' ', '\t', '\r', '\n']

/-- The longest word that is allowed. -/
def maxWordLength : Nat := 75

/-- A header value of encoded words, none too long and each of whole characters, and its text. -/
inductive Words : List Char → List Char → Prop where
  | none : Words [] []
  | one {word chars} (short : word.length ≤ maxWordLength)
      (reads : readWord word = some (Utf8.encode chars)) : Words word chars
  | more {word chars gap rest others} (short : word.length ≤ maxWordLength)
      (reads : readWord word = some (Utf8.encode chars)) (apart : gap ≠ [])
      (blank : ∀ char ∈ gap, isGap char) (behind : Words rest others) :
      Words (word ++ gap ++ rest) (chars ++ others)

/-- A value without white space is at most one word. -/
theorem Words.single {value text : List Char} (words : Words value text)
    (solid : ∀ char ∈ value, isGap char = false) :
    value = [] ∨ value.length ≤ maxWordLength ∧ readWord value = some (Utf8.encode text) := by
  cases words with
  | none => exact .inl rfl
  | one short reads => exact .inr ⟨short, reads⟩
  | @more word chars gap rest others short reads apart blank behind =>
      obtain ⟨char, listed⟩ := List.exists_mem_of_ne_nil gap apart
      have inside : char ∈ word ++ gap ++ rest := by simp [listed]
      have both := (solid char inside).symm.trans (blank char listed)
      cases both

/-- One word of base64 in UTF-8. -/
def encodedWord (bytes : List UInt8) : List Char :=
  ['=', '?', 'U', 'T', 'F', '-', '8', '?', 'B', '?'] ++ base64 bytes ++ ['?', '=']

theorem isWordChar_digit {bits : Nat} (small : bits < 64) : isWordChar (digit bits) = true := by
  have each : ∀ bits < 64, isWordChar (digit bits) = true := by decide
  exact each bits small

theorem isWordChar_base64 (bytes : List UInt8) : ∀ char ∈ base64 bytes, isWordChar char = true := by
  have pad : isWordChar '=' = true := by decide
  induction bytes using base64.induct with
  | case1 => simp [base64]
  | case2 a =>
      have bound := a.toNat_lt
      simp only [base64, List.forall_mem_cons, pad, true_and]
      exact ⟨isWordChar_digit (by omega), isWordChar_digit (by omega), by simp⟩
  | case3 a b =>
      have boundA := a.toNat_lt
      have boundB := b.toNat_lt
      simp only [base64, List.forall_mem_cons, pad, true_and]
      exact ⟨isWordChar_digit (by omega), isWordChar_digit (by omega), isWordChar_digit (by omega),
        by simp⟩
  | case4 a b c rest ih =>
      have boundA := a.toNat_lt
      have boundB := b.toNat_lt
      have boundC := c.toNat_lt
      simp only [base64, List.forall_mem_cons]
      exact ⟨isWordChar_digit (by omega), isWordChar_digit (by omega), isWordChar_digit (by omega),
        isWordChar_digit (by omega), ih⟩

theorem takeWhile_of_word {text rest : List Char} (word : ∀ char ∈ text, isWordChar char = true) :
    (text ++ '?' :: rest).takeWhile (· ≠ '?') = text ∧
      (text ++ '?' :: rest).dropWhile (· ≠ '?') = '?' :: rest := by
  have solid : ∀ char ∈ text, (decide (char ≠ '?')) = true := by
    intro char listed
    have shown := word char listed
    rw [isWordChar, Bool.and_eq_true] at shown
    exact shown.2
  constructor
  · rw [List.takeWhile_append_of_pos solid]
    simp
  · rw [List.dropWhile_append_of_pos solid]
    simp

/-- The word is read back, unless it has no text. -/
theorem readWord_encodedWord (bytes : List UInt8) :
    readWord (encodedWord bytes) = if bytes = [] then none else some bytes := by
  have whole : encodedWord bytes =
      '=' :: '?' :: (['U', 'T', 'F', '-', '8'] ++ '?' :: 'B' :: '?' :: (base64 bytes ++ ['?', '='])) := by
    simp [encodedWord]
  have letters : (['U', 'T', 'F', '-', '8'].all isWordChar) = true := by decide
  obtain ⟨charset, behind⟩ :=
    @takeWhile_of_word ['U', 'T', 'F', '-', '8'] ('B' :: '?' :: (base64 bytes ++ ['?', '=']))
      (List.all_eq_true.mp letters)
  obtain ⟨payload, last⟩ := @takeWhile_of_word _ ['='] (isWordChar_base64 bytes)
  have lower : ['U', 'T', 'F', '-', '8'].map Char.toLower = "utf-8".toList := by decide
  have shown : (base64 bytes).all isWordChar = true := List.all_eq_true.mpr (isWordChar_base64 bytes)
  rw [whole]
  simp only [readWord, behind, charset, payload, last, lower, shown, base64Decode_base64]
  by_cases empty : bytes = []
  · subst empty
    rfl
  · have filled : base64 bytes ≠ [] := by
      intro none_
      have length := length_base64 bytes
      have some_ := List.length_pos_of_ne_nil empty
      rw [none_, List.length_nil] at length
      omega
    rw [if_neg empty, if_pos ⟨trivial, trivial, filled, trivial⟩]
    rfl

theorem length_encodedWord (bytes : List UInt8) :
    (encodedWord bytes).length = 12 + 4 * ((bytes.length + 2) / 3) := by
  simp only [encodedWord, List.length_append, List.length_cons, List.length_nil, length_base64]
  omega

theorem not_isGap_encodedWord (bytes : List UInt8) :
    ∀ char ∈ encodedWord bytes, isGap char = false := by
  have solid : ∀ char, isWordChar char = true → isGap char = false := by
    intro char shown
    by_contra blank
    simp only [isGap, List.mem_cons, List.not_mem_nil, or_false, Bool.not_eq_false,
      decide_eq_true_eq] at blank
    rcases blank with rfl | rfl | rfl | rfl <;> cases shown
  have marked : ∀ marks : List Char, (marks.all fun char => !isGap char) = true →
      ∀ char ∈ marks, isGap char = false := by
    intro marks all char listed
    have apart : (!isGap char) = true := List.all_eq_true.mp all char listed
    rwa [Bool.not_eq_eq_eq_not, Bool.not_true] at apart
  intro char listed
  rw [encodedWord, List.mem_append, List.mem_append] at listed
  rcases listed with (front | inner) | back
  · exact marked _ (by decide) char front
  · exact solid char (isWordChar_base64 bytes char inner)
  · exact marked _ (by decide) char back

/-- One word carries a text exactly when the text has something to carry, and fits. -/
theorem words_encodedWord_iff (text : List Char) :
    Words (encodedWord (Utf8.encode text)) text ↔
      1 ≤ (Utf8.encode text).length ∧ (Utf8.encode text).length ≤ 45 := by
  have length := length_encodedWord (Utf8.encode text)
  have read := readWord_encodedWord (Utf8.encode text)
  constructor
  · intro words
    rcases words.single (not_isGap_encodedWord _) with none_ | ⟨short, reads⟩
    · rw [none_, List.length_nil] at length
      omega
    · rw [length, maxWordLength] at short
      have filled : Utf8.encode text ≠ [] := by
        intro empty
        rw [read, if_pos empty] at reads
        cases reads
      exact ⟨List.length_pos_of_ne_nil filled, by omega⟩
  · rintro ⟨some_, short⟩
    refine .one ?_ ?_
    · rw [length, maxWordLength]
      omega
    · rw [read, if_neg (List.ne_nil_of_length_pos some_)]

end MessagePusher.Mail
