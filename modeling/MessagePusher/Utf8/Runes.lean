import Mathlib.Data.List.Infix

/-!
# Runes of a text of bytes

UTF-8 as a reader sees it that never fails: it takes one rune after the other from a sequence of
bytes, and a byte that starts no character is a rune of its own.
-/

namespace MessagePusher.Utf8

/-- What is read at once: a character, or a byte that belongs to none. -/
inductive Rune where
  | char (value : Char)
  | stray (byte : UInt8)
deriving DecidableEq

/-- The bytes of some characters. -/
def encode (chars : List Char) : List UInt8 := chars.flatMap String.utf8EncodeChar

/-- The character at the start of a text. -/
def leading? (text : List UInt8) : Option Char := text.toByteArray.utf8DecodeChar? 0

/-- The runes of a text, after leaving out the bytes that are used up. -/
def runesFrom : Nat → List UInt8 → List Rune
  | _, [] => []
  | skip + 1, _ :: rest => runesFrom skip rest
  | 0, byte :: rest =>
      match leading? (byte :: rest) with
      | some char => .char char :: runesFrom (char.utf8Size - 1) rest
      | none => .stray byte :: runesFrom 0 rest

/-- The runes of a text from its beginning. -/
def runes (text : List UInt8) : List Rune := runesFrom 0 text

namespace Rune

/-- The bytes that a rune was read from. -/
def bytes : Rune → List UInt8
  | char value => String.utf8EncodeChar value
  | stray byte => [byte]

/-- The character that stands for the rune; U+FFFD stands for a stray byte. -/
def shown : Rune → Char
  | char value => value
  | stray _ => '\uFFFD'

end Rune

/-- The characters that a reader makes of a text. -/
def characters (text : List UInt8) : List Char := (runes text).map Rune.shown

/-- The text is the bytes of some characters. -/
def Valid (text : List UInt8) : Prop := ∃ chars, text = encode chars

/-- A byte that continues a character. -/
def Continues (byte : UInt8) : Prop := byte &&& 0xc0 = 0x80

instance : DecidablePred Continues :=
  fun byte => inferInstanceAs (Decidable (byte &&& 0xc0 = 0x80))

/-- The text has whole characters in front of this byte, and behind. -/
def Boundary (text : List UInt8) (idx : Nat) : Prop :=
  ∃ before after, text = encode before ++ encode after ∧ idx = (encode before).length

variable {text rest : List UInt8} {char : Char} {chars : List Char} {idx : Nat}

/-! ### Encoded characters -/

@[simp]
theorem encode_nil : encode [] = [] := rfl

@[simp]
theorem encode_cons (char : Char) (chars : List Char) :
    encode (char :: chars) = String.utf8EncodeChar char ++ encode chars := rfl

/-- Texts are encoded one after the other. -/
@[simp]
theorem encode_append (chars more : List Char) :
    encode (chars ++ more) = encode chars ++ encode more :=
  List.flatMap_append

/-- A character in front is found. -/
@[simp]
theorem leading?_append (char : Char) (rest : List UInt8) :
    leading? (String.utf8EncodeChar char ++ rest) = some char := by
  rw [leading?, List.toByteArray_append]
  exact ByteArray.utf8DecodeChar?_utf8EncodeChar_append

/-- A character that is found is in front. -/
theorem leading?_spec (found : leading? text = some char) :
    ∃ rest, text = String.utf8EncodeChar char ++ rest := by
  have taken := String.toByteArray_utf8EncodeChar_of_utf8DecodeChar?_eq_some found
  have whole := ByteArray.eq_of_utf8DecodeChar?_eq_some found
  refine ⟨(text.toByteArray.extract char.utf8Size text.toByteArray.size).data.toList, ?_⟩
  have lists := congrArg (fun bytes => bytes.data.toList) whole
  simpa using lists

/-- Nothing is found where no character is in front. -/
theorem leading?_eq_none (none_ : ∀ char rest, text ≠ String.utf8EncodeChar char ++ rest) :
    leading? text = none := by
  cases found : leading? text with
  | none => rfl
  | some char =>
      obtain ⟨rest, same⟩ := leading?_spec found
      exact absurd same (none_ char rest)

/-! ### The runes of a text -/

/-- To skip bytes is to drop them. -/
theorem runesFrom_skip (skip : Nat) (text : List UInt8) :
    runesFrom skip text = runesFrom 0 (text.drop skip) := by
  induction text generalizing skip with
  | nil => cases skip <;> rfl
  | cons byte rest ih =>
      cases skip with
      | zero => rfl
      | succ skip => exact ih skip

@[simp]
theorem runes_nil : runes [] = [] := rfl

/-- A character is one rune. -/
theorem runes_char (char : Char) (rest : List UInt8) :
    runes (String.utf8EncodeChar char ++ rest) = .char char :: runes rest := by
  have length := String.length_utf8EncodeChar char
  have found := leading?_append char rest
  cases bytes : String.utf8EncodeChar char with
  | nil =>
      rw [bytes] at length
      exact absurd length.symm (Nat.ne_of_gt char.utf8Size_pos)
  | cons first more =>
      rw [bytes] at found length
      have size : char.utf8Size - 1 = more.length := by
        rw [← length, List.length_cons, Nat.add_sub_cancel]
      rw [List.cons_append] at found ⊢
      rw [runes, runesFrom, found]
      dsimp only
      rw [runesFrom_skip, size, List.drop_left, ← runes]

/-- A byte that begins no character is a rune of its own. -/
theorem runes_stray {byte : UInt8} (none_ : leading? (byte :: rest) = none) :
    runes (byte :: rest) = .stray byte :: runes rest := by
  rw [runes, runesFrom, none_]
  rfl

/-- A text is read one rune after the other. -/
theorem runes_induction {motive : List UInt8 → Prop} (nil : motive [])
    (char : ∀ char rest, motive rest → motive (String.utf8EncodeChar char ++ rest))
    (stray : ∀ byte rest, leading? (byte :: rest) = none → motive rest → motive (byte :: rest))
    (text : List UInt8) : motive text := by
  induction length : text.length using Nat.strong_induction_on generalizing text with
  | _ length ih =>
    cases text with
    | nil => exact nil
    | cons byte rest =>
        cases found : leading? (byte :: rest) with
        | none => exact stray byte rest found (ih _ (by simp [← length]) rest rfl)
        | some value =>
            obtain ⟨more, same⟩ := leading?_spec found
            rw [same] at length ⊢
            refine char value more (ih _ ?_ more rfl)
            rw [← length, List.length_append, String.length_utf8EncodeChar]
            exact Nat.lt_add_of_pos_left value.utf8Size_pos

/-- Characters are read as they were encoded, whatever follows. -/
@[simp]
theorem runes_encode_append (chars : List Char) (rest : List UInt8) :
    runes (encode chars ++ rest) = chars.map .char ++ runes rest := by
  induction chars with
  | nil => rfl
  | cons char chars ih =>
      rw [encode_cons, List.append_assoc, runes_char, ih, List.map_cons, List.cons_append]

@[simp]
theorem runes_encode (chars : List Char) : runes (encode chars) = chars.map .char := by
  simpa using runes_encode_append chars []

/-- No byte is lost. -/
theorem flatMap_bytes_runes (text : List UInt8) : (runes text).flatMap Rune.bytes = text := by
  induction text using runes_induction with
  | nil => rfl
  | char char rest ih => rw [runes_char, List.flatMap_cons, ih, Rune.bytes]
  | stray byte rest none_ ih => rw [runes_stray none_, List.flatMap_cons, ih, Rune.bytes]; rfl

/-- Characters are read as they were encoded. -/
@[simp]
theorem characters_encode (chars : List Char) : characters (encode chars) = chars := by
  rw [characters, runes_encode, List.map_map]
  exact List.map_id chars

/-- The characters of an encoded front do not depend on what follows. -/
theorem characters_encode_append (chars : List Char) (rest : List UInt8) :
    characters (encode chars ++ rest) = chars ++ characters rest := by
  rw [characters, runes_encode_append, List.map_append, List.map_map]
  exact congrArg (· ++ _) (List.map_id chars)

/-- Different texts have different bytes. -/
theorem encode_injective : Function.Injective encode := by
  intro chars others same
  rw [← characters_encode chars, same, characters_encode]

/-- Bytes begin with those of a text exactly when their characters begin with it. -/
theorem encode_prefix_iff {others : List Char} : encode chars <+: encode others ↔ chars <+: others := by
  constructor
  · rintro ⟨rest, same⟩
    refine ⟨characters rest, ?_⟩
    rw [← characters_encode_append, same, characters_encode]
  · rintro ⟨more, rfl⟩
    rw [encode_append]
    exact List.prefix_append _ _

/-! ### Valid texts -/

theorem valid_encode (chars : List Char) : Valid (encode chars) := ⟨chars, rfl⟩

/-- A text is valid exactly when its characters encode it. -/
theorem valid_iff : Valid text ↔ encode (characters text) = text := by
  constructor
  · rintro ⟨chars, rfl⟩
    rw [characters_encode]
  · exact fun same => ⟨_, same.symm⟩

instance : DecidablePred Valid := fun _ => decidable_of_iff _ valid_iff.symm

/-- Valid texts are valid in a row. -/
theorem Valid.append {more : List UInt8} (valid : Valid text) (validMore : Valid more) :
    Valid (text ++ more) := by
  obtain ⟨chars, rfl⟩ := valid
  obtain ⟨others, rfl⟩ := validMore
  exact ⟨chars ++ others, (encode_append _ _).symm⟩

/-! ### The bytes of a character -/

/-- The bytes behind the first one of a character continue it. -/
theorem continues_ofNat (value : Nat) : Continues (UInt8.ofNat (value % 0x40 + 0x80)) := by
  have each : ∀ low < 0x40, Continues (UInt8.ofNat (low + 0x80)) := by decide
  exact each _ (Nat.mod_lt _ (by decide))

/-- A character is one byte that starts it, and at most three that continue it. -/
theorem utf8EncodeChar_eq (char : Char) : ∃ first more, String.utf8EncodeChar char = first :: more ∧
    ¬ Continues first ∧ (∀ byte ∈ more, Continues byte) ∧ more.length ≤ 3 := by
  have one : ∀ value < 0x80, ¬ Continues (UInt8.ofNat value) := by decide
  have two : ∀ high < 0x20, ¬ Continues (UInt8.ofNat (high + 0xc0)) := by decide
  have three : ∀ high < 0x10, ¬ Continues (UInt8.ofNat (high + 0xe0)) := by decide
  have four : ∀ high < 0x08, ¬ Continues (UInt8.ofNat (high + 0xf0)) := by decide
  unfold String.utf8EncodeChar
  dsimp only
  split_ifs with small middle large
  · exact ⟨_, [], rfl, one _ (Nat.lt_succ_of_le small), by simp, Nat.zero_le _⟩
  all_goals
    refine ⟨_, _, rfl, ?_, ?_, by simp only [List.length_cons, List.length_nil]; omega⟩
  · exact two _ (Nat.mod_lt _ (by decide))
  · simp only [List.forall_mem_singleton, continues_ofNat]
  · exact three _ (Nat.mod_lt _ (by decide))
  · simp [-UInt8.ofNat_add, continues_ofNat]
  · exact four _ (Nat.mod_lt _ (by decide))
  · simp [-UInt8.ofNat_add, continues_ofNat]

/-- A character below 0x80 is one byte. -/
theorem utf8EncodeChar_ascii (small : char.toNat < 0x80) :
    String.utf8EncodeChar char = [UInt8.ofNat char.toNat] :=
  if_pos (Nat.le_of_lt_succ small)

/-- The bytes of other characters are not ASCII. -/
theorem not_ascii_of_mem_utf8EncodeChar (large : ¬ char.toNat < 0x80) {byte : UInt8}
    (listed : byte ∈ String.utf8EncodeChar char) : ¬ byte < 0x80 := by
  have continued : ∀ value : Nat, ¬ UInt8.ofNat (value % 0x40 + 0x80) < 0x80 := by
    have each : ∀ low < 0x40, ¬ UInt8.ofNat (low + 0x80) < 0x80 := by decide
    exact fun value => each _ (Nat.mod_lt _ (by decide))
  have two : ∀ high < 0x20, ¬ UInt8.ofNat (high + 0xc0) < 0x80 := by decide
  have three : ∀ high < 0x10, ¬ UInt8.ofNat (high + 0xe0) < 0x80 := by decide
  have four : ∀ high < 0x08, ¬ UInt8.ofNat (high + 0xf0) < 0x80 := by decide
  unfold String.utf8EncodeChar at listed
  dsimp only at listed
  split_ifs at listed with small
  · exact absurd (Nat.lt_succ_of_le small) large
  all_goals simp only [List.mem_cons, List.not_mem_nil, or_false] at listed
  · rcases listed with rfl | rfl
    · exact two _ (Nat.mod_lt _ (by decide))
    · exact continued _
  · rcases listed with rfl | rfl | rfl
    · exact three _ (Nat.mod_lt _ (by decide))
    all_goals exact continued _
  · rcases listed with rfl | rfl | rfl | rfl
    · exact four _ (Nat.mod_lt _ (by decide))
    all_goals exact continued _

/-- An ASCII byte is a character of its own. -/
theorem utf8EncodeChar_of_ascii_mem {byte : UInt8} (small : byte < 0x80)
    (listed : byte ∈ String.utf8EncodeChar char) : String.utf8EncodeChar char = [byte] := by
  by_cases ascii : char.toNat < 0x80
  · rw [utf8EncodeChar_ascii ascii] at listed ⊢
    rw [List.mem_singleton.mp listed]
  · exact absurd small (not_ascii_of_mem_utf8EncodeChar ascii listed)

theorem utf8EncodeChar_ofNat {byte : UInt8} (small : byte < 0x80) :
    String.utf8EncodeChar (Char.ofNat byte.toNat) = [byte] := by
  have low : byte.toNat < 0x80 := UInt8.lt_iff_toNat_lt.mp small
  have each : ∀ value < 0x80, (Char.ofNat value).toNat = value := by decide
  have code := each byte.toNat low
  rw [utf8EncodeChar_ascii (by rwa [code]), code, UInt8.ofNat_toNat]

/-- A byte below 0x80 is a character. -/
theorem runes_ascii {byte : UInt8} (small : byte < 0x80) (rest : List UInt8) :
    runes (byte :: rest) = .char (Char.ofNat byte.toNat) :: runes rest := by
  have read := runes_char (Char.ofNat byte.toNat) rest
  rwa [utf8EncodeChar_ofNat small] at read

/-- ASCII bytes are seen as the characters they are. -/
theorem byte_mem_of_mem_characters (ascii : ∀ byte ∈ text, byte < 0x80)
    (listed : char ∈ characters text) : ∃ byte ∈ text, byte.toNat = char.toNat := by
  induction text with
  | nil => cases listed
  | cons byte rest ih =>
      rw [List.forall_mem_cons] at ascii
      rw [characters, runes_ascii ascii.1, List.map_cons] at listed
      have each : ∀ value < 0x80, (Char.ofNat value).toNat = value := by decide
      rcases List.mem_cons.mp listed with rfl | later
      · exact ⟨byte, by simp, (each _ (UInt8.lt_iff_toNat_lt.mp ascii.1)).symm⟩
      · obtain ⟨found, member, same⟩ := ih ascii.2 later
        exact ⟨found, List.mem_cons_of_mem _ member, same⟩

/-- No byte below 0x80 is stray. -/
theorem not_ascii_of_stray {byte : UInt8} (listed : .stray byte ∈ runes text) : ¬ byte < 0x80 := by
  induction text using runes_induction with
  | nil => cases listed
  | char char rest ih =>
      rw [runes_char] at listed
      exact ih (List.mem_of_ne_of_mem (by simp) listed)
  | stray first rest none_ ih =>
      rw [runes_stray none_] at listed
      rcases List.mem_cons.mp listed with same | later
      · obtain rfl := Rune.stray.inj same
        intro small
        have read := runes_ascii small rest
        rw [runes_stray none_] at read
        cases read
      · exact ih later

/-- A text is read on its own in front of a byte that continues no character. -/
theorem runes_append (starts : ∀ byte ∈ rest.head?, ¬ Continues byte) (text : List UInt8) :
    runes (text ++ rest) = runes text ++ runes rest := by
  induction text using runes_induction with
  | nil => rfl
  | char char text ih => rw [List.append_assoc, runes_char, runes_char, ih, List.cons_append]
  | stray byte text none_ ih =>
      have still : leading? (byte :: (text ++ rest)) = none := by
        refine leading?_eq_none fun char more same => ?_
        obtain ⟨first, others, bytes, -, continued, -⟩ := utf8EncodeChar_eq char
        rw [bytes, List.cons_append, List.cons.injEq] at same
        obtain ⟨rfl, same⟩ := same
        -- the character would end within the text, or the rest would continue it
        rcases List.append_eq_append_iff.mp same with ⟨inside, rfl, ends⟩ | ⟨after, rfl, ends⟩
        · cases inside with
          | nil =>
              rw [List.append_nil] at bytes
              have read := leading?_append char []
              rw [bytes, List.append_nil, none_] at read
              cases read
          | cons next inside =>
              subst ends
              exact starts next rfl (continued next (by simp))
        · have read := leading?_append char after
          rw [bytes, List.cons_append, none_] at read
          cases read
      rw [List.cons_append, runes_stray still, runes_stray none_, ih, List.cons_append]

/-! ### Where characters start -/

theorem Boundary.start (chars : List Char) : Boundary (encode chars) 0 := ⟨[], chars, rfl, rfl⟩

/-- The boundaries of a valid text are its end and the bytes that continue no character. -/
theorem boundary_encode_iff : Boundary (encode chars) idx ↔
    idx = (encode chars).length ∨ ∃ byte, (encode chars)[idx]? = some byte ∧ ¬ Continues byte := by
  constructor
  · rintro ⟨before, after, same, rfl⟩
    rw [same, List.length_append]
    cases after with
    | nil => exact .inl rfl
    | cons char after =>
        obtain ⟨first, more, bytes, starts, -⟩ := utf8EncodeChar_eq char
        refine .inr ⟨first, ?_, starts⟩
        rw [List.getElem?_append_right (Nat.le_refl _), Nat.sub_self, encode_cons, bytes]
        rfl
  · induction chars generalizing idx with
    | nil =>
        rintro (rfl | ⟨byte, found, -⟩)
        · exact .start []
        · cases found
    | cons char chars ih =>
        intro place
        by_cases first : idx = 0
        · rw [first]
          exact .start _
        obtain ⟨byte, more, bytes, -, continued, -⟩ := utf8EncodeChar_eq char
        -- no byte behind the first one of the character starts another
        have behind : (String.utf8EncodeChar char).length ≤ idx := by
          by_contra inside
          rcases place with rfl | ⟨found, at_, starts⟩
          · rw [encode_cons, List.length_append] at inside
            exact inside (Nat.le_add_right _ _)
          · rw [encode_cons, List.getElem?_append_left (Nat.not_le.mp inside), bytes] at at_
            obtain ⟨place, rfl⟩ := Nat.exists_eq_succ_of_ne_zero first
            rw [List.getElem?_cons_succ] at at_
            exact starts (continued _ (List.mem_of_getElem? at_))
        obtain ⟨later, rfl⟩ := Nat.exists_eq_add_of_le behind
        obtain ⟨before, after, same, place⟩ := @ih later (by
          rw [encode_cons, List.length_append, Nat.add_left_cancel_iff,
            List.getElem?_append_right behind, Nat.add_sub_cancel_left] at place
          exact place)
        refine ⟨char :: before, after, ?_, ?_⟩
        · rw [encode_cons, encode_cons, same, List.append_assoc]
        · rw [place, encode_cons, List.length_append]

/-- A boundary of a valid text is its end, or before a byte that continues nothing. -/
theorem Valid.boundary_iff (valid : Valid text) : Boundary text idx ↔
    idx = text.length ∨ ∃ byte, text[idx]? = some byte ∧ ¬ Continues byte := by
  obtain ⟨chars, rfl⟩ := valid
  exact boundary_encode_iff

/-- What is before a boundary is valid. -/
theorem Boundary.valid_take (boundary : Boundary text idx) : Valid (text.take idx) := by
  obtain ⟨before, after, rfl, rfl⟩ := boundary
  rw [List.take_left]
  exact valid_encode before

/-- What is between two boundaries is whole characters. -/
theorem Boundary.valid_slice {low high : Nat} (lower : Boundary text low)
    (upper : Boundary text high) (forward : low ≤ high) : Valid ((text.take high).drop low) := by
  obtain ⟨chars, same⟩ := upper.valid_take
  obtain ⟨front, back, whole, rfl⟩ := lower
  have inFront : encode front <+: encode chars := by
    rw [← same, whole, List.take_append, List.take_of_length_le forward]
    exact List.prefix_append _ _
  obtain ⟨more, rfl⟩ := encode_prefix_iff.mp inFront
  rw [same, encode_append, List.drop_left]
  exact valid_encode more

/-- Within a valid text, of four bytes one behind the other one starts a character. -/
theorem Valid.starts_within_four (valid : Valid text) (inside : idx + 3 < text.length) :
    ∃ start, idx ≤ start ∧ start ≤ idx + 3 ∧ ∃ byte, text[start]? = some byte ∧ ¬ Continues byte := by
  obtain ⟨chars, rfl⟩ := valid
  induction chars generalizing idx with
  | nil => exact absurd inside (Nat.not_lt_zero _)
  | cons char chars ih =>
      obtain ⟨first, more, bytes, starts, -, few⟩ := utf8EncodeChar_eq char
      have size : (String.utf8EncodeChar char).length = more.length + 1 := by
        rw [bytes, List.length_cons]
      rw [encode_cons, List.length_append, size] at inside
      rcases Nat.lt_or_ge idx (more.length + 1) with within | behind
      · rcases Nat.eq_zero_or_pos idx with rfl | positive
        · refine ⟨0, Nat.le_refl _, Nat.zero_le _, first, ?_, starts⟩
          rw [encode_cons, bytes]
          rfl
        · -- the next character starts within three bytes
          cases chars with
          | nil =>
              rw [encode_nil, List.length_nil] at inside
              omega
          | cons next chars =>
              obtain ⟨second, others, nextBytes, nextStarts, -⟩ := utf8EncodeChar_eq next
              refine ⟨more.length + 1, Nat.le_of_lt within, by omega, second, ?_, nextStarts⟩
              rw [encode_cons, List.getElem?_append_right (Nat.le_of_eq size), size, Nat.sub_self,
                encode_cons, nextBytes]
              rfl
      · obtain ⟨later, rfl⟩ := Nat.exists_eq_add_of_le behind
        obtain ⟨start, low, high, byte, found, starts⟩ := @ih later (by omega)
        refine ⟨more.length + 1 + start, by omega, by omega, byte, ?_, starts⟩
        rw [encode_cons, List.getElem?_append_right (by omega), size, Nat.add_sub_cancel_left]
        exact found

end MessagePusher.Utf8
