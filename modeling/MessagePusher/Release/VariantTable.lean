import MessagePusher.Scripts.Meta
import MessagePusher.Semantics.Fallible

/-!
# What the variant table and the sanitizer guarantee

The names of an accepted table are distinct and are tags already; a selection keeps both.
-/

namespace MessagePusher.Release

open Common Scripts Semantics.Fallible

/-! ### Sanitized names -/

/-- Sanitizing changes nothing about text that needs it nowhere. -/
theorem collapseInvalid_of_legal {chars : List Char} (legal : ∀ char ∈ chars, isTagChar char = true)
    (inside : Bool) : collapseInvalid inside chars = chars := by
  induction chars generalizing inside with
  | nil => rfl
  | cons char chars ih =>
      obtain ⟨first, rest⟩ := List.forall_mem_cons.mp legal
      rw [collapseInvalid, if_pos first, ih rest]

/-- The codes of the characters of a tag. -/
theorem toNat_of_isTagChar {char : Char} (legal : isTagChar char = true) :
    char.toNat ∈ [0x5f, 0x2e, 0x2d] ∨ (0x30 ≤ char.toNat ∧ char.toNat ≤ 0x39) ∨
      (0x41 ≤ char.toNat ∧ char.toNat ≤ 0x5a) ∨ (0x61 ≤ char.toNat ∧ char.toNat ≤ 0x7a) := by
  rcases Bool.or_eq_true_iff.1 legal with letter | mark
  · have between : ∀ {low high : UInt32}, low ≤ char.val ∧ char.val ≤ high →
        low.toNat ≤ char.toNat ∧ char.toNat ≤ high.toNat := fun inside =>
      inside.imp UInt32.le_iff_toNat_le.1 UInt32.le_iff_toNat_le.1
    rcases Bool.or_eq_true_iff.1 letter with alpha | digit
    · rcases Bool.or_eq_true_iff.1 alpha with upper | lower
      · exact .inr (.inr (.inl (between (of_decide_eq_true upper))))
      · have bounds := Bool.and_eq_true_iff.1 lower
        exact .inr (.inr (.inr (between (bounds.imp of_decide_eq_true of_decide_eq_true))))
    · have bounds := Bool.and_eq_true_iff.1 digit
      exact .inr (.inl (between (bounds.imp of_decide_eq_true of_decide_eq_true)))
  · have listed : char ∈ ['_', '.', '-'] := List.mem_of_elem_eq_true mark
    simp only [List.mem_cons, List.not_mem_nil, or_false] at listed
    rcases listed with rfl | rfl | rfl <;> decide

/-- A tag has no white space. -/
theorem isSpace_of_isTagChar {char : Char} (legal : isTagChar char = true) :
    isSpace char = false := by
  have code := toNat_of_isTagChar legal
  unfold isSpace
  simp only [List.mem_cons, List.not_mem_nil, or_false] at code
  simp only [Bool.or_eq_false_iff, Bool.and_eq_false_iff, decide_eq_false_iff_not,
    List.contains_eq_mem, List.mem_cons, List.not_mem_nil, or_false]
  omega

theorem trimChars_of_legal {chars : List Char} (legal : ∀ char ∈ chars, isTagChar char = true) :
    trimChars chars = chars := by
  have kept : ∀ {chars : List Char}, (∀ char ∈ chars, isTagChar char = true) →
      chars.dropWhile isSpace = chars := by
    intro chars legal
    cases chars with
    | nil => rfl
    | cons first rest =>
        exact List.dropWhile_cons_of_neg
          (by simp [isSpace_of_isTagChar (legal first List.mem_cons_self)])
  unfold trimChars
  rw [kept legal, kept fun char member => legal char (List.mem_reverse.mp member),
    List.reverse_reverse]

/-- A text of such characters is a tag, unless it starts with a dot or a hyphen. -/
theorem cleanTagName_of_legal {name : String} {first : Char} {rest : List Char}
    (chars : name.toList = first :: rest) (legal : ∀ char ∈ name.toList, isTagChar char = true)
    (start : first ≠ '.' ∧ first ≠ '-') : cleanTagName name = name := by
  have kept : (first :: rest).dropWhile (fun char => char = '.' || char = '-') = first :: rest :=
    List.dropWhile_cons_of_neg (by simp [start])
  unfold cleanTagName
  rw [trimChars_of_legal legal, collapseInvalid_of_legal legal, chars, kept, ← chars,
    String.ofList_toList]

theorem isTagChar_of_lower {char : Char}
    (legal : (char.isDigit || ('a' ≤ char && char ≤ 'z')) = true) :
    isTagChar char = true ∧ char ≠ '.' ∧ char ≠ '-' := by
  have code : char.toNat = char.val.toNat := rfl
  have letter : char.isAlphanum = true := by
    rcases Bool.or_eq_true_iff.1 legal with digit | lower
    · simp [Char.isAlphanum, digit]
    · have isLower : char.isLower = true := lower
      exact Bool.or_eq_true_iff.2 (.inl (Bool.or_eq_true_iff.2 (.inr isLower)))
  refine ⟨by simp [isTagChar, letter], ?_, ?_⟩
  · rintro rfl
    exact absurd letter (by decide)
  · rintro rfl
    exact absurd letter (by decide)

/-- The name of a variant is a tag. -/
theorem cleanTagName_of_isVariantName {name : String} (legal : isVariantName name = true) :
    cleanTagName name = name := by
  unfold isVariantName at legal
  cases chars : name.toList with
  | nil => simp [chars] at legal
  | cons first rest =>
      simp only [chars, Bool.and_eq_true, List.all_eq_true] at legal
      obtain ⟨start, others⟩ := legal
      have firstLegal := isTagChar_of_lower start
      refine cleanTagName_of_legal chars ?_ firstLegal.2
      rw [chars]
      refine List.forall_mem_cons.mpr ⟨firstLegal.1, fun char member => ?_⟩
      rcases Bool.or_eq_true_iff.1 (others char member) with lower | mark
      · exact (isTagChar_of_lower lower).1
      · have listed : char ∈ ['.', '_', '-'] := List.mem_of_elem_eq_true mark
        simp only [List.mem_cons, List.not_mem_nil, or_false] at listed
        rcases listed with rfl | rfl | rfl <;> decide

/-- A name that is accepted is the cleaned one. -/
theorem sanitizeTagName_ok {value name : String} (accepted : sanitizeTagName value = .ok name) :
    name = cleanTagName value := by
  unfold sanitizeTagName at accepted
  dsimp only at accepted
  split_ifs at accepted
  exact (Except.ok.inj accepted).symm

/-! ### The table -/

/-- A variant has a legal name that none before it has. -/
theorem parseVariant_name {seen : List String} {line : String} {variant : Variant}
    (parsed : parseVariant seen line = .ok variant) :
    isVariantName variant.name = true ∧ variant.name ∉ seen := by
  unfold parseVariant at parsed
  simp only [check_ok_iff, bind_ok_iff, pure_ok_iff] at parsed
  obtain ⟨legal, fresh, buildArgs, -, platforms, -, rfl⟩ := parsed
  exact ⟨not_not.mp legal, fresh⟩

/-- The variants have distinct names, and all of them are tags. -/
structure TableNames (variants : List Variant) : Prop where
  distinct : (variants.map Variant.name).Nodup
  legal : ∀ variant ∈ variants, isVariantName variant.name = true

theorem TableNames.empty : TableNames [] :=
  ⟨List.nodup_nil, by rintro variant ⟨⟩⟩

theorem TableNames.parseVariantLines {lines : List String} {before variants : List Variant}
    (names : TableNames before) (parsed : parseVariantLines lines before = .ok variants) :
    TableNames variants := by
  induction lines generalizing before with
  | nil =>
      cases parsed
      exact names
  | cons line lines ih =>
      obtain ⟨variant, first, rest⟩ := bind_ok_iff.1 parsed
      obtain ⟨legal, fresh⟩ := parseVariant_name first
      refine ih ⟨?_, ?_⟩ rest
      · rw [List.map_append, List.map_singleton]
        exact List.nodup_append.mpr ⟨names.distinct, List.nodup_singleton _, by
          rintro name known _ (_ | ⟨_, ⟨⟩⟩) rfl
          exact fresh known⟩
      · intro other member
        rcases List.mem_append.mp member with known | here
        · exact names.legal other known
        · obtain rfl := List.mem_singleton.mp here
          exact legal

theorem TableNames.of_parseVariants {raw : String} {table : List Variant}
    (parsed : parseVariants raw = .ok table) : TableNames table := by
  unfold parseVariants at parsed
  simp only [check_ok_iff, bind_ok_iff] at parsed
  obtain ⟨-, variants, lines, -, -, rest⟩ := parsed
  have names : TableNames variants :=
    TableNames.empty.parseVariantLines lines
  split_ifs at rest
  · cases rest
    cases variants with
    | nil => exact names
    | cons first others => exact ⟨names.distinct, List.forall_mem_cons.mpr
        (List.forall_mem_cons.mp names.legal)⟩
  · cases rest
    exact names

/-- A selection has its variants from the table, in the order of the table. -/
theorem sublist_variantSelection {table selected : List Variant} {raw : String}
    (chosen : variantSelection table raw = .ok selected) : selected.Sublist table := by
  unfold variantSelection at chosen
  dsimp only at chosen
  split_ifs at chosen
  · cases chosen
    exact List.Sublist.refl table
  · cases chosen
    exact List.filter_sublist

theorem TableNames.variantSelection {table selected : List Variant} {raw : String}
    (names : TableNames table) (chosen : variantSelection table raw = .ok selected) :
    TableNames selected := by
  have sublist := sublist_variantSelection chosen
  exact ⟨names.distinct.sublist (sublist.map _), fun variant member =>
    names.legal variant (sublist.subset member)⟩

/-- A selection has all variants of the table with the names that it has. -/
theorem variantSelection_eq_filter {table selected : List Variant} {raw : String}
    (chosen : variantSelection table raw = .ok selected) :
    selected = table.filter fun variant =>
      decide (variant.name ∈ selected.map Variant.name) := by
  unfold variantSelection at chosen
  dsimp only at chosen
  split_ifs at chosen
  · cases chosen
    refine (List.filter_eq_self.mpr fun variant member => ?_).symm
    exact decide_eq_true (List.mem_map_of_mem member)
  · cases chosen
    refine List.filter_congr fun variant member => ?_
    rw [decide_eq_decide]
    constructor
    · intro wanted
      exact List.mem_map_of_mem (List.mem_filter.mpr ⟨member, decide_eq_true wanted⟩)
    · intro named
      obtain ⟨other, kept, same⟩ := List.mem_map.mp named
      rw [← same]
      exact of_decide_eq_true (List.mem_filter.mp kept).2

end MessagePusher.Release
