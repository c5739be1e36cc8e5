import MessagePusher.Release.Affixes

/-!
# The tags that a release comes up with

`sanitizeTagName` arrives at the tags that Docker accepts and leaves these as they are, so the
names of the shared tags stand unchanged beside those with the suffix of a variant.
-/

namespace MessagePusher.Release

open Common Scripts Semantics.Fallible

/-- A tag that Docker accepts. -/
structure LegalTag (name : String) : Prop where
  chars : ∀ char ∈ name.toList, char.isAlphanum = true ∨ char ∈ ['_', '.', '-']
  start : ∃ first, name.toList.head? = some first ∧ (first.isAlphanum = true ∨ first = '_')
  short : name.length ≤ 128

variable {engine : Engine} {flavor : Flavor} {ctx : Context} {rules : List Rule} {tags : List Tag}
  {value name : String}

/-! ### One name -/

theorem isTagChar_iff {char : Char} :
    isTagChar char = true ↔ char.isAlphanum = true ∨ char ∈ ['_', '.', '-'] := by
  unfold isTagChar
  rw [Bool.or_eq_true_iff, List.contains_iff_mem]
  rfl

theorem isTagChar_of_collapseInvalid {chars : List Char} {inside : Bool} {char : Char}
    (member : char ∈ collapseInvalid inside chars) : isTagChar char = true := by
  induction chars generalizing inside with
  | nil => cases member
  | cons first rest ih =>
      unfold collapseInvalid at member
      split_ifs at member with legal hidden
      · rcases List.mem_cons.mp member with rfl | later
        · exact legal
        · exact ih later
      · exact ih member
      · rcases List.mem_cons.mp member with rfl | later
        · decide
        · exact ih later

/-- What the sanitizer returns is a tag. -/
theorem LegalTag.of_sanitizeTagName (accepted : sanitizeTagName value = .ok name) :
    LegalTag name := by
  have cleaned := sanitizeTagName_ok accepted
  unfold sanitizeTagName at accepted
  dsimp only at accepted
  rw [← cleaned] at accepted
  split_ifs at accepted with blank long
  have chars : name.toList = (collapseInvalid false (trimChars value.toList)).dropWhile
      fun char => char = '.' || char = '-' := by
    rw [cleaned, cleanTagName, String.toList_ofList]
  have legal : ∀ char ∈ name.toList, isTagChar char = true := by
    intro char member
    rw [chars] at member
    exact isTagChar_of_collapseInvalid ((List.dropWhile_sublist _).subset member)
  refine ⟨fun char member => isTagChar_iff.mp (legal char member), ?_, Nat.not_lt.mp long⟩
  cases shown : name.toList with
  | nil => exact absurd (String.toList_eq_nil_iff.mp shown) blank
  | cons first rest =>
      have notDropped := List.head?_dropWhile_not (fun char => char = '.' || char = '-')
        (collapseInvalid false (trimChars value.toList))
      rw [← chars, shown] at notDropped
      have word : isWordChar first = true :=
        (isWordChar_iff (legal first (shown ▸ List.mem_cons_self))).mpr (by simpa using notDropped)
      exact ⟨first, rfl, by simpa [isWordChar] using word⟩

/-- A tag is left as it is. -/
theorem LegalTag.sanitizeTagName (legal : LegalTag name) : sanitizeTagName name = .ok name := by
  obtain ⟨first, head, word⟩ := legal.start
  obtain ⟨rest, shown⟩ := List.head?_eq_some_iff.mp head
  have chars : ∀ char ∈ name.toList, isTagChar char = true :=
    fun char member => isTagChar_iff.mpr (legal.chars char member)
  have noMark := (isWordChar_iff (chars first (shown ▸ List.mem_cons_self))).mp
    (by simpa [isWordChar] using word)
  have start : first ≠ '.' ∧ first ≠ '-' := by simpa using noMark
  have some_ : name ≠ "" := by
    rintro rfl
    cases shown
  unfold Scripts.sanitizeTagName
  dsimp only
  rw [cleanTagName_of_legal shown chars start, if_neg some_, if_neg (Nat.not_lt.mpr legal.short)]

/-! ### The tags of a variant -/

/-- The shared tags are sanitized when they are collected. -/
theorem legalTag_of_generateTags (done : generateTags engine rules flavor ctx = .ok tags)
    {tag : Tag} (member : tag ∈ tags) : LegalTag tag.name := by
  obtain ⟨collected, latestFrom, all, so, latest, sorted⟩ := generateTags_ok done
  have ofRule : ∀ {tag}, tagOf collected tag.name = some tag → LegalTag tag.name := by
    intro tag found
    obtain ⟨rule, -, adds, -⟩ := so.added tag.name tag found
    obtain ⟨_, -, -, accepted⟩ := Adds.sanitized adds
    exact LegalTag.of_sanitizeTagName accepted
  have listed : tag ∈ all := (sorted tag).mp member
  rcases withLatest_ok latest with ⟨rfl, -⟩ | ⟨name, priority, -, named, -, rfl⟩
  · exact ofRule (so.distinct.mem_iff.mp listed)
  · have found := (so.distinct.addTag _).mem_iff.mp listed
    by_cases isLatest : tag.name = name
    · rw [isLatest]
      exact LegalTag.of_sanitizeTagName named
    · rw [tagOf_addTag, if_neg isLatest] at found
      exact ofRule found

variable {variant : Variant} {isTagEvent : Bool} {names : List String}

/-- What a variant is named comes out of the sanitizer. -/
theorem legalTag_of_variantTagNames (done : variantTagNames tags variant isTagEvent = .ok names)
    (member : name ∈ names) : LegalTag name := by
  obtain ⟨clean, sanitized, same⟩ := bind_ok_iff.1 done
  obtain rfl := pure_ok_iff.1 same
  obtain ⟨raw, -, accepted⟩ := mem_of_mapM sanitized (List.mem_eraseDups.mp member)
  exact LegalTag.of_sanitizeTagName accepted

theorem nodup_eraseDups (names : List String) : names.eraseDups.Nodup := by
  induction length : names.length using Nat.strong_induction_on generalizing names with
  | _ size ih =>
      cases names with
      | nil => exact List.nodup_nil
      | cons first rest =>
          rw [List.eraseDups_cons, List.nodup_cons]
          refine ⟨?_, ih _ ?_ _ rfl⟩
          · intro again
            simpa using (List.mem_filter.mp (List.mem_eraseDups.mp again)).2
          · have kept := List.length_filter_le (fun other => !other == first) rest
            rw [List.length_cons] at length
            omega

theorem nodup_variantTagNames (done : variantTagNames tags variant isTagEvent = .ok names) :
    names.Nodup := by
  obtain ⟨clean, -, same⟩ := bind_ok_iff.1 done
  obtain rfl := pure_ok_iff.1 same
  exact nodup_eraseDups clean

/-- The default variant keeps a tag that is legal. -/
theorem mem_variantTagNames_of_default
    (done : variantTagNames tags variant isTagEvent = .ok names)
    (isDefault : variant.isDefault = true) {tag : Tag} (shared : tag ∈ tags)
    (legal : LegalTag tag.name) : tag.name ∈ names := by
  obtain ⟨clean, sanitized, same⟩ := bind_ok_iff.1 done
  obtain rfl := pure_ok_iff.1 same
  have listed : tag.name ∈ tags.map Tag.name := List.mem_map_of_mem shared
  have given : tag.name ∈ tags.map Tag.name ++
      (tags.filter fun tag => !tag.isLatest).map fun tag => tag.name ++ variant.suffix :=
    List.mem_append_left _ listed
  rw [if_pos isDefault] at sanitized
  obtain ⟨result, member, accepted⟩ : ∃ result ∈ clean,
      sanitizeTagName tag.name = .ok result := by
    split_ifs at sanitized
    · exact mapM_mem sanitized (List.mem_append_left _ given)
    · exact mapM_mem sanitized given
  rw [legal.sanitizeTagName] at accepted
  obtain rfl := Except.ok.inj accepted
  exact List.mem_eraseDups.mpr member

/-- Every name that the sanitizer returns is a tag that it leaves as it is. So are the names of a
variant, which do not repeat and among which the default variant has all shared tags. -/
theorem generated_tags_legal (engine : Engine) :
    (∀ value name, sanitizeTagName value = .ok name →
      LegalTag name ∧ sanitizeTagName name = .ok name) ∧
    ∀ rules flavor ctx tags variant isTagEvent names,
      generateTags engine rules flavor ctx = .ok tags →
      variantTagNames tags variant isTagEvent = .ok names →
      (∀ name ∈ names, LegalTag name ∧ sanitizeTagName name = .ok name) ∧ names.Nodup ∧
        (variant.isDefault = true → ∀ tag ∈ tags, tag.name ∈ names) := by
  refine ⟨?_, ?_⟩
  · intro value name accepted
    have legal := LegalTag.of_sanitizeTagName accepted
    exact ⟨legal, legal.sanitizeTagName⟩
  · intro rules flavor ctx tags variant isTagEvent names generated named
    refine ⟨?_, nodup_variantTagNames named, ?_⟩
    · intro name member
      have legal := legalTag_of_variantTagNames named member
      exact ⟨legal, legal.sanitizeTagName⟩
    · intro isDefault tag shared
      exact mem_variantTagNames_of_default named isDefault shared
        (legalTag_of_generateTags generated shared)

/-- The names of the variant `full` in a release of `v1.2.3-rc.1`. -/
theorem generated_tags_legal_full : ∃ tags names,
    generateTags plainEngine [⟨.raw, [("value", "v1/rc 1"), ("type", "raw")], ""⟩] {}
      preRelease.context = .ok tags ∧
    variantTagNames tags ⟨"full", "Dockerfile.full", "", "-full", true, [], []⟩ true = .ok names ∧
    "v1-rc-1" ∈ names ∧ (∀ name ∈ names, LegalTag name ∧ sanitizeTagName name = .ok name) := by
  have generated : generateTags plainEngine [⟨.raw, [("value", "v1/rc 1"), ("type", "raw")], ""⟩] {}
      preRelease.context = .ok [⟨"v1-rc-1", .ofInt 200, false⟩] := by decide
  obtain ⟨names, named⟩ := exists_ok (by decide : (variantTagNames
    [⟨"v1-rc-1", .ofInt 200, false⟩] ⟨"full", "Dockerfile.full", "", "-full", true, [], []⟩
    true).isOk = true)
  obtain ⟨legal, -, keeps⟩ := (generated_tags_legal plainEngine).2 _ _ _ _ _ _ _ generated named
  exact ⟨_, names, generated, named, keeps rfl _ List.mem_cons_self, legal⟩

end MessagePusher.Release
