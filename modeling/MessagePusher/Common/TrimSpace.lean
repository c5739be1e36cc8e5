import Mathlib.Data.List.DropRight
import MessagePusher.Common.Text

/-!
# Texts without white space around them

What `strings.TrimSpace` leaves, and that lower case letters do not change it.
-/

namespace MessagePusher.Common.Text

/-- No white space at the beginning and at the end. -/
structure Trimmed (chars : List Char) : Prop where
  first : ∀ char ∈ chars.head?, isSpace char = false
  last : ∀ char ∈ chars.getLast?, isSpace char = false

theorem toList_trimSpace (text : String) :
    (trimSpace text).toList = (text.toList.dropWhile isSpace).rdropWhile isSpace := by
  rw [trimSpace, String.toList_ofList]
  rfl

theorem trimmed_trimSpace (text : String) : Trimmed (trimSpace text).toList := by
  rw [toList_trimSpace]
  constructor
  · intro char first
    obtain ⟨behind, whole⟩ := List.rdropWhile_prefix isSpace (text.toList.dropWhile isSpace)
    have front : (text.toList.dropWhile isSpace).head? = some char := by
      rw [← whole, List.head?_append, Option.mem_def.mp first]
      rfl
    have solid := List.head?_dropWhile_not isSpace text.toList
    rw [front] at solid
    simpa using solid
  · intro char last
    have some_ : (text.toList.dropWhile isSpace).rdropWhile isSpace ≠ [] := by
      intro none_
      simp [none_] at last
    have solid := List.rdropWhile_last_not isSpace (text.toList.dropWhile isSpace) some_
    rw [List.getLast?_eq_some_getLast some_, Option.mem_some_iff] at last
    rw [last] at solid
    simpa using solid

theorem trimSpace_of_trimmed {text : String} (trimmed : Trimmed text.toList) :
    trimSpace text = text := by
  have front : text.toList.dropWhile isSpace = text.toList := by
    cases chars : text.toList with
    | nil => rfl
    | cons char rest =>
        have solid := trimmed.first char (by rw [chars]; rfl)
        simp [solid]
  have back : text.toList.rdropWhile isSpace = text.toList := by
    rw [List.rdropWhile_eq_self_iff]
    intro some_ blank
    have solid := trimmed.last _ (List.getLast?_eq_some_getLast some_)
    rw [blank] at solid
    cases solid
  rw [← String.toList_inj, toList_trimSpace, front, back]

/-- Only a text of white space is trimmed to nothing. -/
theorem blank_of_trimSpace {text : String} (empty : trimSpace text = "") :
    ∀ char ∈ text.toList, isSpace char = true := by
  have chars := congrArg String.toList empty
  rw [toList_trimSpace] at chars
  have behind : ∀ char ∈ text.toList.dropWhile isSpace, isSpace char = true :=
    List.rdropWhile_eq_nil_iff.mp chars
  intro char member
  rw [← List.takeWhile_append_dropWhile (p := isSpace) (l := text.toList)] at member
  rcases List.mem_append.mp member with front | back
  · exact List.mem_takeWhile_imp front
  · exact behind char back

/-- `unicode.ToLower`: what its table has in common with every table of letters. -/
structure LowerCase (lowerRune : Char → Char) : Prop where
  ascii : ∀ char, char.toNat < 128 → lowerRune char = char.toLower
  lowered : ∀ char, lowerRune (lowerRune char) = lowerRune char
  solid : ∀ char, isSpace (lowerRune char) = true → isSpace char = true

/-- `strings.ToLower`, which replaces one rune after the other. -/
def mapRunes (lowerRune : Char → Char) (text : String) : String :=
  String.ofList (text.toList.map lowerRune)

variable {lowerRune : Char → Char}

theorem mapRunes_mapRunes (table : LowerCase lowerRune) (text : String) :
    mapRunes lowerRune (mapRunes lowerRune text) = mapRunes lowerRune text := by
  rw [mapRunes, mapRunes, String.toList_ofList, List.map_map]
  exact congrArg String.ofList (List.map_congr_left fun char _ => table.lowered char)

theorem trimSpace_mapRunes (table : LowerCase lowerRune) (text : String) :
    trimSpace (mapRunes lowerRune (trimSpace text)) = mapRunes lowerRune (trimSpace text) := by
  have trimmed := trimmed_trimSpace text
  have solid : ∀ char, isSpace char = false → isSpace (lowerRune char) = false := by
    intro char before
    by_contra after
    rw [table.solid char (by simpa using after)] at before
    cases before
  apply trimSpace_of_trimmed
  rw [mapRunes, String.toList_ofList]
  constructor
  · intro char first
    rw [List.head?_map, Option.mem_def, Option.map_eq_some_iff] at first
    obtain ⟨before, first, rfl⟩ := first
    exact solid before (trimmed.first before first)
  · intro char last
    rw [List.getLast?_map, Option.mem_def, Option.map_eq_some_iff] at last
    obtain ⟨before, last, rfl⟩ := last
    exact solid before (trimmed.last before last)

end MessagePusher.Common.Text
