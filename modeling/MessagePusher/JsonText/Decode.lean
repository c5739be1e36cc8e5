import MessagePusher.JsonText.Parser
import Mathlib.Data.String.Basic

/-!
# Decoding and encoding

`decode` reads a text that is one JSON value, `decodeLeading` the value at the beginning of a
text. `toMaps` makes maps of the objects: the members sorted by key, the last one of a key kept.
`marshal` writes a value as Go's `json.Marshal` does: no white space, members sorted by key,
`<`, `>` and `&` escaped. A value that was decoded is read back from what is written.
-/

namespace MessagePusher.JsonText

open Common

/-! ### Decoding -/

/-- Every literal of the tree has the content of one. -/
def LiteralsValid (tree : Json) : Prop := ∀ raw ∈ strings tree, (pieces? raw.toList).isSome

instance (tree : Json) : Decidable (LiteralsValid tree) :=
  inferInstanceAs (Decidable (∀ raw ∈ strings tree, (pieces? raw.toList).isSome = true))

/-- The tree of raw literals, when each of them is valid. -/
def checked (tree : Option Json) : Option Json := tree.filter fun tree => decide (LiteralsValid tree)

/-- The tree of raw literals of a text that is one JSON value. -/
def syntaxTree (limit : Nat) (text : String) : Option Json :=
  checked (parseTree limit (lex text.toList))

/-- The first tree of a text, with its literals checked. -/
def leadingTree (limit : Nat) (text : String) : Option Json :=
  checked (parseLeading limit (lex text.toList))

/-- The literals read. -/
def unescapeTree (tree : Json) : Json := mapStrings (overChars unescape) tree

/-- `json.Unmarshal` into a value that keeps its members in order. -/
def decode (limit : Nat) (text : String) : Option Json := (syntaxTree limit text).map unescapeTree

/-- `Decoder.Decode`, which leaves the rest of the text alone. -/
def decodeLeading (limit : Nat) (text : String) : Option Json :=
  (leadingTree limit text).map unescapeTree

/-- The nesting that Go decodes. -/
def maxNestingDepth : Nat := 10000

theorem checked_eq_some_iff {tree : Option Json} {found : Json} :
    checked tree = some found ↔ tree = some found ∧ LiteralsValid found := by
  rw [checked, Option.filter_eq_some_iff, decide_eq_true_eq]

/-- A higher limit of the nesting reads no less. -/
theorem decode_mono {limit more : Nat} (le : limit ≤ more) {text : String} {value : Json}
    (decoded : decode limit text = some value) : decode more text = some value := by
  obtain ⟨tree, found, rfl⟩ := Option.map_eq_some_iff.mp decoded
  obtain ⟨parsed, valid⟩ := checked_eq_some_iff.mp found
  exact Option.map_eq_some_iff.mpr
    ⟨tree, checked_eq_some_iff.mpr ⟨parseTree_mono le parsed, valid⟩, rfl⟩

/-- A text is one value, whatever nesting is allowed. -/
theorem decode_unique {limit other : Nat} {text : String} {value found : Json}
    (decoded : decode limit text = some value) (again : decode other text = some found) :
    value = found := by
  have first := decode_mono (Nat.le_max_left limit other) decoded
  have second := decode_mono (Nat.le_max_right limit other) again
  exact Option.some.inj (first.symm.trans second)

/-! ### Maps -/

/-- A member put into a map, whose members are sorted by key. -/
def insertMember (key : String) (value : Json) : List (String × Json) → List (String × Json)
  | [] => [(key, value)]
  | (other, held) :: rest =>
      if key < other then (key, value) :: (other, held) :: rest
      else if key = other then (key, value) :: rest
      else (other, held) :: insertMember key value rest

/-- The map of members, of which a later one replaces an earlier one of its key. -/
def memberMap (members : List (String × Json)) : List (String × Json) :=
  members.foldl (fun map member => insertMember member.1 member.2 map) []

mutual

/-- The value with maps for objects. -/
def toMaps : Json → Json
  | .null => .null
  | .bool value => .bool value
  | .number literal => .number literal
  | .string value => .string value
  | .array items => .array (itemsToMaps items)
  | .object members => .object (memberMap (membersToMaps members))

/-- Each item with maps for its objects. -/
def itemsToMaps : List Json → List Json
  | [] => []
  | item :: items => toMaps item :: itemsToMaps items

/-- Each value with maps for its objects. -/
def membersToMaps : List (String × Json) → List (String × Json)
  | [] => []
  | (key, value) :: members => (key, toMaps value) :: membersToMaps members

end

/-- `Decoder.Decode` with `UseNumber` into an `interface{}`. -/
def decodeValue (text : String) : Option Json :=
  (decodeLeading maxNestingDepth text).map toMaps

/-- `Decode` into a map; `null` leaves it empty. -/
def decodeMap (text : String) : Option (List (String × Json)) :=
  match decodeValue text with
  | some (.object members) => some members
  | some .null => some []
  | _ => none

theorem itemsToMaps_eq (items : List Json) : itemsToMaps items = items.map toMaps := by
  induction items with
  | nil => rfl
  | cons item items ih => rw [itemsToMaps, ih, List.map_cons]

theorem membersToMaps_eq (members : List (String × Json)) :
    membersToMaps members = members.map fun member => (member.1, toMaps member.2) := by
  induction members with
  | nil => rfl
  | cons member members ih => rw [membersToMaps, ih, List.map_cons]

/-- The members are sorted by key, with one for each key. -/
def KeysSorted (members : List (String × Json)) : Prop :=
  members.Pairwise fun first second => first.1 < second.1

/-- An insertion brings the new member only. -/
theorem mem_insertMember {key : String} {value : Json} {members : List (String × Json)}
    {member : String × Json} (listed : member ∈ insertMember key value members) :
    member = (key, value) ∨ member ∈ members := by
  induction members with
  | nil => exact .inl (List.mem_singleton.mp listed)
  | cons other rest ih =>
      simp only [insertMember] at listed
      split_ifs at listed with before same
      · exact List.mem_cons.mp listed
      · rcases List.mem_cons.mp listed with first | later
        · exact .inl first
        · exact .inr (List.mem_cons_of_mem _ later)
      · rcases List.mem_cons.mp listed with first | later
        · exact .inr (List.mem_cons.mpr (.inl first))
        · rcases ih later with new | held
          · exact .inl new
          · exact .inr (List.mem_cons_of_mem _ held)

/-- An insertion keeps the order of the keys, and replaces the value of one that is there. -/
theorem KeysSorted.insertMember {key : String} {value : Json} {members : List (String × Json)}
    (sorted : KeysSorted members) : KeysSorted (insertMember key value members) := by
  induction members with
  | nil => exact List.pairwise_singleton _ _
  | cons other rest ih =>
      obtain ⟨smallest, tail⟩ := List.pairwise_cons.mp sorted
      simp only [JsonText.insertMember]
      split_ifs with before same
      · refine List.pairwise_cons.mpr ⟨?_, sorted⟩
        intro member listed
        rcases List.mem_cons.mp listed with rfl | later
        · exact before
        · exact before.trans (smallest member later)
      · subst same
        exact List.pairwise_cons.mpr ⟨smallest, tail⟩
      · refine List.pairwise_cons.mpr ⟨?_, ih tail⟩
        intro member listed
        rcases mem_insertMember listed with rfl | held
        · exact lt_of_le_of_ne (not_lt.mp before) (Ne.symm same)
        · exact smallest member held

/-- Whatever the order of the members, the map has its keys in order. -/
theorem memberMap_sorted (members : List (String × Json)) : KeysSorted (memberMap members) := by
  have general : ∀ map, KeysSorted map →
      KeysSorted (members.foldl (fun map member => insertMember member.1 member.2 map) map) := by
    induction members with
    | nil => exact fun _ sorted => sorted
    | cons member members ih => exact fun map sorted => ih _ sorted.insertMember
  exact general [] List.Pairwise.nil

/-- A map invents no member. -/
theorem mem_memberMap {members : List (String × Json)} {member : String × Json}
    (listed : member ∈ memberMap members) : member ∈ members := by
  have general : ∀ map, member ∈ members.foldl
      (fun map member => insertMember member.1 member.2 map) map → member ∈ map ∨ member ∈ members := by
    clear listed
    induction members with
    | nil => exact fun _ listed => .inl listed
    | cons first members ih =>
        intro map listed
        rcases ih _ listed with held | later
        · rcases mem_insertMember held with rfl | held
          · exact .inr List.mem_cons_self
          · exact .inl held
        · exact .inr (List.mem_cons_of_mem _ later)
  rcases general [] listed with held | later
  · cases held
  · exact later

/-- A member with a key beyond all others comes last. -/
theorem insertMember_last {key : String} {value : Json} {members : List (String × Json)}
    (beyond : ∀ member ∈ members, member.1 < key) :
    insertMember key value members = members ++ [(key, value)] := by
  induction members with
  | nil => rfl
  | cons other rest ih =>
      rw [List.forall_mem_cons] at beyond
      rw [insertMember, if_neg beyond.1.not_gt, if_neg beyond.1.ne', ih beyond.2, List.cons_append]

/-- A sorted list of members is its own map. -/
theorem memberMap_of_sorted {members : List (String × Json)} (sorted : KeysSorted members) :
    memberMap members = members := by
  have general : ∀ map, KeysSorted (map ++ members) →
      members.foldl (fun map member => insertMember member.1 member.2 map) map = map ++ members := by
    clear sorted
    induction members with
    | nil => simp
    | cons member members ih =>
        intro map sorted
        have beyond : ∀ other ∈ map, other.1 < member.1 := fun other listed =>
          (List.pairwise_append.mp sorted).2.2 other listed member List.mem_cons_self
        rw [List.foldl_cons, insertMember_last beyond, ih _ (by simpa using sorted)]
        simp
  exact general [] sorted

/-- The objects of the value are maps. -/
def IsMaps (tree : Json) : Prop := ∀ members, Within (.object members) tree → KeysSorted members

/-- The items of a tree of maps are trees of maps. -/
theorem IsMaps.item {items : List Json} (maps : IsMaps (.array items)) {item : Json}
    (listed : item ∈ items) : IsMaps item :=
  fun members within => maps members (.item listed within)

/-- The values of a tree of maps are trees of maps. -/
theorem IsMaps.member {members : List (String × Json)} (maps : IsMaps (.object members))
    {member : String × Json} (listed : member ∈ members) : IsMaps member.2 :=
  fun inner within => maps inner (.member listed within)

theorem isMaps_string (value : String) : IsMaps (.string value) := by
  rintro members ⟨⟩

theorem IsMaps.array {items : List Json} (each : ∀ item ∈ items, IsMaps item) :
    IsMaps (.array items) := by
  intro members within
  rcases within_array.mp within with same | ⟨item, listed, within⟩
  · cases same
  · exact each item listed members within

theorem IsMaps.object {members : List (String × Json)} (sorted : KeysSorted members)
    (each : ∀ member ∈ members, IsMaps member.2) : IsMaps (.object members) := by
  intro inner within
  rcases within_object.mp within with same | ⟨member, listed, within⟩
  · rw [Json.object.inj same]
    exact sorted
  · exact each member listed inner within

/-- Every value within the maps comes from one within the tree, with the same numbers. -/
theorem within_toMaps {inner tree : Json} (within : Within inner (toMaps tree)) :
    ∃ source, Within source tree ∧ inner = toMaps source := by
  induction tree using treeInduction with
  | array items ih =>
      rw [toMaps, itemsToMaps_eq, within_array] at within
      rcases within with rfl | ⟨item, listed, within⟩
      · exact ⟨_, .self, by rw [toMaps, itemsToMaps_eq]⟩
      · obtain ⟨source, member, rfl⟩ := List.mem_map.mp listed
        obtain ⟨found, inside, rfl⟩ := ih source member within
        exact ⟨found, .item member inside, rfl⟩
  | object members ih =>
      rw [toMaps, membersToMaps_eq, within_object] at within
      rcases within with rfl | ⟨member, listed, within⟩
      · exact ⟨_, .self, by rw [toMaps, membersToMaps_eq]⟩
      · obtain ⟨source, member, rfl⟩ := List.mem_map.mp (mem_memberMap listed)
        obtain ⟨found, inside, rfl⟩ := ih source member within
        exact ⟨found, .member member inside, rfl⟩
  | _ =>
      refine ⟨_, .self, within_scalar within ?_ ?_⟩
      · rintro items ⟨⟩
      · rintro members ⟨⟩

/-- What becomes of a tree of objects is a tree of maps. -/
theorem isMaps_toMaps (tree : Json) : IsMaps (toMaps tree) := by
  intro members within
  obtain ⟨source, -, same⟩ := within_toMaps within
  cases source with
  | object =>
      obtain rfl := Json.object.inj same
      exact memberMap_sorted _
  | _ => cases same

/-- Maps keep the numbers that are left as they are. -/
theorem NumbersValid.toMaps {tree : Json} (valid : NumbersValid tree) : NumbersValid (toMaps tree) := by
  intro literal within
  obtain ⟨source, inside, same⟩ := within_toMaps within
  cases source with
  | number found =>
      obtain rfl := Json.number.inj same
      exact valid literal inside
  | _ => cases same

/-- Maps are no deeper, since a repeated key may drop the deepest value. -/
theorem depth_toMaps_le (tree : Json) : depth (toMaps tree) ≤ depth tree := by
  induction tree using treeInduction with
  | array items ih =>
      rw [toMaps, itemsToMaps_eq]
      refine depth_array_le fun item listed => ?_
      obtain ⟨source, member, rfl⟩ := List.mem_map.mp listed
      exact ⟨source, member, ih source member⟩
  | object members ih =>
      rw [toMaps, membersToMaps_eq]
      refine depth_object_le fun member listed => ?_
      obtain ⟨source, member, rfl⟩ := List.mem_map.mp (mem_memberMap listed)
      exact ⟨source, member, ih source member⟩
  | _ => exact Nat.le_refl _

/-- Maps are left as they are. -/
theorem toMaps_of_isMaps {tree : Json} (maps : IsMaps tree) : toMaps tree = tree := by
  induction tree using treeInduction with
  | array items ih =>
      rw [toMaps, itemsToMaps_eq]
      have each : items.map toMaps = items.map id :=
        List.map_congr_left fun item listed => ih item listed (maps.item listed)
      rw [each, List.map_id]
  | object members ih =>
      rw [toMaps, membersToMaps_eq]
      have each : members.map (fun member => (member.1, toMaps member.2)) = members.map id := by
        apply List.map_congr_left
        intro member listed
        rw [ih member listed (maps.member listed)]
        rfl
      rw [each, List.map_id, memberMap_of_sorted (maps members .self)]
  | _ => rfl

/-! ### Encoding -/

/-- The raw spelling of a character, as `json.Marshal` has it. -/
def escapeChar (char : Char) : List Char :=
  if char = '"' then ['\\', '"']
  else if char = '\\' then ['\\', '\\']
  else if char.toNat = 0x08 then ['\\', 'b']
  else if char.toNat = 0x0c then ['\\', 'f']
  else if char = '\n' then ['\\', 'n']
  else if char = '\r' then ['\\', 'r']
  else if char = '\t' then ['\\', 't']
  else if char.toNat < 0x20 ∨ char = '<' ∨ char = '>' ∨ char = '&' ∨ char.toNat = 0x2028 ∨
      char.toNat = 0x2029 then
    '\\' :: 'u' :: hexFour char.toNat
  else [char]

/-- A text as the contents of a literal. -/
def escapeText (text : List Char) : List Char := text.flatMap escapeChar

/-- A tree of texts as a tree of literals. -/
def escapeTree (tree : Json) : Json := mapStrings (overChars escapeText) tree

/-- `json.Marshal`, `none` for a number that JSON does not have. -/
def marshal (value : Json) : Option String :=
  if NumbersValid value then some (String.ofList (text (escapeTree value))) else none

/-- What is escaped is a literal of the character. -/
theorem spells_escapeChar (char : Char) : Spells (escapeChar char) (.char char) := by
  have same : ∀ {code : Nat}, char.toNat = code → Char.ofNat code = char := by
    rintro _ rfl
    exact Char.ofNat_toNat char
  unfold escapeChar
  split_ifs with quote slash back form line carriage tab other
  · subst quote
    exact .short rfl
  · subst slash
    exact .short rfl
  · rw [← same back]
    exact .short rfl
  · rw [← same form]
    exact .short rfl
  · subst line
    exact .short rfl
  · subst carriage
    exact .short rfl
  · subst tab
    exact .short rfl
  · have small : char.toNat < 0xd800 := by
      rcases other with low | rfl | rfl | rfl | high | high <;> first | omega | decide
    rw [← Piece.ofCode_toNat]
    exact .unicode (hexCode_hexFour (by omega))
  · refine .plain ?_
    simp only [isPlain, Bool.and_eq_true, decide_eq_true_eq]
    refine ⟨⟨?_, quote⟩, slash⟩
    by_contra low
    exact other (.inl (by omega))

/-- Every escape that is written is one character of the text. -/
theorem pieces?_escapeText (text : List Char) :
    pieces? (escapeText text) = some (text.map .char) := by
  induction text with
  | nil => rfl
  | cons char text ih =>
      rw [escapeText, List.flatMap_cons, (spells_escapeChar char).pieces?]
      exact congrArg (Option.map _) ih

/-- A text is read as it was written. -/
@[simp]
theorem unescape_escapeText (text : List Char) : unescape (escapeText text) = text := by
  have chars := joinPieces_map_char text []
  rw [unescape, pieces?_escapeText, Option.getD_some]
  simpa using chars

/-- A tree of texts is read as it was written. -/
@[simp]
theorem unescapeTree_escapeTree (tree : Json) : unescapeTree (escapeTree tree) = tree := by
  rw [unescapeTree, escapeTree, mapStrings_mapStrings]
  exact mapStrings_id fun text _ => by simp [overChars]

/-- What is written is valid. -/
theorem literalsValid_escapeTree (tree : Json) : LiteralsValid (escapeTree tree) := by
  intro raw inside
  rw [escapeTree, strings_mapStrings] at inside
  obtain ⟨source, -, rfl⟩ := List.mem_map.mp inside
  rw [overChars_toList, pieces?_escapeText]
  rfl

/-- The text of a tree of raw literals is read back. -/
theorem syntaxTree_text {limit : Nat} {tree : Json} (numbers : NumbersValid tree)
    (literals : LiteralsValid tree) (shallow : depth tree ≤ limit) :
    syntaxTree limit (String.ofList (text tree)) = some tree := by
  have enclosed : ∀ raw ∈ strings tree, Enclosed raw.toList := by
    intro raw inside
    obtain ⟨pieces, read⟩ := Option.isSome_iff_exists.mp (literals raw inside)
    exact enclosed_of_pieces? read
  rw [syntaxTree, checked_eq_some_iff, String.toList_ofList, lex_text numbers enclosed]
  exact ⟨parseTree_tokens shallow, literals⟩

/-- What `marshal` writes is read back, as far as the nesting allows. -/
theorem decode_marshal {limit : Nat} {value : Json} {text : String}
    (written : marshal value = some text) (shallow : depth value ≤ limit) :
    decode limit text = some value := by
  rw [marshal] at written
  split_ifs at written with valid
  obtain rfl := Option.some.inj written
  have numbers : NumbersValid (escapeTree value) := by
    rintro literal within
    exact valid literal (within_number_mapStrings.mp within)
  have parsed : syntaxTree limit (String.ofList (JsonText.text (escapeTree value))) =
      some (escapeTree value) := by
    refine syntaxTree_text numbers (literalsValid_escapeTree value) ?_
    rw [escapeTree, depth_mapStrings]
    exact shallow
  rw [decode, parsed, Option.map_some, unescapeTree_escapeTree]

/-- A whole text has its value in front. -/
theorem decodeLeading_of_decode {limit : Nat} {text : String} {value : Json}
    (decoded : decode limit text = some value) : decodeLeading limit text = some value := by
  obtain ⟨tree, found, rfl⟩ := Option.map_eq_some_iff.mp decoded
  obtain ⟨parsed, valid⟩ := checked_eq_some_iff.mp found
  refine Option.map_eq_some_iff.mpr ⟨tree, checked_eq_some_iff.mpr ⟨?_, valid⟩, rfl⟩
  exact parseLeading_of_parseTree parsed

/-- A value of maps is decoded from what is written of it. -/
theorem decodeValue_marshal {value : Json} {text : String} (written : marshal value = some text)
    (shallow : depth value ≤ maxNestingDepth) (maps : IsMaps value) :
    decodeValue text = some value := by
  rw [decodeValue, decodeLeading_of_decode (decode_marshal written shallow), Option.map_some,
    toMaps_of_isMaps maps]

/-! ### What is decoded can be written -/

/-- The numbers of a tree were numbers of the text. -/
theorem numbersValid_of_parseLeading {limit : Nat} {text : List Char} {tree : Json}
    (parsed : parseLeading limit (lex text) = some tree) : NumbersValid tree := by
  refine @parseLeading_holds limit (fun _ => NumbersValid) _ _ ⟨?_, ?_⟩ ?_ parsed
  · intro _ _ items each literal within
    rcases within_array.mp within with same | ⟨item, listed, within⟩
    · cases same
    · exact each item listed literal within
  · intro _ _ members each literal within
    rcases within_object.mp within with same | ⟨member, listed, within⟩
    · cases same
    · exact each member listed literal within
  · intro token listed found scalar _ _ literal within
    cases scalar with
    | @number chars =>
        cases within
        rw [String.toList_ofList]
        exact @isNumber_of_mem _ _ .idle trivial listed
    | _ => cases within

/-- A tree is no deeper than the limit. -/
theorem depth_of_parseLeading {limit : Nat} {tokens : List Token} {tree : Json}
    (parsed : parseLeading limit tokens = some tree) : depth tree ≤ limit := by
  have bounded := @parseLeading_holds limit (fun level tree => level + depth tree ≤ limit)
    tokens tree ⟨?_, ?_⟩ ?_ parsed
  · simpa using bounded
  · intro level room items each
    rw [depth]
    have inner : itemsDepth items ≤ limit - (level + 1) :=
      itemsDepth_le_iff.mpr fun item listed => by
        have bound := each item listed
        omega
    omega
  · intro level room members each
    rw [depth]
    have inner : membersDepth members ≤ limit - (level + 1) :=
      membersDepth_le_iff.mpr fun member listed => by
        have bound := each member listed
        omega
    omega
  · intro token _ found scalar level bound
    cases scalar <;> simpa [depth] using bound

/-- The numbers of a value were numbers of the text. -/
theorem numbersValid_of_decode {limit : Nat} {text : String} {value : Json}
    (decoded : decode limit text = some value) : NumbersValid value := by
  obtain ⟨raw, leading, rfl⟩ := Option.map_eq_some_iff.mp (decodeLeading_of_decode decoded)
  obtain ⟨parsed, -⟩ := checked_eq_some_iff.mp leading
  intro literal within
  exact numbersValid_of_parseLeading parsed literal (within_number_mapStrings.mp within)

/-- A value is no deeper than the limit. -/
theorem depth_of_decode {limit : Nat} {text : String} {value : Json}
    (decoded : decode limit text = some value) : depth value ≤ limit := by
  obtain ⟨raw, leading, rfl⟩ := Option.map_eq_some_iff.mp (decodeLeading_of_decode decoded)
  obtain ⟨parsed, -⟩ := checked_eq_some_iff.mp leading
  rw [unescapeTree, depth_mapStrings]
  exact depth_of_parseLeading parsed

/-- What a decoded value is like. -/
structure Decoded (value : Json) : Prop where
  numbers : NumbersValid value
  shallow : depth value ≤ maxNestingDepth
  maps : IsMaps value

/-- What `json.Unmarshal` answers is a tree of maps with valid numbers. -/
theorem decoded_of_decodeValue {text : String} {value : Json}
    (decoded : decodeValue text = some value) : Decoded value := by
  obtain ⟨tree, found, rfl⟩ := Option.map_eq_some_iff.mp decoded
  obtain ⟨raw, leading, rfl⟩ := Option.map_eq_some_iff.mp found
  obtain ⟨parsed, -⟩ := checked_eq_some_iff.mp leading
  have numbers : NumbersValid (unescapeTree raw) := by
    intro literal within
    exact numbersValid_of_parseLeading parsed literal (within_number_mapStrings.mp within)
  refine ⟨numbers.toMaps, (depth_toMaps_le _).trans ?_, isMaps_toMaps _⟩
  rw [unescapeTree, depth_mapStrings]
  exact depth_of_parseLeading parsed

/-- A part of what was decoded might have been decoded itself. -/
theorem Decoded.within {inner value : Json} (decoded : Decoded value) (within : Within inner value) :
    Decoded inner where
  numbers := fun literal inside => decoded.numbers literal (inside.trans within)
  shallow := (depth_le_of_within within).trans decoded.shallow
  maps := fun members inside => decoded.maps members (inside.trans within)

/-- A change of the strings alone keeps what makes a value one that was decoded. -/
theorem Decoded.mapLeaves {value : Json} (decoded : Decoded value) (change : String → String) :
    Decoded (mapLeaves change value) where
  numbers := by
    intro literal within
    obtain ⟨source, inside, same⟩ := within_mapLeaves within
    cases source with
    | number found =>
        obtain rfl := Json.number.inj same
        exact decoded.numbers literal inside
    | _ => cases same
  shallow := (depth_mapLeaves_le change value).trans decoded.shallow
  maps := by
    intro members within
    obtain ⟨source, inside, same⟩ := within_mapLeaves within
    cases source with
    | object found =>
        obtain rfl := Json.object.inj same
        rw [mapLeafMembers_eq]
        exact List.pairwise_map.mpr (decoded.maps found inside)
    | _ => cases same

/-- A decoded value is written, and what is written denotes it. -/
theorem Decoded.marshal {value : Json} (decoded : Decoded value) :
    ∃ text, marshal value = some text ∧ decode maxNestingDepth text = some value ∧
      decodeValue text = some value := by
  have written : JsonText.marshal value =
      some (String.ofList (JsonText.text (escapeTree value))) := if_pos decoded.numbers
  exact ⟨_, written, decode_marshal written decoded.shallow,
    decodeValue_marshal written decoded.shallow decoded.maps⟩

/-- What is looked up in a decoded map, with `null` for an absent key. -/
theorem decoded_of_decodeMap {text : String} {members : List (String × Json)}
    (decoded : decodeMap text = some members) (key : String) :
    Decoded ((members.lookup key).getD .null) := by
  have absent : Decoded .null := by
    refine ⟨?_, Nat.zero_le _, ?_⟩
    · rintro literal ⟨⟩
    · rintro members ⟨⟩
  unfold decodeMap at decoded
  split at decoded
  · next whole =>
    cases decoded
    cases found : List.lookup key members with
    | none => exact absent
    | some value =>
        obtain ⟨before, after, rfl, -⟩ := List.lookup_eq_some_iff.mp found
        have listed : (key, value) ∈ before ++ (key, value) :: after := by simp
        exact (decoded_of_decodeValue whole).within (.member listed .self)
  · cases decoded
    exact absent
  · cases decoded

end MessagePusher.JsonText
