import Mathlib.Data.List.Forall2
import MessagePusher.Common.Json
import MessagePusher.JsonText.Lexer

/-!
# Trees

What the later modules do with JSON values member by member: change the strings, list them,
measure the nesting, write the tokens and the text. A tree may hold raw literals in the place
of strings.
-/

namespace MessagePusher.JsonText

open Common

/-- Induction with one hypothesis for each item and for each member. -/
@[elab_as_elim]
theorem treeInduction {motive : Json → Prop} (null : motive .null)
    (bool : ∀ value, motive (.bool value)) (number : ∀ literal, motive (.number literal))
    (string : ∀ value, motive (.string value))
    (array : ∀ items, (∀ item ∈ items, motive item) → motive (.array items))
    (object : ∀ members, (∀ member ∈ members, motive member.2) → motive (.object members)) :
    ∀ tree, motive tree
  | .null => null
  | .bool value => bool value
  | .number literal => number literal
  | .string value => string value
  | .array items => array items fun item _ =>
      treeInduction null bool number string array object item
  | .object members => object members fun member listed => by
      have smaller := List.sizeOf_lt_of_mem listed
      exact treeInduction null bool number string array object member.2
  termination_by tree => sizeOf tree
  decreasing_by
    · have smaller := List.sizeOf_lt_of_mem ‹_ ∈ items›
      simp only [Json.array.sizeOf_spec]
      omega
    · cases member
      simp only [Prod.mk.sizeOf_spec, Json.object.sizeOf_spec] at smaller ⊢
      omega

/-! ### Strings -/

mutual

/-- The tree with its strings and keys changed. -/
def mapStrings (change : String → String) : Json → Json
  | .null => .null
  | .bool value => .bool value
  | .number literal => .number literal
  | .string value => .string (change value)
  | .array items => .array (mapItems change items)
  | .object members => .object (mapMembers change members)

/-- The change in each item. -/
def mapItems (change : String → String) : List Json → List Json
  | [] => []
  | item :: items => mapStrings change item :: mapItems change items

/-- The change in each key and each value. -/
def mapMembers (change : String → String) : List (String × Json) → List (String × Json)
  | [] => []
  | (key, value) :: members => (change key, mapStrings change value) :: mapMembers change members

end

mutual

/-- The strings and keys of a tree, in the order of its text. -/
def strings : Json → List String
  | .null | .bool _ | .number _ => []
  | .string value => [value]
  | .array items => itemStrings items
  | .object members => memberStrings members

/-- The strings of the items, in order. -/
def itemStrings : List Json → List String
  | [] => []
  | item :: items => strings item ++ itemStrings items

/-- Each key in front of the strings of its value. -/
def memberStrings : List (String × Json) → List String
  | [] => []
  | (key, value) :: members => key :: strings value ++ memberStrings members

end

/-- The items are changed one by one. -/
@[simp]
theorem mapItems_eq (change : String → String) (items : List Json) :
    mapItems change items = items.map (mapStrings change) := by
  induction items with
  | nil => rfl
  | cons item items ih => rw [mapItems, ih, List.map_cons]

/-- The members are changed one by one. -/
@[simp]
theorem mapMembers_eq (change : String → String) (members : List (String × Json)) :
    mapMembers change members =
      members.map fun member => (change member.1, mapStrings change member.2) := by
  induction members with
  | nil => rfl
  | cons member members ih => rw [mapMembers, ih, List.map_cons]

@[simp]
theorem itemStrings_eq (items : List Json) : itemStrings items = items.flatMap strings := by
  induction items with
  | nil => rfl
  | cons item items ih => rw [itemStrings, ih, List.flatMap_cons]

@[simp]
theorem memberStrings_eq (members : List (String × Json)) :
    memberStrings members = members.flatMap fun member => member.1 :: strings member.2 := by
  induction members with
  | nil => rfl
  | cons member members ih => rw [memberStrings, ih, List.flatMap_cons]

/-- The strings of an item are strings of the array. -/
theorem mem_strings_item {items : List Json} {item : Json} {raw : String} (listed : item ∈ items)
    (inside : raw ∈ strings item) : raw ∈ strings (.array items) := by
  rw [strings, itemStrings_eq]
  exact List.mem_flatMap.mpr ⟨item, listed, inside⟩

/-- A key and the strings of its value are strings of the object. -/
theorem mem_strings_member {members : List (String × Json)} {member : String × Json} {raw : String}
    (listed : member ∈ members) (inside : raw ∈ member.1 :: strings member.2) :
    raw ∈ strings (.object members) := by
  rw [strings, memberStrings_eq]
  exact List.mem_flatMap.mpr ⟨member, listed, inside⟩

/-- A change of the strings changes the list of them. -/
@[simp]
theorem strings_mapStrings (change : String → String) (tree : Json) :
    strings (mapStrings change tree) = (strings tree).map change := by
  induction tree using treeInduction with
  | null | bool | number | string => rfl
  | array items ih =>
      simp only [mapStrings, mapItems_eq, strings, itemStrings_eq, List.flatMap_map, List.map_flatMap]
      exact List.flatMap_congr ih
  | object members ih =>
      simp only [mapStrings, mapMembers_eq, strings, memberStrings_eq, List.flatMap_map,
        List.map_flatMap, List.map_cons]
      exact List.flatMap_congr fun member listed => congrArg _ (ih member listed)

/-- Two changes give the same tree just when they agree on its strings. -/
theorem mapStrings_eq_iff {change change' : String → String} {tree : Json} :
    mapStrings change tree = mapStrings change' tree ↔
      ∀ text ∈ strings tree, change text = change' text := by
  induction tree using treeInduction with
  | null | bool | number => simp [mapStrings, strings]
  | string => simp [mapStrings, strings]
  | array items ih =>
      simp only [mapStrings, mapItems_eq, Json.array.injEq, List.map_inj_left, strings,
        itemStrings_eq, List.mem_flatMap]
      constructor
      · rintro agree text ⟨item, listed, member⟩
        exact (ih item listed).mp (agree item listed) text member
      · intro agree item listed
        exact (ih item listed).mpr fun text member => agree text ⟨item, listed, member⟩
  | object members ih =>
      simp only [mapStrings, mapMembers_eq, Json.object.injEq, List.map_inj_left, Prod.mk.injEq,
        strings, memberStrings_eq, List.mem_flatMap, List.mem_cons]
      constructor
      · rintro agree text ⟨member, listed, rfl | inside⟩
        · exact (agree member listed).1
        · exact (ih member listed).mp (agree member listed).2 text inside
      · intro agree member listed
        refine ⟨agree member.1 ⟨member, listed, .inl rfl⟩, (ih member listed).mpr ?_⟩
        exact fun text inside => agree text ⟨member, listed, .inr inside⟩

/-- Two changes make one. -/
@[simp]
theorem mapStrings_mapStrings (change change' : String → String) (tree : Json) :
    mapStrings change (mapStrings change' tree) = mapStrings (change ∘ change') tree := by
  induction tree using treeInduction with
  | null | bool | number | string => rfl
  | array items ih =>
      simp only [mapStrings, mapItems_eq, List.map_map, Json.array.injEq]
      exact List.map_congr_left ih
  | object members ih =>
      simp only [mapStrings, mapMembers_eq, List.map_map, Json.object.injEq]
      apply List.map_congr_left
      intro member listed
      exact Prod.ext rfl (ih member listed)

/-- A change that leaves the strings of a tree leaves the tree. -/
theorem mapStrings_id {change : String → String} {tree : Json}
    (same : ∀ text ∈ strings tree, change text = text) : mapStrings change tree = tree := by
  have identity : mapStrings (fun text => text) tree = tree := by
    clear same
    induction tree using treeInduction with
    | null | bool | number | string => rfl
    | array items ih =>
        simp only [mapStrings, mapItems_eq, Json.array.injEq]
        exact (List.map_congr_left ih).trans (List.map_id items)
    | object members ih =>
        simp only [mapStrings, mapMembers_eq, Json.object.injEq]
        refine (List.map_congr_left fun member listed => ?_).trans (List.map_id members)
        exact Prod.ext rfl (ih member listed)
  rw [← identity, mapStrings_mapStrings]
  exact mapStrings_eq_iff.mpr same

mutual

/-- The tree with its strings changed and its keys left alone. -/
def mapLeaves (change : String → String) : Json → Json
  | .string value => .string (change value)
  | .array items => .array (mapLeafItems change items)
  | .object members => .object (mapLeafMembers change members)
  | value => value

/-- The change in each item. -/
def mapLeafItems (change : String → String) : List Json → List Json
  | [] => []
  | item :: items => mapLeaves change item :: mapLeafItems change items

/-- The change in each value, with the keys as they are. -/
def mapLeafMembers (change : String → String) : List (String × Json) → List (String × Json)
  | [] => []
  | (key, value) :: members => (key, mapLeaves change value) :: mapLeafMembers change members

end

theorem mapLeafItems_eq (change : String → String) (items : List Json) :
    mapLeafItems change items = items.map (mapLeaves change) := by
  induction items with
  | nil => rfl
  | cons item items ih => rw [mapLeafItems, ih, List.map_cons]

theorem mapLeafMembers_eq (change : String → String) (members : List (String × Json)) :
    mapLeafMembers change members =
      members.map fun member => (member.1, mapLeaves change member.2) := by
  induction members with
  | nil => rfl
  | cons member members ih => rw [mapLeafMembers, ih, List.map_cons]

/-! ### Values within a tree -/

/-- A value of the tree. -/
inductive Within (inner : Json) : Json → Prop where
  | self : Within inner inner
  | item {items item} (listed : item ∈ items) (within : Within inner item) :
      Within inner (.array items)
  | member {members member} (listed : member ∈ members) (within : Within inner member.2) :
      Within inner (.object members)

/-- What an array contains is itself or in an item. -/
theorem within_array {inner : Json} {items : List Json} :
    Within inner (.array items) ↔ inner = .array items ∨ ∃ item ∈ items, Within inner item := by
  constructor
  · rintro (_ | ⟨listed, within⟩)
    · exact .inl rfl
    · exact .inr ⟨_, listed, within⟩
  · rintro (rfl | ⟨item, listed, within⟩)
    · exact .self
    · exact .item listed within

/-- What an object contains is itself or in a value. -/
theorem within_object {inner : Json} {members : List (String × Json)} :
    Within inner (.object members) ↔
      inner = .object members ∨ ∃ member ∈ members, Within inner member.2 := by
  constructor
  · rintro (_ | _ | ⟨listed, within⟩)
    · exact .inl rfl
    · exact .inr ⟨_, listed, within⟩
  · rintro (rfl | ⟨member, listed, within⟩)
    · exact .self
    · exact .member listed within

/-- A tree that is neither an array nor an object contains itself only. -/
theorem within_scalar {inner tree : Json} (within : Within inner tree)
    (noArray : ∀ items, tree ≠ .array items) (noObject : ∀ members, tree ≠ .object members) :
    inner = tree := by
  cases within with
  | self => rfl
  | item => exact absurd rfl (noArray _)
  | member => exact absurd rfl (noObject _)

theorem within_number {literal other : String}
    (within : Within (.number literal) (.number other)) : literal = other := by
  cases within
  rfl

/-- What is within a part is within the whole. -/
theorem Within.trans {inner middle tree : Json} (within : Within inner middle)
    (outer : Within middle tree) : Within inner tree := by
  induction outer with
  | self => exact within
  | item listed _ ih => exact .item listed ih
  | member listed _ ih => exact .member listed ih

/-- Every value within the changed tree comes from one within the tree. -/
theorem within_mapLeaves {change : String → String} {inner tree : Json}
    (within : Within inner (mapLeaves change tree)) :
    ∃ source, Within source tree ∧ inner = mapLeaves change source := by
  induction tree using treeInduction with
  | array items ih =>
      rw [mapLeaves, mapLeafItems_eq, within_array] at within
      rcases within with rfl | ⟨item, listed, within⟩
      · exact ⟨_, .self, by rw [mapLeaves, mapLeafItems_eq]⟩
      · obtain ⟨source, member, rfl⟩ := List.mem_map.mp listed
        obtain ⟨found, inside, rfl⟩ := ih source member within
        exact ⟨found, .item member inside, rfl⟩
  | object members ih =>
      rw [mapLeaves, mapLeafMembers_eq, within_object] at within
      rcases within with rfl | ⟨member, listed, within⟩
      · exact ⟨_, .self, by rw [mapLeaves, mapLeafMembers_eq]⟩
      · obtain ⟨source, member, rfl⟩ := List.mem_map.mp listed
        obtain ⟨found, inside, rfl⟩ := ih source member within
        exact ⟨found, .member member inside, rfl⟩
  | _ =>
      refine ⟨_, .self, within_scalar within ?_ ?_⟩
      · rintro items ⟨⟩
      · rintro members ⟨⟩

mutual

/-- The numbers of a tree. -/
def numbers : Json → List String
  | .number literal => [literal]
  | .array items => itemNumbers items
  | .object members => memberNumbers members
  | _ => []

/-- The literals of the items, in order. -/
def itemNumbers : List Json → List String
  | [] => []
  | item :: items => numbers item ++ itemNumbers items

/-- The literals of the values, in order. -/
def memberNumbers : List (String × Json) → List String
  | [] => []
  | (_, value) :: members => numbers value ++ memberNumbers members

end

theorem mem_itemNumbers {items : List Json} {literal : String} :
    literal ∈ itemNumbers items ↔ ∃ item ∈ items, literal ∈ numbers item := by
  induction items with
  | nil => simp [itemNumbers]
  | cons item items ih => simp [itemNumbers, ih]

theorem mem_memberNumbers {members : List (String × Json)} {literal : String} :
    literal ∈ memberNumbers members ↔ ∃ member ∈ members, literal ∈ numbers member.2 := by
  induction members with
  | nil => simp [memberNumbers]
  | cons member members ih => simp [memberNumbers, ih]

/-- The literals of a tree are those of the numbers within it. -/
theorem mem_numbers_iff {tree : Json} {literal : String} :
    literal ∈ numbers tree ↔ Within (.number literal) tree := by
  induction tree using treeInduction with
  | array items ih =>
      rw [numbers, mem_itemNumbers, within_array]
      simp only [reduceCtorEq, false_or]
      exact exists_congr fun item => and_congr_right fun listed => ih item listed
  | object members ih =>
      rw [numbers, mem_memberNumbers, within_object]
      simp only [reduceCtorEq, false_or]
      exact exists_congr fun member => and_congr_right fun listed => ih member listed
  | number other =>
      refine List.mem_singleton.trans ⟨?_, ?_⟩
      · rintro rfl
        exact .self
      · rintro ⟨⟩
        rfl
  | _ =>
      refine iff_of_false List.not_mem_nil ?_
      rintro ⟨⟩

/-- The numbers of a tree are not strings of it. -/
@[simp]
theorem numbers_mapStrings (change : String → String) (tree : Json) :
    numbers (mapStrings change tree) = numbers tree := by
  have sameItems : ∀ items : List Json,
      (∀ item ∈ items, numbers (mapStrings change item) = numbers item) →
      itemNumbers (items.map (mapStrings change)) = itemNumbers items := by
    intro items same
    induction items with
    | nil => rfl
    | cons item items ih =>
        rw [List.forall_mem_cons] at same
        rw [List.map_cons, itemNumbers, itemNumbers, same.1, ih same.2]
  have sameMembers : ∀ members : List (String × Json),
      (∀ member ∈ members, numbers (mapStrings change member.2) = numbers member.2) →
      memberNumbers (members.map fun member => (change member.1, mapStrings change member.2)) =
        memberNumbers members := by
    intro members same
    induction members with
    | nil => rfl
    | cons member members ih =>
        rw [List.forall_mem_cons] at same
        rw [List.map_cons, memberNumbers, memberNumbers, same.1, ih same.2]
  induction tree using treeInduction with
  | null | bool | number | string => rfl
  | array items ih => rw [mapStrings, mapItems_eq, numbers, numbers, sameItems items ih]
  | object members ih => rw [mapStrings, mapMembers_eq, numbers, numbers, sameMembers members ih]

theorem within_number_mapStrings {change : String → String} {tree : Json} {literal : String} :
    Within (.number literal) (mapStrings change tree) ↔ Within (.number literal) tree := by
  rw [← mem_numbers_iff, numbers_mapStrings, mem_numbers_iff]

/-- The numbers of a tree are written as JSON writes them. -/
def NumbersValid (tree : Json) : Prop :=
  ∀ literal, Within (.number literal) tree → isNumber literal.toList

instance (tree : Json) : Decidable (NumbersValid tree) :=
  decidable_of_iff (∀ literal ∈ numbers tree, isNumber literal.toList = true)
    (forall_congr' fun _ => imp_congr_left mem_numbers_iff)

mutual

/-- The number of arrays and objects around the innermost values. -/
def depth : Json → Nat
  | .array items => itemsDepth items + 1
  | .object members => membersDepth members + 1
  | _ => 0

/-- The deepest item. -/
def itemsDepth : List Json → Nat
  | [] => 0
  | item :: items => max (depth item) (itemsDepth items)

/-- The deepest value. -/
def membersDepth : List (String × Json) → Nat
  | [] => 0
  | (_, value) :: members => max (depth value) (membersDepth members)

end

theorem itemsDepth_le_iff {items : List Json} {bound : Nat} :
    itemsDepth items ≤ bound ↔ ∀ item ∈ items, depth item ≤ bound := by
  induction items with
  | nil => simp [itemsDepth]
  | cons item items ih => rw [itemsDepth, Nat.max_le, ih, List.forall_mem_cons]

theorem membersDepth_le_iff {members : List (String × Json)} {bound : Nat} :
    membersDepth members ≤ bound ↔ ∀ member ∈ members, depth member.2 ≤ bound := by
  induction members with
  | nil => simp [membersDepth]
  | cons member members ih => rw [membersDepth, Nat.max_le, ih, List.forall_mem_cons]

/-- A part is no deeper than the whole. -/
theorem depth_le_of_within {inner tree : Json} (within : Within inner tree) :
    depth inner ≤ depth tree := by
  induction within with
  | self => exact Nat.le_refl _
  | item listed _ ih =>
      have bound := itemsDepth_le_iff.mp (Nat.le_refl _) _ listed
      rw [depth]
      omega
  | member listed _ ih =>
      have bound := membersDepth_le_iff.mp (Nat.le_refl _) _ listed
      rw [depth]
      omega

/-- An array whose items are no deeper than those of another is no deeper. -/
theorem depth_array_le {items others : List Json}
    (each : ∀ item ∈ others, ∃ source ∈ items, depth item ≤ depth source) :
    depth (.array others) ≤ depth (.array items) := by
  rw [depth, depth, Nat.add_le_add_iff_right, itemsDepth_le_iff]
  intro item listed
  obtain ⟨source, member, below⟩ := each item listed
  exact Nat.le_trans below (itemsDepth_le_iff.mp (Nat.le_refl _) source member)

/-- The same for the values of an object. -/
theorem depth_object_le {members others : List (String × Json)}
    (each : ∀ member ∈ others, ∃ source ∈ members, depth member.2 ≤ depth source.2) :
    depth (.object others) ≤ depth (.object members) := by
  rw [depth, depth, Nat.add_le_add_iff_right, membersDepth_le_iff]
  intro member listed
  obtain ⟨source, known, below⟩ := each member listed
  exact Nat.le_trans below (membersDepth_le_iff.mp (Nat.le_refl _) source known)

theorem depth_mapLeaves_le (change : String → String) (tree : Json) :
    depth (mapLeaves change tree) ≤ depth tree := by
  induction tree using treeInduction with
  | array items ih =>
      rw [mapLeaves, mapLeafItems_eq]
      refine depth_array_le fun item listed => ?_
      obtain ⟨source, member, rfl⟩ := List.mem_map.mp listed
      exact ⟨source, member, ih source member⟩
  | object members ih =>
      rw [mapLeaves, mapLeafMembers_eq]
      refine depth_object_le fun member listed => ?_
      obtain ⟨source, member, rfl⟩ := List.mem_map.mp listed
      exact ⟨source, member, ih source member⟩
  | _ => exact Nat.le_refl _

/-- Strings have no depth. -/
theorem depth_mapStrings (change : String → String) (tree : Json) :
    depth (mapStrings change tree) = depth tree := by
  have sameItems : ∀ items : List Json, (∀ item ∈ items, depth (mapStrings change item) = depth item) →
      itemsDepth (items.map (mapStrings change)) = itemsDepth items := by
    intro items same
    induction items with
    | nil => rfl
    | cons item items ih =>
        rw [List.forall_mem_cons] at same
        rw [List.map_cons, itemsDepth, itemsDepth, same.1, ih same.2]
  have sameMembers : ∀ members : List (String × Json),
      (∀ member ∈ members, depth (mapStrings change member.2) = depth member.2) →
      membersDepth (members.map fun member => (change member.1, mapStrings change member.2)) =
        membersDepth members := by
    intro members same
    induction members with
    | nil => rfl
    | cons member members ih =>
        rw [List.forall_mem_cons] at same
        rw [List.map_cons, membersDepth, membersDepth, same.1, ih same.2]
  induction tree using treeInduction with
  | null | bool | number | string => rfl
  | array items ih => rw [mapStrings, mapItems_eq, depth, depth, sameItems items ih]
  | object members ih => rw [mapStrings, mapMembers_eq, depth, depth, sameMembers members ih]

/-! ### Tokens and text -/

mutual

/-- The tokens of a tree of raw literals. -/
def tokens : Json → List Token
  | .null => [.null]
  | .bool value => [.bool value]
  | .number literal => [.number literal.toList]
  | .string raw => [.string raw.toList]
  | .array items => .beginArray :: itemTokens items ++ [.endArray]
  | .object members => .beginObject :: memberTokens members ++ [.endObject]

/-- The tokens of the items, with commas between them. -/
def itemTokens : List Json → List Token
  | [] => []
  | [item] => tokens item
  | item :: next :: items => tokens item ++ .comma :: itemTokens (next :: items)

/-- The tokens of the members, with commas between them. -/
def memberTokens : List (String × Json) → List Token
  | [] => []
  | [(key, value)] => .string key.toList :: .colon :: tokens value
  | (key, value) :: next :: members =>
      .string key.toList :: .colon :: tokens value ++ .comma :: memberTokens (next :: members)

end

mutual

/-- The text of a tree of raw literals, without white space. -/
def text : Json → List Char
  | .null => ['n', 'u', 'l', 'l']
  | .bool value => if value then ['t', 'r', 'u', 'e'] else ['f', 'a', 'l', 's', 'e']
  | .number literal => literal.toList
  | .string raw => '"' :: (raw.toList ++ ['"'])
  | .array items => '[' :: itemsText items ++ [']']
  | .object members => '{' :: membersText members ++ ['}']

/-- The items as they are written, with commas between them. -/
def itemsText : List Json → List Char
  | [] => []
  | [item] => text item
  | item :: next :: items => text item ++ ',' :: itemsText (next :: items)

/-- The members as they are written, with commas between them. -/
def membersText : List (String × Json) → List Char
  | [] => []
  | [(key, value)] => '"' :: (key.toList ++ '"' :: ':' :: text value)
  | (key, value) :: next :: members =>
      '"' :: (key.toList ++ '"' :: ':' :: (text value ++ ',' :: membersText (next :: members)))

end

/-- A literal in quotes is one token, as it holds no quote of its own. -/
theorem lexFrom_literal {raw : List Char} (enclosed : Enclosed raw) (rest : List Char) :
    lexFrom .idle ('"' :: (raw ++ '"' :: rest)) = .string raw :: lexFrom .idle rest := by
  have opens : Mode.idle.step '"' = ([], some (.string [])) := rfl
  rw [lexFrom_cons opens, enclosed.lexFrom]
  rfl

/-- The text of a tree is read back as its tokens. -/
def ReadsBack (tree : Json) : Prop :=
  ∀ rest, Follows rest → lexFrom .idle (text tree ++ rest) = tokens tree ++ lexFrom .idle rest

/-- Items that read back read back in a row, up to the end of the array. -/
theorem lexFrom_itemsText {items : List Json} (each : ∀ item ∈ items, ReadsBack item)
    (rest : List Char) :
    lexFrom .idle (itemsText items ++ ']' :: rest) =
      itemTokens items ++ .endArray :: lexFrom .idle rest := by
  induction items with
  | nil => rfl
  | cons item items ih =>
      rw [List.forall_mem_cons] at each
      cases items with
      | nil =>
          rw [itemsText, itemTokens, each.1 _ (by simp [Follows])]
          rfl
      | cons next items =>
          have comma : ∀ more, lexFrom .idle (',' :: more) = .comma :: lexFrom .idle more :=
            fun _ => rfl
          rw [itemsText, itemTokens, List.append_assoc, List.cons_append,
            each.1 _ (by simp [Follows]), comma, ih each.2, List.append_assoc, List.cons_append]

/-- Members that read back read back in a row, up to the end of the object. -/
theorem lexFrom_membersText {members : List (String × Json)}
    (each : ∀ member ∈ members, Enclosed member.1.toList ∧ ReadsBack member.2) (rest : List Char) :
    lexFrom .idle (membersText members ++ '}' :: rest) =
      memberTokens members ++ .endObject :: lexFrom .idle rest := by
  have colon : ∀ more, lexFrom .idle (':' :: more) = .colon :: lexFrom .idle more := fun _ => rfl
  induction members with
  | nil => rfl
  | cons member members ih =>
      obtain ⟨key, value⟩ := member
      rw [List.forall_mem_cons] at each
      obtain ⟨⟨enclosed, readsBack⟩, others⟩ := each
      cases members with
      | nil =>
          rw [membersText, memberTokens, List.cons_append, List.append_assoc, List.cons_append,
            List.cons_append, lexFrom_literal enclosed, colon, readsBack _ (by simp [Follows])]
          rfl
      | cons next members =>
          have comma : ∀ more, lexFrom .idle (',' :: more) = .comma :: lexFrom .idle more :=
            fun _ => rfl
          rw [membersText, memberTokens, List.cons_append, List.append_assoc, List.cons_append,
            List.cons_append, List.append_assoc, List.cons_append, lexFrom_literal enclosed, colon,
            readsBack _ (by simp [Follows]), comma, ih others]
          simp only [List.cons_append, List.append_assoc]

/-- A text is read back when its numbers are valid and its literals hold no quote. -/
theorem readsBack_of_valid {tree : Json} (numbers : NumbersValid tree)
    (literals : ∀ raw ∈ strings tree, Enclosed raw.toList) : ReadsBack tree := by
  induction tree using treeInduction with
  | null => exact fun _ _ => rfl
  | bool value => cases value <;> exact fun _ _ => rfl
  | number literal => exact fun _ follows => lexFrom_isNumber (numbers literal .self) follows.stops
  | string raw =>
      intro rest _
      rw [text, List.cons_append, List.append_assoc, List.singleton_append,
        lexFrom_literal (literals raw (by simp [strings]))]
      rfl
  | array items ih =>
      intro rest _
      have each : ∀ item ∈ items, ReadsBack item := by
        intro item listed
        refine ih item listed (fun literal within => numbers literal (.item listed within)) ?_
        exact fun raw inside => literals raw (mem_strings_item listed inside)
      have begin_ : ∀ more, lexFrom .idle ('[' :: more) = .beginArray :: lexFrom .idle more :=
        fun _ => rfl
      rw [text, tokens, List.cons_append, List.cons_append, List.append_assoc,
        List.singleton_append, begin_, lexFrom_itemsText each]
      simp
  | object members ih =>
      intro rest _
      have each : ∀ member ∈ members, Enclosed member.1.toList ∧ ReadsBack member.2 := by
        intro member listed
        have inLiterals : ∀ raw ∈ member.1 :: strings member.2, Enclosed raw.toList :=
          fun raw inside => literals raw (mem_strings_member listed inside)
        obtain ⟨key, inner⟩ := List.forall_mem_cons.mp inLiterals
        exact ⟨key, ih member listed (fun literal within => numbers literal (.member listed within))
          inner⟩
      have begin_ : ∀ more, lexFrom .idle ('{' :: more) = .beginObject :: lexFrom .idle more :=
        fun _ => rfl
      rw [text, tokens, List.cons_append, List.cons_append, List.append_assoc,
        List.singleton_append, begin_, lexFrom_membersText each]
      simp

/-- The text of a tree is read back. -/
theorem lex_text {tree : Json} (numbers : NumbersValid tree)
    (literals : ∀ raw ∈ strings tree, Enclosed raw.toList) : lex (text tree) = tokens tree := by
  have back := readsBack_of_valid numbers literals [] (by simp [Follows])
  simpa [lex, lexFrom, Mode.finish] using back

/-! ## Changes of the leaves

What a change of the strings of a tree leaves alone: its keys, the number of its items, its
numbers, booleans and nulls. -/

/-- The two trees differ in their strings at most. -/
inductive SameStructure : Json → Json → Prop where
  | null : SameStructure .null .null
  | bool (value : Bool) : SameStructure (.bool value) (.bool value)
  | number (literal : String) : SameStructure (.number literal) (.number literal)
  | string (text other : String) : SameStructure (.string text) (.string other)
  | array {items others : List Json} (each : List.Forall₂ SameStructure items others) :
      SameStructure (.array items) (.array others)
  | object {members others : List (String × Json)}
      (keys : members.map Prod.fst = others.map Prod.fst)
      (each : List.Forall₂ SameStructure (members.map Prod.snd) (others.map Prod.snd)) :
      SameStructure (.object members) (.object others)

/-- A change of the leaves keeps the structure. -/
theorem sameStructure_mapLeaves (change : String → String) (tree : Json) :
    SameStructure tree (mapLeaves change tree) := by
  induction tree using treeInduction with
  | null => exact .null
  | bool value => exact .bool value
  | number literal => exact .number literal
  | string text => exact .string text _
  | array items ih =>
      rw [mapLeaves, mapLeafItems_eq]
      refine .array ?_
      rw [List.forall₂_map_right_iff, List.forall₂_same]
      exact ih
  | object members ih =>
      rw [mapLeaves, mapLeafMembers_eq]
      refine .object ?_ ?_
      · rw [List.map_map]
        rfl
      · rw [List.map_map, List.forall₂_map_left_iff, List.forall₂_map_right_iff, List.forall₂_same]
        exact ih

/-- Two changes are the same on a tree if they are on each of its leaves. -/
theorem mapLeaves_eq_iff {change other : String → String} {tree : Json} :
    mapLeaves change tree = mapLeaves other tree ↔
      ∀ leaf, Within (.string leaf) tree → change leaf = other leaf := by
  induction tree using treeInduction with
  | string text =>
      rw [mapLeaves, mapLeaves, Json.string.injEq]
      constructor
      · rintro same leaf ⟨⟩
        exact same
      · exact fun same => same text .self
  | array items ih =>
      rw [mapLeaves, mapLeaves, mapLeafItems_eq, mapLeafItems_eq, Json.array.injEq, List.map_inj_left]
      constructor
      · intro same leaf within
        rcases within_array.mp within with equal | ⟨item, listed, within⟩
        · cases equal
        · exact (ih item listed).mp (same item listed) leaf within
      · intro same item listed
        exact (ih item listed).mpr fun leaf within => same leaf (.item listed within)
  | object members ih =>
      rw [mapLeaves, mapLeaves, mapLeafMembers_eq, mapLeafMembers_eq, Json.object.injEq,
        List.map_inj_left]
      constructor
      · intro same leaf within
        rcases within_object.mp within with equal | ⟨member, listed, within⟩
        · cases equal
        · exact (ih member listed).mp (Prod.mk.inj (same member listed)).2 leaf within
      · intro same member listed
        rw [(ih member listed).mpr fun leaf within => same leaf (.member listed within)]
  | _ => exact iff_of_true rfl (by rintro leaf ⟨⟩)

end MessagePusher.JsonText
