import MessagePusher.Float64.Conversion
import MessagePusher.JsonText.Decode

/-!
# The numbers of a value

A change of the numbers of a tree alone, and what a tree denotes: its numbers are exact, however
they are spelled, and its objects are maps.
-/

namespace MessagePusher.JsonText

open Common Float64

variable {change : String → String} {tree value : Json}

mutual

/-- The tree with a value for each of its number literals. -/
def bindNumbers (change : String → Json) : Json → Json
  | .number literal => change literal
  | .array items => .array (bindNumberItems change items)
  | .object members => .object (bindNumberMembers change members)
  | value => value

/-- The change in the numbers of each item. -/
def bindNumberItems (change : String → Json) : List Json → List Json
  | [] => []
  | item :: items => bindNumbers change item :: bindNumberItems change items

/-- The change in the numbers of each value. -/
def bindNumberMembers (change : String → Json) : List (String × Json) → List (String × Json)
  | [] => []
  | (key, value) :: members => (key, bindNumbers change value) :: bindNumberMembers change members

end

theorem bindNumberItems_eq (change : String → Json) (items : List Json) :
    bindNumberItems change items = items.map (bindNumbers change) := by
  induction items with
  | nil => rfl
  | cons item items ih => rw [bindNumberItems, ih, List.map_cons]

theorem bindNumberMembers_eq (change : String → Json) (members : List (String × Json)) :
    bindNumberMembers change members =
      members.map fun member => (member.1, bindNumbers change member.2) := by
  induction members with
  | nil => rfl
  | cons member members ih => rw [bindNumberMembers, ih, List.map_cons]

/-- A change that leaves the numbers of a tree leaves the tree. -/
theorem bindNumbers_id {change : String → Json}
    (same : ∀ literal, Within (.number literal) tree → change literal = .number literal) :
    bindNumbers change tree = tree := by
  induction tree using treeInduction with
  | array items ih =>
      rw [bindNumbers, bindNumberItems_eq]
      refine congrArg Json.array ((List.map_congr_left fun item listed => ?_).trans (List.map_id _))
      exact ih item listed fun literal within => same literal (.item listed within)
  | object members ih =>
      rw [bindNumbers, bindNumberMembers_eq]
      refine congrArg Json.object ((List.map_congr_left fun member listed => ?_).trans (List.map_id _))
      exact Prod.ext rfl (ih member listed fun literal within => same literal (.member listed within))
  | number literal => exact same literal .self
  | _ => rfl

/-- Every number of the tree comes from the value of a number. -/
theorem within_number_bindNumbers {change : String → Json} {literal : String}
    (within : Within (.number literal) (bindNumbers change tree)) :
    ∃ source, Within (.number source) tree ∧ Within (.number literal) (change source) := by
  induction tree using treeInduction with
  | array items ih =>
      rw [bindNumbers, bindNumberItems_eq, within_array] at within
      rcases within with same | ⟨item, listed, within⟩
      · cases same
      · obtain ⟨inner, member, rfl⟩ := List.mem_map.mp listed
        obtain ⟨source, inside, found⟩ := ih inner member within
        exact ⟨source, .item member inside, found⟩
  | object members ih =>
      rw [bindNumbers, bindNumberMembers_eq, within_object] at within
      rcases within with same | ⟨member, listed, within⟩
      · cases same
      · obtain ⟨inner, member, rfl⟩ := List.mem_map.mp listed
        obtain ⟨source, inside, found⟩ := ih inner member within
        exact ⟨source, .member member inside, found⟩
  | number source => exact ⟨source, .self, within⟩
  | _ => cases within

/-- Values that have no strings leave those of the tree. -/
theorem strings_bindNumbers {change : String → Json} (none : ∀ literal, strings (change literal) = [])
    (tree : Json) : strings (bindNumbers change tree) = strings tree := by
  induction tree using treeInduction with
  | array items ih =>
      rw [bindNumbers, bindNumberItems_eq, strings, strings, itemStrings_eq, itemStrings_eq,
        List.flatMap_map]
      exact List.flatMap_congr ih
  | object members ih =>
      rw [bindNumbers, bindNumberMembers_eq, strings, strings, memberStrings_eq, memberStrings_eq,
        List.flatMap_map]
      exact List.flatMap_congr fun member listed => congrArg (List.cons member.1) (ih member listed)
  | number literal => exact none literal
  | _ => rfl

mutual

/-- The tree with its number literals changed. -/
def mapNumbers (change : String → String) : Json → Json
  | .number literal => .number (change literal)
  | .array items => .array (mapNumberItems change items)
  | .object members => .object (mapNumberMembers change members)
  | value => value

/-- The change in the numbers of each item. -/
def mapNumberItems (change : String → String) : List Json → List Json
  | [] => []
  | item :: items => mapNumbers change item :: mapNumberItems change items

/-- The change in the numbers of each value. -/
def mapNumberMembers (change : String → String) : List (String × Json) → List (String × Json)
  | [] => []
  | (key, value) :: members => (key, mapNumbers change value) :: mapNumberMembers change members

end

theorem mapNumberItems_eq (change : String → String) (items : List Json) :
    mapNumberItems change items = items.map (mapNumbers change) := by
  induction items with
  | nil => rfl
  | cons item items ih => rw [mapNumberItems, ih, List.map_cons]

theorem mapNumberMembers_eq (change : String → String) (members : List (String × Json)) :
    mapNumberMembers change members =
      members.map fun member => (member.1, mapNumbers change member.2) := by
  induction members with
  | nil => rfl
  | cons member members ih => rw [mapNumberMembers, ih, List.map_cons]

/-- A change of literals gives the number of the changed literal for each. -/
theorem mapNumbers_eq_bindNumbers (change : String → String) (tree : Json) :
    mapNumbers change tree = bindNumbers (fun literal => .number (change literal)) tree := by
  induction tree using treeInduction with
  | array items ih =>
      rw [mapNumbers, mapNumberItems_eq, bindNumbers, bindNumberItems_eq, List.map_congr_left ih]
  | object members ih =>
      rw [mapNumbers, mapNumberMembers_eq, bindNumbers, bindNumberMembers_eq]
      exact congrArg Json.object
        (List.map_congr_left fun member listed => congrArg (Prod.mk member.1) (ih member listed))
  | _ => rfl

/-- Every number of the changed tree comes from one of the tree. -/
theorem within_number_mapNumbers {literal : String}
    (within : Within (.number literal) (mapNumbers change tree)) :
    ∃ source, Within (.number source) tree ∧ literal = change source := by
  rw [mapNumbers_eq_bindNumbers] at within
  obtain ⟨source, inside, found⟩ := within_number_bindNumbers within
  cases found
  exact ⟨source, inside, rfl⟩

/-- Numbers have no depth. -/
theorem depth_mapNumbers_le (change : String → String) (tree : Json) :
    depth (mapNumbers change tree) ≤ depth tree := by
  induction tree using treeInduction with
  | array items ih =>
      rw [mapNumbers, mapNumberItems_eq]
      refine depth_array_le fun item listed => ?_
      obtain ⟨source, member, rfl⟩ := List.mem_map.mp listed
      exact ⟨source, member, ih source member⟩
  | object members ih =>
      rw [mapNumbers, mapNumberMembers_eq]
      refine depth_object_le fun member listed => ?_
      obtain ⟨source, member, rfl⟩ := List.mem_map.mp listed
      exact ⟨source, member, ih source member⟩
  | _ => exact Nat.le_refl _

/-! ### Maps and numbers -/

/-- A member put into a map is the one of its key. -/
theorem filter_insertMember {members : List (String × Json)} (sorted : KeysSorted members)
    (key other : String) (value : Json) :
    (insertMember key value members).filter (fun member => member.1 = other) =
      if key = other then [(key, value)] else members.filter fun member => member.1 = other := by
  have beyond : ∀ {members : List (String × Json)}, (∀ member ∈ members, key < member.1) →
      members.filter (fun member => member.1 = key) = [] := by
    intro members above
    rw [List.filter_eq_nil_iff]
    exact fun member listed same => (above member listed).ne' (of_decide_eq_true same)
  induction members with
  | nil =>
      rw [insertMember, List.filter_singleton]
      simp
  | cons first rest ih =>
      obtain ⟨smallest, tail⟩ := List.pairwise_cons.mp sorted
      rw [insertMember]
      by_cases here : key = other
      · subst here
        rw [if_pos rfl]
        split_ifs with before same
        · have above : ∀ member ∈ first :: rest, key < member.1 := by
            intro member listed
            rcases List.mem_cons.mp listed with rfl | later
            · exact before
            · exact before.trans (smallest member later)
          rw [List.filter_cons_of_pos (by simp), beyond above]
        · rw [List.filter_cons_of_pos (by simp), beyond (same ▸ smallest)]
        · have apart : ¬ first.1 = key := fun equal => same equal.symm
          rw [List.filter_cons_of_neg (by simpa using apart), ih tail, if_pos rfl]
      · rw [if_neg here]
        split_ifs with before same
        · rw [List.filter_cons_of_neg (by simpa using here)]
        · have apart : ¬ first.1 = other := fun equal => here (same.trans equal)
          rw [List.filter_cons_of_neg (by simpa using here),
            List.filter_cons_of_neg (by simpa using apart)]
        · rw [List.filter_cons, List.filter_cons, ih tail, if_neg here]

/-- The last member of a key is the one in the map. -/
theorem filter_memberMap (members : List (String × Json)) (key : String) :
    (memberMap members).filter (fun member => member.1 = key) =
      ((members.filter fun member => member.1 = key).getLast?).toList := by
  induction members using List.reverseRecOn with
  | nil => rfl
  | append_singleton members member ih =>
      have put : memberMap (members ++ [member]) = insertMember member.1 member.2 (memberMap members) :=
        List.foldl_append
      rw [put, filter_insertMember (memberMap_sorted members), ih, List.filter_append]
      obtain ⟨own, value⟩ := member
      by_cases same : own = key
      · simp [same]
      · simp [same]

/-- Values are changed alike before and after an insertion. -/
theorem insertMember_map (change : Json → Json) (key : String) (value : Json)
    (members : List (String × Json)) :
    insertMember key (change value) (members.map fun member => (member.1, change member.2)) =
      (insertMember key value members).map fun member => (member.1, change member.2) := by
  induction members with
  | nil => rfl
  | cons first rest ih =>
      rw [List.map_cons, insertMember, insertMember]
      split_ifs
      · rfl
      · rfl
      · rw [ih, List.map_cons]

/-- Values are changed alike before and after the map is made. -/
theorem memberMap_map (change : Json → Json) (members : List (String × Json)) :
    memberMap (members.map fun member => (member.1, change member.2)) =
      (memberMap members).map fun member => (member.1, change member.2) := by
  induction members using List.reverseRecOn with
  | nil => rfl
  | append_singleton members member ih =>
      have put : ∀ (members : List (String × Json)) (member : String × Json),
          memberMap (members ++ [member]) = insertMember member.1 member.2 (memberMap members) :=
        fun members member => List.foldl_append
      rw [List.map_append, List.map_singleton, put, put, ih, insertMember_map]

/-- The maps of a tree with other numbers are the maps of the tree with the other numbers, which
hold no objects. -/
theorem toMaps_bindNumbers {change : String → Json}
    (scalars : ∀ literal, toMaps (change literal) = change literal) (tree : Json) :
    toMaps (bindNumbers change tree) = bindNumbers change (toMaps tree) := by
  induction tree using treeInduction with
  | array items ih =>
      rw [bindNumbers, toMaps, itemsToMaps_eq, bindNumberItems_eq, toMaps, bindNumbers,
        itemsToMaps_eq, bindNumberItems_eq, List.map_map, List.map_map]
      exact congrArg Json.array (List.map_congr_left ih)
  | object members ih =>
      rw [bindNumbers, toMaps, membersToMaps_eq, bindNumberMembers_eq, toMaps, bindNumbers,
        membersToMaps_eq, bindNumberMembers_eq, ← memberMap_map, List.map_map, List.map_map]
      refine congrArg (fun members => Json.object (memberMap members)) (List.map_congr_left ?_)
      exact fun member listed => congrArg (Prod.mk member.1) (ih member listed)
  | number literal => exact scalars literal
  | _ => rfl

/-- The maps of a tree with changed numbers are the maps of the tree with changed numbers. -/
theorem toMaps_mapNumbers (change : String → String) (tree : Json) :
    toMaps (mapNumbers change tree) = mapNumbers change (toMaps tree) := by
  rw [mapNumbers_eq_bindNumbers, mapNumbers_eq_bindNumbers]
  exact toMaps_bindNumbers (fun _ => rfl) tree

/-! ### What a tree denotes -/

/-- A JSON value: numbers are exact. -/
inductive Denotation where
  | null
  | bool (value : Bool)
  | number (value : ℚ)
  | string (value : String)
  | array (items : List Denotation)
  | object (members : List (String × Denotation))

mutual

/-- What a tree denotes: the literals of its numbers do not matter, only their values. -/
def denote : Json → Denotation
  | .null => .null
  | .bool value => .bool value
  | .number literal => .number (literalValue literal)
  | .string value => .string value
  | .array items => .array (denoteItems items)
  | .object members => .object (denoteMembers members)

/-- What each item denotes. -/
def denoteItems : List Json → List Denotation
  | [] => []
  | item :: items => denote item :: denoteItems items

/-- What each value denotes, under its key. -/
def denoteMembers : List (String × Json) → List (String × Denotation)
  | [] => []
  | (key, value) :: members => (key, denote value) :: denoteMembers members

end

theorem denoteItems_eq (items : List Json) : denoteItems items = items.map denote := by
  induction items with
  | nil => rfl
  | cons item items ih => rw [denoteItems, ih, List.map_cons]

theorem denoteMembers_eq (members : List (String × Json)) :
    denoteMembers members = members.map fun member => (member.1, denote member.2) := by
  induction members with
  | nil => rfl
  | cons member members ih => rw [denoteMembers, ih, List.map_cons]

/-- A tree with other numbers denotes the same exactly when each number keeps its value. -/
theorem denote_bindNumbers_iff {change : String → Json} :
    denote (bindNumbers change tree) = denote tree ↔ ∀ literal, Within (.number literal) tree →
      denote (change literal) = .number (literalValue literal) := by
  induction tree using treeInduction with
  | array items ih =>
      rw [bindNumbers, bindNumberItems_eq, denote, denote, denoteItems_eq, denoteItems_eq,
        Denotation.array.injEq, List.map_map, List.map_inj_left]
      constructor
      · intro each literal within
        rcases within_array.mp within with same | ⟨item, listed, inside⟩
        · cases same
        · exact (ih item listed).mp (each item listed) literal inside
      · exact fun each item listed => (ih item listed).mpr fun literal inside =>
          each literal (.item listed inside)
  | object members ih =>
      rw [bindNumbers, bindNumberMembers_eq, denote, denote, denoteMembers_eq, denoteMembers_eq,
        Denotation.object.injEq, List.map_map, List.map_inj_left]
      constructor
      · intro each literal within
        rcases within_object.mp within with same | ⟨member, listed, inside⟩
        · cases same
        · have same : denote (bindNumbers change member.2) = denote member.2 :=
            congrArg Prod.snd (each member listed)
          exact (ih member listed).mp same literal inside
      · intro each member listed
        have same := (ih member listed).mpr fun literal inside =>
          each literal (.member listed inside)
        exact congrArg (Prod.mk member.1) same
  | number source =>
      rw [bindNumbers, denote]
      constructor
      · rintro same literal ⟨⟩
        exact same
      · exact fun each => each source .self
  | null | bool | string =>
      refine iff_of_true rfl ?_
      rintro literal ⟨⟩

/-- A tree with changed numbers denotes the same exactly when each number keeps its value. -/
theorem denote_mapNumbers_iff : denote (mapNumbers change tree) = denote tree ↔
    ∀ literal, Within (.number literal) tree →
      literalValue (change literal) = literalValue literal := by
  rw [mapNumbers_eq_bindNumbers, denote_bindNumbers_iff]
  simp only [denote, Denotation.number.injEq]

/-- The value that a tree denotes when its objects are maps. -/
def meaning (tree : Json) : Denotation := denote (toMaps tree)

/-! ### Decoding to floats -/

/-- A number as a float that is written again; `json.Marshal` writes a float so. -/
def floatLiteral (literal : String) : String := (throughFloat literal).getD literal

/-- `json.Unmarshal` into an `interface{}`, whose numbers are floats. Each is held as the text that
is written of it. A number beyond the floats is an error. -/
def unmarshal (text : String) : Option Json :=
  (decode maxNestingDepth text).bind fun tree =>
    if ∀ literal ∈ numbers tree, (throughFloat literal).isSome then
      some (toMaps (mapNumbers floatLiteral tree))
    else none

/-- `json.Unmarshal` fails on a number that no float is near to, and rounds all others. -/
theorem unmarshal_eq_some_iff {text : String} {value : Json} : unmarshal text = some value ↔
    ∃ tree, decode maxNestingDepth text = some tree ∧
      (∀ literal, Within (.number literal) tree → (throughFloat literal).isSome) ∧
      value = toMaps (mapNumbers floatLiteral tree) := by
  rw [unmarshal, Option.bind_eq_some_iff]
  constructor
  · rintro ⟨tree, decoded, found⟩
    split_ifs at found with floats
    refine ⟨tree, decoded, fun literal within => ?_, (Option.some.inj found).symm⟩
    exact floats literal (mem_numbers_iff.mpr within)
  · rintro ⟨tree, decoded, floats, rfl⟩
    exact ⟨tree, decoded, if_pos fun literal listed => floats literal (mem_numbers_iff.mp listed)⟩

/-- What is decoded to floats can be written, and is read back. -/
theorem exists_marshal_of_unmarshal {text : String} {value : Json}
    (decoded : unmarshal text = some value) :
    ∃ written, marshal value = some written ∧ decode maxNestingDepth written = some value := by
  obtain ⟨tree, found, floats, rfl⟩ := unmarshal_eq_some_iff.mp decoded
  have numbersValid : NumbersValid (mapNumbers floatLiteral tree) := by
    intro literal within
    obtain ⟨source, inside, rfl⟩ := within_number_mapNumbers within
    obtain ⟨written, through⟩ := Option.isSome_iff_exists.mp (floats source inside)
    rw [floatLiteral, through]
    exact isNumber_throughFloat through
  have shallow := depth_of_decode found
  have written : marshal (toMaps (mapNumbers floatLiteral tree)) = some _ := if_pos numbersValid.toMaps
  refine ⟨_, written, decode_marshal written ?_⟩
  exact (depth_toMaps_le _).trans ((depth_mapNumbers_le _ _).trans shallow)

end MessagePusher.JsonText
