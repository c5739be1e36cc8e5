import Mathlib.Data.List.Sort
import MessagePusher.JsonText.Numbers

/-!
# The members of script objects

An object of a script keeps one member for each key, where its first one stood; the keys that are
array indices come first, in their order. The maps that the trees stand for are not changed.
-/

namespace MessagePusher.JsonText

open Common Float64

/-- A member put into an object: in the place of the one of its key, else behind the others. -/
def putMember (key : String) (value : Json) : List (String × Json) → List (String × Json)
  | [] => [(key, value)]
  | (other, held) :: rest =>
      if other = key then (key, value) :: rest else (other, held) :: putMember key value rest

/-- The members that an object has after all have been put into it. -/
def ownMembers (members : List (String × Json)) : List (String × Json) :=
  members.foldl (fun own member => putMember member.1 member.2 own) []

/-- The number that the key is the decimal spelling of, below `2 ^ 32 - 1`. -/
def arrayIndex (key : String) : Option Nat :=
  let value := digitsValue key.toList
  if Nat.toDigits 10 value = key.toList ∧ value < 2 ^ 32 - 1 then some value else none

/-- The place of a key among the array indices, behind all of them for any other key. -/
def keyRank (key : String) : Nat := (arrayIndex key).getD (2 ^ 32)

/-- `OrdinaryOwnPropertyKeys`: the array indices in ascending order, then the other keys in the order
in which they were put. -/
def keyOrder (members : List (String × Json)) : List (String × Json) :=
  members.insertionSort fun first second => keyRank first.1 ≤ keyRank second.1

mutual

/-- The tree with the members of its objects as a script has them. -/
def ownTree : Json → Json
  | .array items => .array (ownItems items)
  | .object members => .object (keyOrder (ownMembers (ownMemberValues members)))
  | value => value

/-- Each item with its own members. -/
def ownItems : List Json → List Json
  | [] => []
  | item :: items => ownTree item :: ownItems items

/-- Each value with its own members. -/
def ownMemberValues : List (String × Json) → List (String × Json)
  | [] => []
  | (key, value) :: members => (key, ownTree value) :: ownMemberValues members

end

theorem ownItems_eq (items : List Json) : ownItems items = items.map ownTree := by
  induction items with
  | nil => rfl
  | cons item items ih => rw [ownItems, ih, List.map_cons]

theorem ownMemberValues_eq (members : List (String × Json)) :
    ownMemberValues members = members.map fun member => (member.1, ownTree member.2) := by
  induction members with
  | nil => rfl
  | cons member members ih => rw [ownMemberValues, ih, List.map_cons]

/-! ### One member for each key -/

/-- No key occurs twice. -/
def UniqueKeys (members : List (String × Json)) : Prop := (members.map Prod.fst).Nodup

/-- A key that is there keeps its place, and a new one is last. -/
theorem keys_putMember (key : String) (value : Json) (members : List (String × Json)) :
    (putMember key value members).map Prod.fst =
      if key ∈ members.map Prod.fst then members.map Prod.fst else members.map Prod.fst ++ [key] := by
  induction members with
  | nil => rfl
  | cons first rest ih =>
      rw [putMember]
      split_ifs with same listed listed
      · rw [List.map_cons, List.map_cons, same]
      · exact absurd (by rw [List.map_cons, same]; exact List.mem_cons_self) listed
      · have later : key ∈ rest.map Prod.fst :=
          (List.mem_cons.mp listed).resolve_left fun equal => same equal.symm
        rw [List.map_cons, ih, if_pos later, List.map_cons]
      · have none : key ∉ rest.map Prod.fst := fun later => listed (List.mem_cons_of_mem _ later)
        rw [List.map_cons, ih, if_neg none, List.map_cons, List.cons_append]

/-- A member is put without a second key. -/
theorem UniqueKeys.putMember {members : List (String × Json)} (unique : UniqueKeys members)
    (key : String) (value : Json) : UniqueKeys (putMember key value members) := by
  rw [UniqueKeys, keys_putMember]
  split_ifs with listed
  · exact unique
  · refine List.Nodup.append unique (List.nodup_singleton key) ?_
    rw [List.disjoint_singleton]
    exact listed

/-- The members are put one after the other. -/
theorem ownMembers_append (members : List (String × Json)) (member : String × Json) :
    ownMembers (members ++ [member]) = putMember member.1 member.2 (ownMembers members) :=
  List.foldl_append

/-- An object has each key once. -/
theorem uniqueKeys_ownMembers (members : List (String × Json)) : UniqueKeys (ownMembers members) := by
  induction members using List.reverseRecOn with
  | nil => exact List.nodup_nil
  | append_singleton members member ih =>
      rw [ownMembers_append]
      exact ih.putMember _ _

/-- A member put into an object is the one of its key. -/
theorem filter_putMember {members : List (String × Json)} (unique : UniqueKeys members)
    (key other : String) (value : Json) :
    (putMember key value members).filter (fun member => member.1 = other) =
      if key = other then [(key, value)] else members.filter fun member => member.1 = other := by
  induction members with
  | nil =>
      rw [putMember, List.filter_singleton]
      simp
  | cons first rest ih =>
      obtain ⟨apart, tail⟩ := List.nodup_cons.mp unique
      rw [putMember]
      by_cases here : key = other
      · subst here
        rw [if_pos rfl]
        split_ifs with same
        · have none : rest.filter (fun member => member.1 = key) = [] := by
            rw [List.filter_eq_nil_iff]
            intro member listed equal
            refine apart (List.mem_map.mpr ⟨member, listed, ?_⟩)
            exact (of_decide_eq_true equal).trans same.symm
          rw [List.filter_cons_of_pos (by simp), none]
        · rw [List.filter_cons_of_neg (by simpa using same), ih tail, if_pos rfl]
      · rw [if_neg here]
        split_ifs with same
        · have apart : ¬ first.1 = other := fun equal => here (same.symm.trans equal)
          rw [List.filter_cons_of_neg (by simpa using here),
            List.filter_cons_of_neg (by simpa using apart)]
        · rw [List.filter_cons, List.filter_cons, ih tail, if_neg here]

/-- The last member of a key is the one that is kept. -/
theorem filter_ownMembers (members : List (String × Json)) (key : String) :
    (ownMembers members).filter (fun member => member.1 = key) =
      ((members.filter fun member => member.1 = key).getLast?).toList := by
  induction members using List.reverseRecOn with
  | nil => rfl
  | append_singleton members member ih =>
      obtain ⟨own, value⟩ := member
      rw [ownMembers_append, filter_putMember (uniqueKeys_ownMembers members), ih,
        List.filter_append]
      by_cases same : own = key
      · simp [same]
      · simp [same]

/-- An object of JavaScript and a map of Go keep the same members. -/
theorem mem_ownMembers_iff {members : List (String × Json)} {member : String × Json} :
    member ∈ ownMembers members ↔ member ∈ memberMap members := by
  have own (kept : List (String × Json)) :
      member ∈ kept ↔ member ∈ kept.filter fun other => other.1 = member.1 := by
    rw [List.mem_filter, decide_eq_true rfl, and_iff_left rfl]
  rw [own, own (memberMap members), filter_ownMembers, filter_memberMap]

/-- Members without a repeated key are all kept. -/
theorem ownMembers_of_unique {members : List (String × Json)} (unique : UniqueKeys members) :
    ownMembers members = members := by
  have last (members : List (String × Json)) (key : String) (value : Json)
      (new : key ∉ members.map Prod.fst) :
      putMember key value members = members ++ [(key, value)] := by
    induction members with
    | nil => rfl
    | cons first rest ih =>
        rw [List.map_cons, List.mem_cons, not_or] at new
        rw [putMember, if_neg (Ne.symm new.1), ih new.2, List.cons_append]
  induction members using List.reverseRecOn with
  | nil => rfl
  | append_singleton members member ih =>
      rw [UniqueKeys, List.map_append, List.nodup_append] at unique
      obtain ⟨first, -, apart⟩ := unique
      rw [ownMembers_append, ih first, last _ _ _ fun listed => ?_]
      exact apart _ listed _ (List.mem_singleton_self _) rfl

/-! ### The order of the keys -/

/-- The order changes nothing else. -/
theorem keyOrder_perm (members : List (String × Json)) : (keyOrder members).Perm members :=
  List.perm_insertionSort _ members

theorem UniqueKeys.keyOrder {members : List (String × Json)} (unique : UniqueKeys members) :
    UniqueKeys (keyOrder members) :=
  (((keyOrder_perm members).map Prod.fst).nodup_iff).mpr unique

theorem mem_keyOrder_iff {members : List (String × Json)} {member : String × Json} :
    member ∈ keyOrder members ↔ member ∈ members :=
  (keyOrder_perm members).mem_iff

/-- Members in order stay. -/
theorem keyOrder_keyOrder (members : List (String × Json)) :
    keyOrder (keyOrder members) = keyOrder members := by
  have total : Std.Total fun first second : String × Json => keyRank first.1 ≤ keyRank second.1 :=
    ⟨fun first second => Nat.le_total (keyRank first.1) (keyRank second.1)⟩
  have trans : IsTrans (String × Json) fun first second => keyRank first.1 ≤ keyRank second.1 :=
    ⟨fun _ _ _ => Nat.le_trans⟩
  exact (List.pairwise_insertionSort _ members).insertionSort_eq

/-! ### Maps -/

/-- Sorted members are the same when they have the same elements. -/
theorem keysSorted_ext {members others : List (String × Json)} (sorted : KeysSorted members)
    (sorted' : KeysSorted others) (same : ∀ member, member ∈ members ↔ member ∈ others) :
    members = others := by
  have nodup {members : List (String × Json)} (sorted : KeysSorted members) : members.Nodup :=
    sorted.imp fun before equal => absurd (congrArg Prod.fst equal) before.ne
  refine List.Perm.eq_of_pairwise ?_ sorted sorted'
    ((List.perm_ext_iff_of_nodup (nodup sorted) (nodup sorted')).mpr same)
  exact fun first second _ _ before after => absurd before after.not_gt

/-- The map of an object is that of its members. -/
theorem memberMap_keyOrder_ownMembers (members : List (String × Json)) :
    memberMap (keyOrder (ownMembers members)) = memberMap members := by
  refine keysSorted_ext (memberMap_sorted _) (memberMap_sorted _) fun member => ?_
  rw [← mem_ownMembers_iff, ownMembers_of_unique (uniqueKeys_ownMembers members).keyOrder,
    mem_keyOrder_iff, mem_ownMembers_iff]

/-- The members of an object, each of them changed. -/
theorem mem_ownMemberValues {members : List (String × Json)} {member : String × Json}
    (listed : member ∈ keyOrder (ownMembers (ownMemberValues members))) :
    ∃ source ∈ memberMap members, member = (source.1, ownTree source.2) := by
  rw [mem_keyOrder_iff, mem_ownMembers_iff, ownMemberValues_eq, memberMap_map, List.mem_map]
    at listed
  obtain ⟨source, kept, rfl⟩ := listed
  exact ⟨source, kept, rfl⟩

/-- As maps the tree of own members is the tree. -/
@[simp]
theorem toMaps_ownTree (tree : Json) : toMaps (ownTree tree) = toMaps tree := by
  induction tree using treeInduction with
  | array items ih =>
      rw [ownTree, toMaps, toMaps, itemsToMaps_eq, itemsToMaps_eq, ownItems_eq, List.map_map]
      exact congrArg Json.array (List.map_congr_left ih)
  | object members ih =>
      rw [ownTree, toMaps, toMaps, membersToMaps_eq, membersToMaps_eq, memberMap_map,
        memberMap_keyOrder_ownMembers, ← memberMap_map, ownMemberValues_eq, List.map_map]
      refine congrArg (fun members => Json.object (memberMap members)) (List.map_congr_left ?_)
      exact fun member listed => congrArg (Prod.mk member.1) (ih member listed)
  | _ => rfl

/-- An object that was made of own members is made of the same ones. -/
theorem ownTree_ownTree (tree : Json) : ownTree (ownTree tree) = ownTree tree := by
  induction tree using treeInduction with
  | array items ih =>
      rw [ownTree, ownTree, ownItems_eq, ownItems_eq, List.map_map]
      exact congrArg Json.array (List.map_congr_left ih)
  | object members ih =>
      have unique := (uniqueKeys_ownMembers (ownMemberValues members)).keyOrder
      have kept : ownMemberValues (keyOrder (ownMembers (ownMemberValues members))) =
          keyOrder (ownMembers (ownMemberValues members)) := by
        rw [ownMemberValues_eq (keyOrder _)]
        refine (List.map_congr_left fun member listed => ?_).trans (List.map_id _)
        obtain ⟨source, held, rfl⟩ := mem_ownMemberValues listed
        exact Prod.ext rfl (ih source (mem_memberMap held))
      rw [ownTree, ownTree, kept, ownMembers_of_unique unique, keyOrder_keyOrder]
  | _ => rfl

/-- The numbers of the objects are those of the maps. -/
theorem within_number_ownTree {tree : Json} {literal : String}
    (within : Within (.number literal) (ownTree tree)) : Within (.number literal) (toMaps tree) := by
  induction tree using treeInduction with
  | array items ih =>
      rw [ownTree, ownItems_eq, within_array] at within
      rw [toMaps, itemsToMaps_eq]
      rcases within with same | ⟨item, listed, within⟩
      · cases same
      · obtain ⟨source, member, rfl⟩ := List.mem_map.mp listed
        exact .item (List.mem_map_of_mem member) (ih source member within)
  | object members ih =>
      rw [ownTree, within_object] at within
      rw [toMaps, membersToMaps_eq, memberMap_map]
      rcases within with same | ⟨member, listed, within⟩
      · cases same
      · obtain ⟨source, held, rfl⟩ := mem_ownMemberValues listed
        exact .member (List.mem_map_of_mem held) (ih source (mem_memberMap held) within)
  | number source => exact within
  | _ => cases within

/-- The tree of own members invents no string. -/
theorem mem_strings_ownTree {tree : Json} {raw : String} (inside : raw ∈ strings (ownTree tree)) :
    raw ∈ strings tree := by
  induction tree using treeInduction with
  | array items ih =>
      rw [ownTree, ownItems_eq, strings, itemStrings_eq, List.mem_flatMap] at inside
      rw [strings, itemStrings_eq, List.mem_flatMap]
      obtain ⟨item, listed, inside⟩ := inside
      obtain ⟨source, member, rfl⟩ := List.mem_map.mp listed
      exact ⟨source, member, ih source member inside⟩
  | object members ih =>
      rw [ownTree, strings, memberStrings_eq, List.mem_flatMap] at inside
      rw [strings, memberStrings_eq, List.mem_flatMap]
      obtain ⟨member, listed, inside⟩ := inside
      obtain ⟨source, held, rfl⟩ := mem_ownMemberValues listed
      refine ⟨source, mem_memberMap held, ?_⟩
      rcases List.mem_cons.mp inside with rfl | within
      · exact List.mem_cons_self
      · exact List.mem_cons_of_mem _ (ih source (mem_memberMap held) within)
  | _ => exact inside

end MessagePusher.JsonText
