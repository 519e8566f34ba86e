import Lightweight.Router.Json
import Mathlib.Data.Char
import Mathlib.Data.List.Lex

/-! JSON texts as they are read: members in the order of the text, and a key may come again; and the
values of `serde_json` that they come to, in which it does not. -/

namespace Lightweight.Store

open Lightweight.Router

/-- What a text spells. -/
inductive Content where
  | null
  | bool (b : Bool)
  | number (n : Number)
  | string (text : List Char)
  | seq (items : List Content)
  | map (members : List (List Char × Content))

mutual

/-- The value of a text; of several members with one key the last is kept. -/
def Content.toValue : Content → Value
  | .null => .null
  | .bool b => .bool b
  | .number n => .number n
  | .string text => .string text
  | .seq items => .array (itemValues items)
  | .map members => .object (memberValues members [])

def itemValues : List Content → List Value
  | [] => []
  | item :: items => item.toValue :: itemValues items

def memberValues : List (List Char × Content) → Map → Map
  | [], map => map
  | (key, content) :: members, map => memberValues members (Map.insert key content.toValue map)

end

mutual

/-- The text that a value is written as. -/
def Content.ofValue : Value → Content
  | .null => .null
  | .bool b => .bool b
  | .number n => .number n
  | .string text => .string text
  | .array items => .seq (ofItems items)
  | .object members => .map (ofMembers members)

def ofItems : List Value → List Content
  | [] => []
  | item :: items => Content.ofValue item :: ofItems items

def ofMembers : List (List Char × Value) → List (List Char × Content)
  | [] => []
  | (key, value) :: members => (key, Content.ofValue value) :: ofMembers members

end

/-- The keys are in order, each of them once. -/
def KeysOrdered (map : Map) : Prop := map.Pairwise fun first second => first.1 < second.1

mutual

/-- A value of `serde_json`: in every object the members are in the order of their keys. -/
def Ordered : Value → Prop
  | .array items => AllOrdered items
  | .object members => KeysOrdered members ∧ MembersOrdered members
  | _ => True

def AllOrdered : List Value → Prop
  | [] => True
  | item :: items => Ordered item ∧ AllOrdered items

def MembersOrdered : List (List Char × Value) → Prop
  | [] => True
  | (_, value) :: members => Ordered value ∧ MembersOrdered members

end

section Maps

variable {key other : List Char} {value : Value} {map : Map}

theorem mem_insert {entry : List Char × Value} (member : entry ∈ Map.insert key value map) :
    entry = (key, value) ∨ entry ∈ map := by
  induction map with
  | nil => exact Or.inl (List.mem_singleton.mp member)
  | cons first map ih =>
      obtain ⟨name, old⟩ := first
      rw [Map.insert] at member
      split at member
      · rcases List.mem_cons.mp member with same | behind
        · exact Or.inl same
        · exact Or.inr (List.mem_cons_of_mem _ behind)
      · split at member
        · exact List.mem_cons.mp member
        · rcases List.mem_cons.mp member with same | behind
          · exact Or.inr (same ▸ List.mem_cons_self)
          · rcases ih behind with new | kept
            · exact Or.inl new
            · exact Or.inr (List.mem_cons_of_mem _ kept)

theorem keysOrdered_insert (ordered : KeysOrdered map) : KeysOrdered (Map.insert key value map) := by
  induction map with
  | nil => exact List.pairwise_singleton _ _
  | cons first map ih =>
      obtain ⟨name, old⟩ := first
      obtain ⟨behind, rest⟩ := List.pairwise_cons.mp ordered
      rw [Map.insert]
      split
      · rename_i same
        subst same
        exact List.pairwise_cons.mpr ⟨behind, rest⟩
      · rename_i apart
        split
        · rename_i before
          refine List.pairwise_cons.mpr ⟨?_, ordered⟩
          intro entry member
          rcases List.mem_cons.mp member with same | later
          · rw [same]
            exact before
          · exact lt_trans before (behind entry later)
        · rename_i after
          have after : name < key := lt_of_le_of_ne (not_lt.mp after) (Ne.symm apart)
          refine List.pairwise_cons.mpr ⟨?_, ih rest⟩
          intro entry member
          rcases mem_insert member with same | later
          · rw [same]
            exact after
          · exact behind entry later

theorem membersOrdered_iff {members : Map} :
    MembersOrdered members ↔ ∀ entry ∈ members, Ordered entry.2 := by
  induction members with
  | nil => exact iff_of_true trivial (by simp)
  | cons first members ih =>
      obtain ⟨name, old⟩ := first
      rw [MembersOrdered, ih, List.forall_mem_cons]

theorem membersOrdered_insert (ordered : MembersOrdered map) (fits : Ordered value) :
    MembersOrdered (Map.insert key value map) := by
  rw [membersOrdered_iff] at ordered ⊢
  intro entry member
  rcases mem_insert member with new | kept
  · rw [new]
    exact fits
  · exact ordered entry kept

/-- A key behind all others is added at the end. -/
theorem insert_of_greater (greater : ∀ entry ∈ map, entry.1 < key) :
    Map.insert key value map = map ++ [(key, value)] := by
  induction map with
  | nil => rfl
  | cons first map ih =>
      obtain ⟨name, old⟩ := first
      rw [List.forall_mem_cons] at greater
      rw [Map.insert, if_neg (Ne.symm (ne_of_lt greater.1)), if_neg (not_lt.mpr greater.1.le),
        ih greater.2, List.cons_append]

end Maps

mutual

theorem ordered_toValue : ∀ content : Content, Ordered content.toValue
  | .null => trivial
  | .bool _ => trivial
  | .number _ => trivial
  | .string _ => trivial
  | .seq items => allOrdered_itemValues items
  | .map members => by
      rw [Content.toValue]
      exact memberValues_ordered members ⟨List.Pairwise.nil, trivial⟩

theorem allOrdered_itemValues : ∀ items : List Content, AllOrdered (itemValues items)
  | [] => trivial
  | item :: items => ⟨ordered_toValue item, allOrdered_itemValues items⟩

theorem memberValues_ordered : ∀ (members : List (List Char × Content)) {map : Map},
    KeysOrdered map ∧ MembersOrdered map →
      KeysOrdered (memberValues members map) ∧ MembersOrdered (memberValues members map)
  | [], _, ordered => ordered
  | (_, content) :: members, _, ordered =>
      memberValues_ordered members ⟨keysOrdered_insert ordered.1,
        membersOrdered_insert ordered.2 (ordered_toValue content)⟩

end

mutual

/-- What is written of a value comes to the value. -/
theorem toValue_ofValue : ∀ value : Value, Ordered value → (Content.ofValue value).toValue = value
  | .null, _ => rfl
  | .bool _, _ => rfl
  | .number _, _ => rfl
  | .string _, _ => rfl
  | .array items, ordered => by
      rw [Content.ofValue, Content.toValue, itemValues_ofItems items ordered]
  | .object members, ordered => by
      rw [Content.ofValue, Content.toValue, memberValues_ofMembers members [] ordered.1 ordered.2,
        List.nil_append]

theorem itemValues_ofItems : ∀ items : List Value, AllOrdered items →
    itemValues (ofItems items) = items
  | [], _ => rfl
  | item :: items, ordered => by
      rw [ofItems, itemValues, toValue_ofValue item ordered.1, itemValues_ofItems items ordered.2]

theorem memberValues_ofMembers : ∀ (members : List (List Char × Value)) (map : Map),
    KeysOrdered (map ++ members) → MembersOrdered members →
      memberValues (ofMembers members) map = map ++ members
  | [], map, _, _ => (List.append_nil map).symm
  | (key, value) :: members, map, keys, ordered => by
      have greater : ∀ entry ∈ map, entry.1 < key := by
        intro entry member
        exact (List.pairwise_append.mp keys).2.2 entry member (key, value) List.mem_cons_self
      rw [ofMembers, memberValues, toValue_ofValue value ordered.1, insert_of_greater greater,
        memberValues_ofMembers members _ (by rwa [← List.append_cons]) ordered.2, List.append_assoc,
        List.singleton_append]

end

end Lightweight.Store
