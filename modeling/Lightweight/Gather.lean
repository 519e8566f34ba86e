import Mathlib.Data.List.Induction
import Mathlib.Order.Lattice
import Mathlib.Tactic.Tauto

/-! A map in the order of its keys whose entries are brought up to date one by one, each from a common
initial value. What is gathered under a key depends on the updates of that key alone. -/

namespace Lightweight.Gather

variable {κ ν δ : Type} [LinearOrder κ]

/-- The map with the entry of one key brought up to date. -/
def modify (initial : ν) (key : κ) (update : ν → ν) : List (κ × ν) → List (κ × ν)
  | [] => [(key, update initial)]
  | (other, value) :: rest =>
      if key < other then (key, update initial) :: (other, value) :: rest
      else if key = other then (other, update value) :: rest
      else (other, value) :: modify initial key update rest

/-- The map that the updates of some keys lead to. -/
def gather (initial : ν) (step : ν → δ → ν) (updates : List (κ × δ)) : List (κ × ν) :=
  updates.foldl (fun map entry => modify initial entry.1 (fun value => step value entry.2) map) []

def insertKey (key : κ) : List κ → List κ
  | [] => [key]
  | other :: rest =>
      if key < other then key :: other :: rest
      else if key = other then other :: rest
      else other :: insertKey key rest

/-- The keys of some updates, in order. -/
def keysOf (updates : List (κ × δ)) : List κ :=
  updates.foldl (fun keys entry => insertKey entry.1 keys) []

/-- The updates of one key. -/
def updatesAt (key : κ) (updates : List (κ × δ)) : List δ :=
  updates.filterMap fun entry => if entry.1 = key then some entry.2 else none

theorem mem_insertKey (key other : κ) (keys : List κ) :
    other ∈ insertKey key keys ↔ other = key ∨ other ∈ keys := by
  induction keys with
  | nil => simp [insertKey]
  | cons first keys ih =>
      rw [insertKey]
      split
      · simp
      · split
        · rename_i same
          simp [same]
        · rw [List.mem_cons, ih, List.mem_cons]
          tauto

theorem insertKey_sorted (key : κ) {keys : List κ} (sorted : keys.Pairwise (· < ·)) :
    (insertKey key keys).Pairwise (· < ·) := by
  induction keys with
  | nil => simp [insertKey]
  | cons first keys ih =>
      rw [List.pairwise_cons] at sorted
      rw [insertKey]
      split
      · rename_i before
        rw [List.pairwise_cons, List.pairwise_cons, List.forall_mem_cons]
        exact ⟨⟨before, fun other member => before.trans (sorted.1 other member)⟩, sorted⟩
      · split
        · exact List.pairwise_cons.mpr sorted
        · rename_i notBefore other
          have after : first < key := lt_of_le_of_ne (not_lt.mp notBefore) (Ne.symm other)
          rw [List.pairwise_cons]
          refine ⟨fun later member => ?_, ih sorted.2⟩
          rcases (mem_insertKey key later keys).mp member with rfl | listed
          · exact after
          · exact sorted.1 later listed

/-- The keys are told by the keys of the updates alone. -/
theorem keysOf_congr {δ' : Type} {updates : List (κ × δ)} {others : List (κ × δ')}
    (same : updates.map Prod.fst = others.map Prod.fst) : keysOf updates = keysOf others := by
  have told {δ : Type} (updates : List (κ × δ)) :
      keysOf updates = (updates.map Prod.fst).foldl (fun keys key => insertKey key keys) [] := by
    rw [keysOf, List.foldl_map]
  rw [told, told, same]

theorem keysOf_concat (updates : List (κ × δ)) (entry : κ × δ) :
    keysOf (updates ++ [entry]) = insertKey entry.1 (keysOf updates) := by
  simp [keysOf]

theorem keysOf_sorted (updates : List (κ × δ)) : (keysOf updates).Pairwise (· < ·) := by
  induction updates using List.reverseRecOn with
  | nil => exact List.Pairwise.nil
  | append_singleton updates entry ih =>
      rw [keysOf_concat]
      exact insertKey_sorted entry.1 ih

theorem mem_keysOf (key : κ) (updates : List (κ × δ)) :
    key ∈ keysOf updates ↔ updatesAt key updates ≠ [] := by
  induction updates using List.reverseRecOn with
  | nil => simp [keysOf, updatesAt]
  | append_singleton updates entry ih =>
      rw [keysOf_concat, mem_insertKey, ih]
      by_cases same : entry.1 = key
      · simp [updatesAt, same]
      · have other : ¬key = entry.1 := fun equal => same equal.symm
        simp [updatesAt, same, other]

/-- One update of a map whose values are told by `values`. -/
theorem modify_map {initial : ν} {key : κ} (update : ν → ν) {values : κ → ν} {keys : List κ}
    (sorted : keys.Pairwise (· < ·)) (fresh : key ∉ keys → values key = initial) :
    modify initial key update (keys.map fun k => (k, values k)) =
      (insertKey key keys).map fun k => (k, if k = key then update (values k) else values k) := by
  induction keys with
  | nil => simp [modify, insertKey, fresh]
  | cons first keys ih =>
      rw [List.pairwise_cons] at sorted
      have unchanged (absent : key ∉ keys) : (keys.map fun k => (k, values k)) =
          keys.map fun k => (k, if k = key then update (values k) else values k) := by
        apply List.map_congr_left
        intro k member
        have other : ¬k = key := by
          rintro rfl
          exact absent member
        rw [if_neg other]
      rw [List.map_cons, modify, insertKey]
      split
      · rename_i before
        have absent : key ∉ keys := fun member => lt_asymm before (sorted.1 key member)
        have other : key ∉ first :: keys := List.not_mem_cons_of_ne_of_not_mem before.ne absent
        rw [List.map_cons, List.map_cons, if_pos rfl, if_neg before.ne', fresh other, unchanged absent]
      · split
        · rename_i same
          have absent : key ∉ keys := fun member => lt_irrefl key (same ▸ sorted.1 key member)
          rw [List.map_cons, if_pos same.symm, unchanged absent]
        · rename_i other
          rw [List.map_cons, if_neg (Ne.symm other)]
          congr 1
          exact ih sorted.2 fun absent => fresh (List.not_mem_cons_of_ne_of_not_mem other absent)

/-- Under each key stands what the updates of that key make of the initial value. -/
theorem gather_eq (initial : ν) (step : ν → δ → ν) (updates : List (κ × δ)) :
    gather initial step updates =
      (keysOf updates).map fun key => (key, (updatesAt key updates).foldl step initial) := by
  induction updates using List.reverseRecOn with
  | nil => rfl
  | append_singleton updates entry ih =>
      have last : gather initial step (updates ++ [entry]) =
          modify initial entry.1 (fun value => step value entry.2) (gather initial step updates) := by
        simp [gather]
      have fresh : entry.1 ∉ keysOf updates →
          (updatesAt entry.1 updates).foldl step initial = initial := by
        intro absent
        rw [mem_keysOf, not_not] at absent
        rw [absent, List.foldl_nil]
      rw [last, ih, modify_map _ (keysOf_sorted updates) fresh, keysOf_concat]
      apply List.map_congr_left
      intro key _
      by_cases same : key = entry.1
      · simp [updatesAt, same]
      · have other : ¬entry.1 = key := fun equal => same equal.symm
        simp [updatesAt, same, other]

end Lightweight.Gather
