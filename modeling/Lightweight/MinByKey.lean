import Mathlib.Order.Lattice

/-! The first element of a list with the least key, with the elements on either side of it. -/

namespace Lightweight

variable {α κ : Type} [LinearOrder κ]

/-- Ties go to the element nearest the head. -/
def minByKey (key : α → κ) : List α → Option (List α × α × List α)
  | [] => none
  | x :: xs =>
      match minByKey key xs with
      | none => some ([], x, xs)
      | some (front, y, back) =>
          if key y < key x then some (x :: front, y, back) else some ([], x, xs)

theorem minByKey_eq_none {key : α → κ} {xs : List α} : minByKey key xs = none ↔ xs = [] := by
  cases xs with
  | nil => simp [minByKey]
  | cons x xs =>
      simp only [minByKey, reduceCtorEq, iff_false]
      split
      · simp
      · split <;> simp

theorem minByKey_spec {key : α → κ} {xs front back : List α} {y : α}
    (found : minByKey key xs = some (front, y, back)) :
    xs = front ++ y :: back ∧ (∀ x ∈ front, key y < key x) ∧ ∀ x ∈ back, key y ≤ key x := by
  induction xs generalizing front y back with
  | nil => simp [minByKey] at found
  | cons x xs ih =>
      simp only [minByKey] at found
      split at found
      · rename_i empty
        have nothing := minByKey_eq_none.mp empty
        simp only [Option.some.injEq, Prod.mk.injEq] at found
        obtain ⟨rfl, rfl, rfl⟩ := found
        simp [nothing]
      · rename_i front' z back' smaller
        obtain ⟨split', before, after⟩ := ih smaller
        by_cases better : key z < key x
        · rw [if_pos better] at found
          simp only [Option.some.injEq, Prod.mk.injEq] at found
          obtain ⟨rfl, rfl, rfl⟩ := found
          refine ⟨by rw [split']; rfl, ?_, after⟩
          intro w member
          rcases List.mem_cons.mp member with rfl | member
          · exact better
          · exact before w member
        · rw [if_neg better] at found
          simp only [Option.some.injEq, Prod.mk.injEq] at found
          obtain ⟨rfl, rfl, rfl⟩ := found
          refine ⟨rfl, by simp, ?_⟩
          intro w member
          have least : key x ≤ key z := not_lt.mp better
          rw [split'] at member
          rcases List.mem_append.mp member with member | member
          · exact le_of_lt (lt_of_le_of_lt least (before w member))
          · rcases List.mem_cons.mp member with rfl | member
            · exact least
            · exact le_trans least (after w member)

theorem minByKey_le {key : α → κ} {xs front back : List α} {y : α}
    (found : minByKey key xs = some (front, y, back)) : ∀ x ∈ xs, key y ≤ key x := by
  obtain ⟨rfl, before, after⟩ := minByKey_spec found
  intro x member
  rcases List.mem_append.mp member with member | member
  · exact le_of_lt (before x member)
  · rcases List.mem_cons.mp member with rfl | member
    · exact le_rfl
    · exact after x member

end Lightweight
