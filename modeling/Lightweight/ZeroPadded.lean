import Mathlib.Algebra.Notation.Defs

/-! Lists of any lengths compared in lexicographic order, the shorter one extended by zeros. -/

namespace Lightweight

open Std

/-- What stands behind lists of one length plays no part where it is the same. -/
theorem compareLex_append_same {α : Type} [Ord α] [ReflOrd α] {xs ys : List α}
    (level : xs.length = ys.length) (back : List α) :
    List.compareLex compare (xs ++ back) (ys ++ back) = List.compareLex compare xs ys := by
  induction xs generalizing ys with
  | nil =>
      rw [List.eq_nil_of_length_eq_zero level.symm, List.compareLex_nil_nil]
      exact ReflCmp.compare_self
  | cons x xs ih =>
      cases ys with
      | nil => cases level
      | cons y ys =>
          rw [List.cons_append, List.cons_append, List.compareLex_cons_cons,
            List.compareLex_cons_cons, ih (Nat.succ.inj level)]

section Padding

variable {α : Type} [Zero α]

/-- A list extended by zeros up to a length. -/
def zeroPadded (length : Nat) (xs : List α) : List α := xs ++ List.replicate (length - xs.length) 0

theorem zeroPadded_zeroPadded {xs : List α} {short long : Nat} (fits : xs.length ≤ short)
    (longer : short ≤ long) :
    zeroPadded long xs = zeroPadded short xs ++ List.replicate (long - short) 0 := by
  unfold zeroPadded
  rw [List.append_assoc, List.replicate_append_replicate]
  congr 2
  omega

theorem length_zeroPadded {xs : List α} {length : Nat} (fits : xs.length ≤ length) :
    (zeroPadded length xs).length = length := by
  rw [zeroPadded, List.length_append, List.length_replicate]
  omega

theorem zeroPadded_cons (length : Nat) (x : α) (xs : List α) :
    zeroPadded (length + 1) (x :: xs) = x :: zeroPadded length xs := by
  rw [zeroPadded, List.length_cons, Nat.add_sub_add_right]
  rfl

theorem zeroPadded_nil (length : Nat) :
    zeroPadded (length + 1) ([] : List α) = 0 :: zeroPadded length [] := by
  simp [zeroPadded, List.replicate_succ]

end Padding

section Order

variable {α : Type} [Zero α] [Ord α]

def paddedCompare (xs ys : List α) : Ordering :=
  List.compareLex compare (zeroPadded (max xs.length ys.length) xs)
    (zeroPadded (max xs.length ys.length) ys)

theorem paddedCompare_nil : paddedCompare ([] : List α) [] = .eq := List.compareLex_nil_nil

/-- Two lists compare equal just when they differ in zeros at their ends alone. -/
theorem paddedCompare_eq_iff [LawfulEqOrd α] {xs ys : List α} :
    paddedCompare xs ys = .eq ↔
      zeroPadded (max xs.length ys.length) xs = zeroPadded (max xs.length ys.length) ys := by
  unfold paddedCompare
  exact LawfulEqCmp.compare_eq_iff_eq

variable [TransOrd α] {xs ys : List α}

/-- Any length that holds both lists will do. -/
theorem paddedCompare_of_le (length : Nat) (first : xs.length ≤ length) (second : ys.length ≤ length) :
    paddedCompare xs ys =
      List.compareLex compare (zeroPadded length xs) (zeroPadded length ys) := by
  have enough : max xs.length ys.length ≤ length := Nat.max_le.mpr ⟨first, second⟩
  rw [zeroPadded_zeroPadded (Nat.le_max_left _ _) enough,
    zeroPadded_zeroPadded (Nat.le_max_right _ _) enough]
  symm
  apply compareLex_append_same
  rw [length_zeroPadded (Nat.le_max_left _ _), length_zeroPadded (Nat.le_max_right _ _)]

theorem paddedCompare_cons (x y : α) (xs ys : List α) :
    paddedCompare (x :: xs) (y :: ys) = (compare x y).then (paddedCompare xs ys) := by
  have first : (x :: xs).length ≤ max xs.length ys.length + 1 :=
    Nat.succ_le_succ (Nat.le_max_left _ _)
  have second : (y :: ys).length ≤ max xs.length ys.length + 1 :=
    Nat.succ_le_succ (Nat.le_max_right _ _)
  rw [paddedCompare_of_le _ first second, zeroPadded_cons, zeroPadded_cons,
    List.compareLex_cons_cons]
  rfl

theorem paddedCompare_cons_nil (x : α) (xs : List α) :
    paddedCompare (x :: xs) [] = (compare x 0).then (paddedCompare xs []) := by
  rw [paddedCompare_of_le (xs.length + 1) (Nat.le_refl _) (Nat.zero_le _), zeroPadded_cons,
    zeroPadded_nil, List.compareLex_cons_cons,
    ← paddedCompare_of_le xs.length (Nat.le_refl _) (Nat.zero_le _)]

instance : OrientedCmp (paddedCompare (α := α)) where
  eq_swap {xs ys} := by
    rw [paddedCompare, paddedCompare, Nat.max_comm]
    exact OrientedCmp.eq_swap

instance : TransCmp (paddedCompare (α := α)) where
  isLE_trans {xs ys zs} := by
    have first : xs.length ≤ max xs.length (max ys.length zs.length) := by omega
    have second : ys.length ≤ max xs.length (max ys.length zs.length) := by omega
    have third : zs.length ≤ max xs.length (max ys.length zs.length) := by omega
    rw [paddedCompare_of_le _ first second, paddedCompare_of_le _ second third,
      paddedCompare_of_le _ first third]
    exact TransCmp.isLE_trans

theorem paddedCompare_nil_right [LawfulEqOrd α] : paddedCompare xs [] = .eq ↔ ∀ x ∈ xs, x = 0 := by
  induction xs with
  | nil => exact iff_of_true paddedCompare_nil fun x member => by cases member
  | cons x xs ih =>
      rw [paddedCompare_cons_nil, Ordering.then_eq_eq, LawfulEqOrd.compare_eq_iff_eq, ih,
        List.forall_mem_cons]

end Order

end Lightweight
