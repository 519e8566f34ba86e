import Mathlib.Data.List.Sort
import Mathlib.Data.List.Nodup
import Lightweight.MinByKey

/-! Taking the least element again and again is a stable sort, and how many elements are before one
tells when it is taken. -/

namespace Lightweight

variable {α κ : Type} [LinearOrder κ] {key : α → κ} {xs : List α}

/-- How many elements come strictly before `x`. -/
def aheadOf (key : α → κ) (xs : List α) (x : α) : Nat :=
  xs.countP fun other => key other < key x

/-- By key, ties as they were. -/
def sortByKey (key : α → κ) (xs : List α) : List α :=
  xs.insertionSort fun a b => key a ≤ key b

theorem sortByKey_perm (key : α → κ) (xs : List α) : (sortByKey key xs).Perm xs :=
  List.perm_insertionSort _ xs

theorem sortByKey_sorted (key : α → κ) (xs : List α) :
    (sortByKey key xs).Pairwise fun a b => key a ≤ key b := by
  have total : Std.Total fun a b : α => key a ≤ key b := ⟨fun a b => le_total (key a) (key b)⟩
  have trans : IsTrans α fun a b => key a ≤ key b := ⟨fun _ _ _ => le_trans⟩
  exact List.pairwise_insertionSort _ xs

theorem mem_sortByKey {x : α} : x ∈ sortByKey key xs ↔ x ∈ xs :=
  (sortByKey_perm key xs).mem_iff

/-- The least element leads. -/
theorem sortByKey_cons {x : α} (least : ∀ y ∈ xs, key x ≤ key y) :
    sortByKey key (x :: xs) = x :: sortByKey key xs := by
  rw [sortByKey, List.insertionSort_cons]
  change List.orderedInsert _ x (sortByKey key xs) = _
  cases sorted : sortByKey key xs with
  | nil => rfl
  | cons y rest =>
      have member : y ∈ sortByKey key xs := by
        rw [sorted]
        exact List.mem_cons_self
      exact List.orderedInsert_cons_of_le _ rest (least y (mem_sortByKey.mp member))

/-- Taking the first of the least elements is the step of the sort. -/
theorem sortByKey_minByKey {front back : List α} {x : α}
    (found : minByKey key xs = some (front, x, back)) :
    sortByKey key xs = x :: sortByKey key (front ++ back) := by
  obtain ⟨rfl, before, after⟩ := minByKey_spec found
  clear found
  induction front with
  | nil => exact sortByKey_cons after
  | cons y front ih =>
      rw [List.forall_mem_cons] at before
      have tail := ih before.2
      rw [List.cons_append, sortByKey, List.insertionSort_cons]
      change List.orderedInsert _ y (sortByKey key (front ++ x :: back)) = _
      rw [tail, List.orderedInsert_cons, if_neg (not_le.mpr before.1)]
      rfl

theorem aheadOf_perm {ys : List α} (same : xs.Perm ys) (x : α) :
    aheadOf key xs x = aheadOf key ys x :=
  same.countP_eq _

theorem aheadOf_le_length (key : α → κ) (xs : List α) (x : α) : aheadOf key xs x ≤ xs.length :=
  List.countP_le_length

/-- An element is not before itself. -/
theorem aheadOf_lt_length {x : α} (member : x ∈ xs) : aheadOf key xs x < xs.length := by
  obtain ⟨front, back, rfl⟩ := List.append_of_mem member
  have left := aheadOf_le_length key front x
  have right := aheadOf_le_length key back x
  simp only [aheadOf, List.countP_append, List.countP_cons, lt_irrefl, decide_false,
    Bool.false_eq_true, if_false, List.length_append, List.length_cons] at left right ⊢
  omega

theorem aheadOf_le_iff {x y : α} (here : x ∈ xs) (there : y ∈ xs) :
    key x ≤ key y ↔ aheadOf key xs x ≤ aheadOf key xs y := by
  constructor
  · intro below
    apply List.countP_mono_left
    intro other _ before
    rw [decide_eq_true_iff] at before ⊢
    exact before.trans_le below
  · intro fewer
    by_contra above
    rw [not_le] at above
    -- what is before `y` is before `x`, and so is `y` itself
    obtain ⟨front, back, rfl⟩ := List.append_of_mem there
    have counted : aheadOf key (front ++ y :: back) y + 1 ≤
        aheadOf key (front ++ y :: back) x := by
      have left : aheadOf key front y ≤ aheadOf key front x := by
        apply List.countP_mono_left
        intro other _ before
        rw [decide_eq_true_iff] at before ⊢
        exact before.trans above
      have right : aheadOf key back y ≤ aheadOf key back x := by
        apply List.countP_mono_left
        intro other _ before
        rw [decide_eq_true_iff] at before ⊢
        exact before.trans above
      simp only [aheadOf, List.countP_append, List.countP_cons, lt_irrefl, decide_false,
        Bool.false_eq_true, if_false, above, decide_true, if_true] at left right ⊢
      omega
    omega

/-- With distinct keys, the element sorted to place `k` has `k` before it. -/
theorem aheadOf_sorted {ys : List α} (sorted : ys.Pairwise fun a b => key a < key b) :
    ys.map (aheadOf key ys) = List.range ys.length := by
  induction ys with
  | nil => rfl
  | cons y rest ih =>
      rw [List.pairwise_cons] at sorted
      have first : aheadOf key (y :: rest) y = 0 := by
        simp only [aheadOf, List.countP_eq_zero, decide_eq_true_eq, List.forall_mem_cons, not_lt]
        exact ⟨le_refl _, fun other member => (sorted.1 other member).le⟩
      have later : rest.map (aheadOf key (y :: rest)) =
          (rest.map (aheadOf key rest)).map (· + 1) := by
        rw [List.map_map]
        apply List.map_congr_left
        intro other member
        simp [aheadOf, sorted.1 other member]
      rw [List.map_cons, first, later, ih sorted.2, List.length_cons, List.range_succ_eq_map]

theorem sortByKey_strict (distinct : (xs.map key).Nodup) :
    (sortByKey key xs).Pairwise fun a b => key a < key b := by
  have apart : (sortByKey key xs).Pairwise fun a b => key a ≠ key b := by
    rw [← List.pairwise_map (f := key)]
    exact ((sortByKey_perm key xs).map key).nodup_iff.mpr distinct
  exact ((sortByKey_sorted key xs).and apart).imp fun both => lt_of_le_of_ne both.1 both.2

end Lightweight
