import Mathlib.Order.Lattice
import Mathlib.Data.List.Basic

/-! Histograms over a ladder of bounds. Each observation is counted in one bucket, the first whose bound
it does not exceed; read out cumulatively the buckets say how many observations are at most a bound. -/

namespace Lightweight.Histogram

variable {α : Type} [LinearOrder α]

/-- The bounds, each above the one before it. -/
structure Ladder (α : Type) [LinearOrder α] where
  bounds : List α
  sorted : bounds.Pairwise (· < ·)

/-- The number of bounds that the value exceeds, which are the first ones. -/
def bucketOf (bounds : List α) (value : α) : Nat :=
  (bounds.takeWhile (· < value)).length

/-- One more in the bucket of the value. -/
def observe (bounds : List α) (counts : List Nat) (value : α) : List Nat :=
  counts.modify (bucketOf bounds value) (· + 1)

/-- A bucket for each bound and one for what exceeds them all. -/
def Ladder.empty (ladder : Ladder α) : List Nat :=
  List.replicate (ladder.bounds.length + 1) 0

def Ladder.observed (ladder : Ladder α) (values : List α) : List Nat :=
  values.foldl (observe ladder.bounds) ladder.empty

/-- The running sums of the counts, on top of what has been counted before them. -/
def cumulative : Nat → List Nat → List Nat
  | _, [] => []
  | running, count :: counts => (running + count) :: cumulative (running + count) counts

/-- How many values are at most each bound, and how many there are. -/
def levels (bounds values : List α) : List Nat :=
  bounds.map (fun bound => values.countP (· ≤ bound)) ++ [values.length]

/-! ### One bucket after the other -/

theorem bucketOf_nil (value : α) : bucketOf [] value = 0 := rfl

theorem bucketOf_cons (bound : α) (bounds : List α) (value : α) :
    bucketOf (bound :: bounds) value = if bound < value then bucketOf bounds value + 1 else 0 := by
  by_cases above : bound < value
  · simp [bucketOf, above]
  · simp [bucketOf, above]

theorem bucketOf_le (bounds : List α) (value : α) : bucketOf bounds value ≤ bounds.length :=
  (List.takeWhile_prefix _).length_le

/-- The first bucket counts what its bound is not exceeded by, the others see only the rest. -/
theorem foldl_observe_cons (bound : α) (bounds : List α) (count : Nat) (counts : List Nat)
    (values : List α) :
    values.foldl (observe (bound :: bounds)) (count :: counts) =
      (count + values.countP (· ≤ bound)) ::
        (values.filter (bound < ·)).foldl (observe bounds) counts := by
  induction values generalizing count counts with
  | nil => rfl
  | cons value values ih =>
      rw [List.foldl_cons]
      by_cases above : bound < value
      · have kept : observe (bound :: bounds) (count :: counts) value =
            count :: observe bounds counts value := by
          simp [observe, bucketOf_cons, above]
        rw [kept, ih, List.countP_cons_of_neg (by simpa using above),
          List.filter_cons_of_pos (by simpa using above), List.foldl_cons]
      · have counted : observe (bound :: bounds) (count :: counts) value = (count + 1) :: counts := by
          simp [observe, bucketOf_cons, above]
        rw [counted, ih, List.countP_cons_of_pos (by simpa using above),
          List.filter_cons_of_neg (by simpa using above)]
        congr 1
        omega

theorem foldl_observe_nil (count : Nat) (values : List α) :
    values.foldl (observe []) [count] = [count + values.length] := by
  induction values generalizing count with
  | nil => rfl
  | cons value values ih =>
      have counted : observe [] [count] value = [count + 1] := rfl
      rw [List.foldl_cons, counted, ih, List.length_cons]
      congr 1
      omega

/-- Beyond a lower bound, the values at most a higher one are those not at most the lower. -/
theorem countP_le_of_lt {low high : α} (below : low < high) (values : List α) :
    values.countP (· ≤ low) + (values.filter (low < ·)).countP (· ≤ high) =
      values.countP (· ≤ high) := by
  induction values with
  | nil => rfl
  | cons value values ih =>
      by_cases above : low < value
      · rw [List.countP_cons_of_neg (by simpa using above),
          List.filter_cons_of_pos (by simpa using above), List.countP_cons, List.countP_cons]
        omega
      · have small : value ≤ high := le_trans (not_lt.mp above) (le_of_lt below)
        rw [List.countP_cons_of_pos (by simpa using above),
          List.filter_cons_of_neg (by simpa using above),
          List.countP_cons_of_pos (by simpa using small)]
        omega

theorem countP_add_length (bound : α) (values : List α) :
    values.countP (· ≤ bound) + (values.filter (bound < ·)).length = values.length := by
  induction values with
  | nil => rfl
  | cons value values ih =>
      by_cases above : bound < value
      · rw [List.countP_cons_of_neg (by simpa using above),
          List.filter_cons_of_pos (by simpa using above), List.length_cons, List.length_cons]
        omega
      · rw [List.countP_cons_of_pos (by simpa using above),
          List.filter_cons_of_neg (by simpa using above), List.length_cons]
        omega

theorem cumulative_foldl_observe {bounds : List α} (sorted : bounds.Pairwise (· < ·))
    (running : Nat) (values : List α) :
    cumulative running (values.foldl (observe bounds) (List.replicate (bounds.length + 1) 0)) =
      (levels bounds values).map (running + ·) := by
  induction bounds generalizing running values with
  | nil =>
      have single : List.replicate 1 0 = [0] := rfl
      rw [List.length_nil, Nat.zero_add, single, foldl_observe_nil, Nat.zero_add]
      rfl
  | cons bound bounds ih =>
      rw [List.pairwise_cons] at sorted
      rw [List.length_cons, List.replicate_succ, foldl_observe_cons, Nat.zero_add, cumulative,
        ih sorted.2]
      have later : (levels bounds (values.filter (bound < ·))).map
          (running + values.countP (· ≤ bound) + ·) =
            (levels bounds values).map (running + ·) := by
        have total := countP_add_length bound values
        rw [levels, levels, List.map_append, List.map_append, List.map_map, List.map_map]
        congr 1
        · apply List.map_congr_left
          intro high member
          have counted := countP_le_of_lt (sorted.1 high member) values
          simp only [Function.comp_apply]
          omega
        · simp only [List.map_cons, List.map_nil]
          congr 1
          omega
      rw [later]
      rfl

/-- The running sums of the buckets say how many of the values are at most each bound. -/
theorem Ladder.cumulative_observed (ladder : Ladder α) (values : List α) :
    cumulative 0 (ladder.observed values) = levels ladder.bounds values := by
  have sums := cumulative_foldl_observe ladder.sorted 0 values
  rw [Ladder.observed, Ladder.empty, sums]
  simp

end Lightweight.Histogram
