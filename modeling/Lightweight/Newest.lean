import Mathlib.Data.List.DropRight
import Mathlib.Data.List.Induction

/-! A buffer of fixed size that holds the newest values of a run, each new one pushing the oldest
out. -/

namespace Lightweight

/-- The values held, and whether one was pushed out. -/
structure Ring (α : Type) where
  kept : List α
  truncated : Bool
deriving DecidableEq, Repr

namespace Ring

variable {α β : Type}

def empty : Ring α := ⟨[], false⟩

def push (limit : Nat) (ring : Ring α) (value : α) : Ring α :=
  if ring.kept.length = limit then ⟨ring.kept.tail ++ [value], true⟩
  else { ring with kept := ring.kept ++ [value] }

/-- The ring that a run of values leaves. -/
def ofRun (limit : Nat) (values : List α) : Ring α :=
  ⟨values.rtake limit, decide (limit < values.length)⟩

theorem rtake_of_length_le {values : List α} {n : Nat} (short : values.length ≤ n) :
    values.rtake n = values := by
  rw [List.rtake, Nat.sub_eq_zero_of_le short, List.drop_zero]

theorem length_rtake (values : List α) (n : Nat) :
    (values.rtake n).length = min values.length n := by
  rw [List.rtake, List.length_drop]
  omega

theorem push_ofRun {limit : Nat} (room : 0 < limit) (values : List α) (value : α) :
    (ofRun limit values).push limit value = ofRun limit (values ++ [value]) := by
  obtain ⟨others, rfl⟩ := Nat.exists_eq_succ_of_ne_zero room.ne'
  simp only [push, ofRun, Nat.succ_eq_add_one, List.rtake_concat_succ, List.length_append,
    List.length_singleton, length_rtake]
  by_cases full : others + 1 ≤ values.length
  · have tail : (values.rtake (others + 1)).tail = values.rtake others := by
      rw [List.rtake, List.rtake, List.tail_drop]
      congr 1
      omega
    rw [if_pos (by omega), tail]
    congr 1
    exact (decide_eq_true (by omega)).symm
  · rw [if_neg (by omega), rtake_of_length_le (by omega), rtake_of_length_le (by omega)]
    congr 1
    rw [decide_eq_decide]
    omega

theorem foldl_push {limit : Nat} (room : 0 < limit) (values : List α) :
    values.foldl (push limit) empty = ofRun limit values := by
  induction values using List.reverseRecOn with
  | nil => simp [empty, ofRun]
  | append_singleton values value ih =>
      rw [List.foldl_append, ih, List.foldl_cons, List.foldl_nil, push_ofRun room]

/-- Further values leave the ring as it is only where it has pushed one out and they end in the same
ones as before. -/
theorem ofRun_append_eq_iff (limit : Nat) (values later : List α) :
    ofRun limit (values ++ later) = ofRun limit values ↔ later = [] ∨
      (limit < values.length ∧ (values ++ later).rtake limit = values.rtake limit) := by
  simp only [ofRun, Ring.mk.injEq, decide_eq_decide, List.length_append]
  constructor
  · rintro ⟨same, pushed⟩
    by_cases full : limit < values.length
    · exact .inr ⟨full, same⟩
    · left
      have short : values.length ≤ limit := not_lt.mp full
      have all : (values ++ later).length ≤ limit := by
        rw [List.length_append]
        omega
      rw [rtake_of_length_le short, rtake_of_length_le all] at same
      exact List.append_right_eq_self.mp same
  · rintro (rfl | ⟨full, same⟩)
    · simp
    · exact ⟨same, by omega⟩

end Ring

end Lightweight
