import Lightweight.ZeroPadded
import Mathlib.Data.Nat.Digits.Defs

/-! The order of release versions (`release-update/src/version.rs`). -/

namespace Lightweight.Release

open Std

/-- The digits that a part begins with, as a 64-bit number; zero where there are none or too many. -/
def partNumber (part : List Char) : Nat :=
  let digits := part.takeWhile Char.isDigit
  let number := Nat.ofDigitChars 10 digits 0
  if number < UInt64.size then number else 0

def versionParts (version : List Char) : List Nat :=
  ((version.dropWhile (· = 'v')).splitOn '.').map partNumber

/-- The loop of `compare_versions`. -/
def compareParts : List Nat → List Nat → Ordering
  | [], [] => .eq
  | a :: left, b :: right => if a ≠ b then compare a b else compareParts left right
  | a :: _, [] => compare a 0
  | [], b :: _ => compare 0 b

def compareVersions (left right : List Char) : Ordering :=
  compareParts (versionParts left) (versionParts right)

/-- One list goes on where the other ends, with a zero that has more than zeros behind it. -/
def GoesOnLater (longer shorter : List Nat) : Prop :=
  ∃ rest, longer = shorter ++ 0 :: rest ∧ ∃ part ∈ rest, part ≠ 0

section Loop

variable {left right : List Nat}

theorem compareParts_swap (left right : List Nat) :
    (compareParts right left).swap = compareParts left right := by
  fun_induction compareParts left right with
  | case1 => rfl
  | case2 a left b right apart =>
      rw [compareParts, if_pos (Ne.symm apart)]
      exact OrientedOrd.eq_swap.symm
  | case3 a left b right same ih =>
      rw [not_not] at same
      rw [compareParts, if_neg (not_not.mpr same.symm), ih]
  | case4 => exact OrientedOrd.eq_swap.symm
  | case5 => exact OrientedOrd.eq_swap.symm

theorem goesOnLater_cons {a b : Nat} :
    GoesOnLater (a :: left) (b :: right) ↔ a = b ∧ GoesOnLater left right := by
  constructor
  · intro later
    obtain ⟨rest, whole, nonzero⟩ := later
    injection whole with same whole
    exact ⟨same, rest, whole, nonzero⟩
  · intro both
    obtain ⟨same, rest, whole, nonzero⟩ := both
    refine ⟨rest, ?_, nonzero⟩
    rw [same, whole, List.cons_append]

theorem goesOnLater_nil {a : Nat} :
    GoesOnLater (a :: left) [] ↔ a = 0 ∧ ¬∀ part ∈ left, part = 0 := by
  simp [GoesOnLater]

theorem paddedCompare_nil_left {b : Nat} :
    paddedCompare [] (b :: right) = (compare 0 b).then (paddedCompare [] right) := by
  have whole : paddedCompare [] (b :: right) = (paddedCompare (b :: right) []).swap :=
    OrientedCmp.eq_swap
  have rest : paddedCompare [] right = (paddedCompare right []).swap := OrientedCmp.eq_swap
  rw [whole, rest, paddedCompare_cons_nil, Ordering.swap_then, ← OrientedOrd.eq_swap]

/-- A first comparison stands for a whole one just when the rest does not decide. -/
theorem first_decides_iff {first rest : Ordering} :
    first = first.then rest ↔ ¬(first = .eq ∧ rest ≠ .eq) := by
  cases first
  · simp
  · simp [eq_comm]
  · simp

theorem compareParts_eq_iff (left right : List Nat) :
    compareParts left right = paddedCompare left right ↔
      ¬(GoesOnLater left right ∨ GoesOnLater right left) := by
  fun_induction compareParts left right with
  | case1 =>
      refine iff_of_true paddedCompare_nil.symm ?_
      simp [GoesOnLater]
  | case2 a left b right apart =>
      have decided : compare a b ≠ .eq := fun same => apart (LawfulEqOrd.eq_of_compare same)
      rw [paddedCompare_cons, first_decides_iff, goesOnLater_cons, goesOnLater_cons]
      refine iff_of_true (fun both => decided both.1) ?_
      intro later
      rcases later with later | later
      · exact apart later.1
      · exact apart later.1.symm
  | case3 a left b right same ih =>
      have same : a = b := not_not.mp same
      rw [paddedCompare_cons, goesOnLater_cons, goesOnLater_cons, same,
        ReflOrd.compare_self, Ordering.eq_then]
      simpa using ih
  | case4 a left =>
      rw [paddedCompare_cons_nil, first_decides_iff, goesOnLater_nil, Ne,
        paddedCompare_nil_right, LawfulEqOrd.compare_eq_iff_eq]
      simp [GoesOnLater]
  | case5 b right =>
      have rest : paddedCompare [] right = .eq ↔ ∀ part ∈ right, part = 0 := by
        rw [OrientedCmp.eq_comm, paddedCompare_nil_right]
      rw [paddedCompare_nil_left, first_decides_iff, goesOnLater_nil, Ne, rest,
        LawfulEqOrd.compare_eq_iff_eq, eq_comm]
      simp [GoesOnLater]

end Loop

/-- Neither version has more parts than the other that begin with a zero and are not all zero. -/
def ToldApart (left right : List Char) : Prop :=
  ¬(GoesOnLater (versionParts left) (versionParts right) ∨
    GoesOnLater (versionParts right) (versionParts left))

theorem compareVersions_eq {left right : List Char} (told : ToldApart left right) :
    compareVersions left right = paddedCompare (versionParts left) (versionParts right) :=
  (compareParts_eq_iff _ _).mpr told

/-- Versions are compared as lists extended by zeros just when they are told apart. Among such the
comparison is a preorder that takes for equal what differs in zeros at the end alone. -/
theorem versions_in_order_iff (left right : List Char) :
    (compareVersions left right = paddedCompare (versionParts left) (versionParts right) ↔
      ToldApart left right) ∧
    compareVersions left left = .eq ∧
    compareVersions left right = (compareVersions right left).swap ∧
    (ToldApart left right → (compareVersions left right = .eq ↔
      ∃ length, (versionParts left).length ≤ length ∧ (versionParts right).length ≤ length ∧
        zeroPadded length (versionParts left) = zeroPadded length (versionParts right))) ∧
    ∀ last, ToldApart left right → ToldApart right last → ToldApart left last →
      (compareVersions left right).isLE → (compareVersions right last).isLE →
        (compareVersions left last).isLE := by
  refine ⟨compareParts_eq_iff _ _, ?_, (compareParts_swap _ _).symm, ?_, ?_⟩
  · have own : ToldApart left left := by
      intro later
      rcases later with later | later
      all_goals
        obtain ⟨rest, whole, -⟩ := later
        simpa using congrArg List.length whole
    rw [compareVersions_eq own]
    exact ReflCmp.compare_self
  · intro told
    rw [compareVersions_eq told, paddedCompare_eq_iff]
    constructor
    · exact fun same => ⟨_, Nat.le_max_left _ _, Nat.le_max_right _ _, same⟩
    · intro alike
      obtain ⟨length, first, second, same⟩ := alike
      rw [← paddedCompare_eq_iff, paddedCompare_of_le length first second, same]
      exact ReflCmp.compare_self
  · intro last told behind across
    rw [compareVersions_eq told, compareVersions_eq behind, compareVersions_eq across]
    exact TransCmp.isLE_trans

theorem patch_behind_major :
    compareVersions "1.0.1".toList "1".toList = .eq ∧
      paddedCompare (versionParts "1.0.1".toList) (versionParts "1".toList) = .gt ∧
      compareVersions "1".toList "1.0".toList = .eq ∧
      compareVersions "1.0.1".toList "1.0".toList = .gt := by
  decide

end Lightweight.Release
