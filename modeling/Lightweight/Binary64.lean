import Mathlib.Data.Rat.Defs
import Mathlib.Algebra.Order.Ring.Rat
import Mathlib.Tactic.NormNum

/-! The numbers that doubles stand for. -/

namespace Lightweight.Binary64

def sign (bits : UInt64) : ℚ :=
  if bits.toNat / 2 ^ 63 = 0 then 1 else -1

def exponentField (bits : UInt64) : Nat := bits.toNat / 2 ^ 52 % 2 ^ 11

def fractionField (bits : UInt64) : Nat := bits.toNat % 2 ^ 52

/-- The number of a double, none for an infinity or no number. -/
def value (bits : UInt64) : Option ℚ :=
  if exponentField bits = 2047 then none
  else if exponentField bits = 0 then
    some (sign bits * fractionField bits / 2 ^ 1074)
  else
    some (sign bits * (2 ^ 52 + fractionField bits) * 2 ^ exponentField bits / 2 ^ 1075)

example : value 0x3fe0000000000000 = some (1 / 2) := by decide +kernel

/-- A double read as the number it stands for; `none` is an infinity or no number. -/
abbrev Exact := Option ℚ

namespace Exact

def mul (a b : Exact) : Exact := a.bind fun x => b.map fun y => x * y

def add (a b : Exact) : Exact := a.bind fun x => b.map fun y => x + y

/-- By zero, an infinity or no number. -/
def div (a b : Exact) : Exact := a.bind fun x => b.bind fun y => if y = 0 then none else some (x / y)

/-- Of numbers; what is no number is below nothing. -/
def lt : Exact → Exact → Bool
  | some x, some y => x < y
  | _, _ => false

def le : Exact → Exact → Bool
  | some x, some y => x ≤ y
  | _, _ => false

/-- `(low..=high).contains(a)` for numbers `low` and `high`. -/
def within (low high : ℚ) : Exact → Bool
  | some x => low ≤ x && x ≤ high
  | none => false

theorem within_iff {low high : ℚ} {a : Exact} :
    within low high a = true ↔ ∃ x, a = some x ∧ low ≤ x ∧ x ≤ high := by
  cases a with
  | none => simp [within]
  | some x => simp [within]

end Exact

end Lightweight.Binary64
