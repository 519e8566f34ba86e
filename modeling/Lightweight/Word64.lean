import Mathlib.Algebra.Order.Floor.Div
import Mathlib.Algebra.BigOperators.Group.List.Basic

/-! Unsigned 64-bit arithmetic: operations that check for an overflow or stop at the largest number,
told in unbounded numbers. -/

namespace Lightweight.Word64

def checkedAdd (a b : UInt64) : Option UInt64 :=
  if a.toNat + b.toNat < UInt64.size then some (a + b) else none

def checkedMul (a b : UInt64) : Option UInt64 :=
  if a.toNat * b.toNat < UInt64.size then some (a * b) else none

def saturatingAdd (a b : UInt64) : UInt64 := UInt64.ofNatClamp (a.toNat + b.toNat)

def saturatingSub (a b : UInt64) : UInt64 := if b ≤ a then a - b else 0

def saturatingMul (a b : UInt64) : UInt64 := UInt64.ofNatClamp (a.toNat * b.toNat)

/-- The quotient, one more if there is a remainder. -/
def divCeil (a b : UInt64) : UInt64 := if 0 < a % b then a / b + 1 else a / b

theorem toNat_mul_of_lt {a b : UInt64} (fits : a.toNat * b.toNat < UInt64.size) :
    (a * b).toNat = a.toNat * b.toNat := by
  rw [UInt64.toNat_mul]
  exact Nat.mod_eq_of_lt fits

theorem checkedMul_eq_some {a b c : UInt64} (computed : checkedMul a b = some c) :
    c.toNat = a.toNat * b.toNat := by
  unfold checkedMul at computed
  split at computed
  · rename_i fits
    cases computed
    exact toNat_mul_of_lt fits
  · cases computed

/-- A product that is a number of 64 bits is computed. -/
theorem checkedMul_of_toNat {a b c : UInt64} (exact_product : c.toNat = a.toNat * b.toNat) :
    checkedMul a b = some c := by
  have fits : a.toNat * b.toNat < UInt64.size := by
    rw [← exact_product]
    exact c.toNat_lt
  rw [checkedMul, if_pos fits, Option.some.injEq]
  apply UInt64.toNat_inj.mp
  rw [toNat_mul_of_lt fits, exact_product]

theorem checkedAdd_eq_some {a b c : UInt64} (computed : checkedAdd a b = some c) :
    c.toNat = a.toNat + b.toNat := by
  unfold checkedAdd at computed
  split at computed
  · rename_i fits
    cases computed
    rw [UInt64.toNat_add]
    exact Nat.mod_eq_of_lt fits
  · cases computed

theorem toNat_ofNatClamp (n : Nat) : (UInt64.ofNatClamp n).toNat = min n (UInt64.size - 1) := by
  unfold UInt64.ofNatClamp
  split
  · rename_i fits
    rw [UInt64.toNat_ofNatLT]
    omega
  · rename_i wide
    rw [UInt64.toNat_ofNatLT]
    omega

theorem toNat_saturatingAdd (a b : UInt64) :
    (saturatingAdd a b).toNat = min (a.toNat + b.toNat) (UInt64.size - 1) :=
  toNat_ofNatClamp _

theorem toNat_saturatingMul (a b : UInt64) :
    (saturatingMul a b).toNat = min (a.toNat * b.toNat) (UInt64.size - 1) :=
  toNat_ofNatClamp _

theorem toNat_saturatingSub (a b : UInt64) : (saturatingSub a b).toNat = a.toNat - b.toNat := by
  unfold saturatingSub
  split
  · rename_i below
    exact UInt64.toNat_sub_of_le a b below
  · rename_i above
    rw [UInt64.le_iff_toNat_le] at above
    rw [UInt64.toNat_zero]
    omega

theorem ceilDiv_of_mod_pos {a b : Nat} (remains : 0 < a % b) (positive : 0 < b) :
    a ⌈/⌉ b = a / b + 1 := by
  have below := Nat.mod_lt a positive
  calc
    a ⌈/⌉ b = (a + b - 1) / b := Nat.ceilDiv_eq_add_pred_div a b
    _ = (b * (a / b + 1) + (a % b - 1)) / b := by
      have parts := Nat.div_add_mod a b
      rw [Nat.mul_add]
      congr 1
      omega
    _ = a / b + 1 := by
      have less : (a % b - 1) / b = 0 := Nat.div_eq_of_lt (by omega)
      rw [Nat.mul_add_div positive, less, Nat.add_zero]

theorem ceilDiv_of_mod_zero {a b : Nat} (divides : a % b = 0) (positive : 0 < b) :
    a ⌈/⌉ b = a / b := by
  calc
    a ⌈/⌉ b = (a + b - 1) / b := Nat.ceilDiv_eq_add_pred_div a b
    _ = (b * (a / b) + (b - 1)) / b := by
      have parts := Nat.div_add_mod a b
      congr 1
      omega
    _ = a / b := by
      have less : (b - 1) / b = 0 := Nat.div_eq_of_lt (by omega)
      rw [Nat.mul_add_div positive, less, Nat.add_zero]

theorem toNat_divCeil (a : UInt64) {b : UInt64} (positive : 0 < b.toNat) :
    (divCeil a b).toNat = a.toNat ⌈/⌉ b.toNat := by
  unfold divCeil
  split
  · rename_i remains
    have remains : 0 < a.toNat % b.toNat := by
      rwa [UInt64.lt_iff_toNat_lt, UInt64.toNat_mod] at remains
    -- a remainder excludes 1 as the divisor, so the quotient leaves room for one more
    have wide : 1 < b.toNat := by
      have below := Nat.mod_lt a.toNat positive
      omega
    have smaller : a.toNat / b.toNat < a.toNat := by
      apply Nat.div_lt_self _ wide
      exact Nat.pos_of_ne_zero fun zero => by simp [zero] at remains
    rw [UInt64.toNat_add, UInt64.toNat_div, ceilDiv_of_mod_pos remains positive]
    apply Nat.mod_eq_of_lt
    have bound := a.toNat_lt
    have one : (1 : UInt64).toNat = 1 := rfl
    omega
  · rename_i none_left
    have divides : a.toNat % b.toNat = 0 := by
      rw [UInt64.lt_iff_toNat_lt, UInt64.toNat_mod] at none_left
      exact Nat.eq_zero_of_not_pos none_left
    rw [UInt64.toNat_div, ceilDiv_of_mod_zero divides positive]

/-- A product computed factor by factor, each step checked. -/
theorem foldlM_checkedMul {start total : UInt64} {factors : List UInt64}
    (computed : factors.foldlM checkedMul start = some total) :
    total.toNat = start.toNat * (factors.map UInt64.toNat).prod := by
  induction factors generalizing start with
  | nil =>
      cases computed
      simp
  | cons factor factors ih =>
      rw [List.foldlM_cons] at computed
      obtain ⟨next, step, rest⟩ := Option.bind_eq_some_iff.mp computed
      rw [ih rest, checkedMul_eq_some step, List.map_cons, List.prod_cons, Nat.mul_assoc]

/-- The product is computed just when no leading factors overflow. -/
theorem foldlM_checkedMul_ne_none {start : UInt64} {factors : List UInt64} :
    factors.foldlM checkedMul start ≠ none ↔
      ∀ leading, leading <+: factors →
        start.toNat * (leading.map UInt64.toNat).prod < UInt64.size := by
  induction factors generalizing start with
  | nil =>
      constructor
      · rintro - leading ⟨rest, empty⟩
        rw [(List.append_eq_nil_iff.mp empty).1, List.map_nil, List.prod_nil, Nat.mul_one]
        exact start.toNat_lt
      · intro _ none
        cases none
  | cons factor factors ih =>
      rw [List.foldlM_cons]
      by_cases fits : start.toNat * factor.toNat < UInt64.size
      · have step : checkedMul start factor = some (start * factor) := by
          rw [checkedMul, if_pos fits]
        rw [step]
        change factors.foldlM checkedMul (start * factor) ≠ none ↔ _
        rw [ih, toNat_mul_of_lt fits]
        constructor
        · intro below leading leads
          rcases List.prefix_cons_iff.mp leads with rfl | ⟨rest, rfl, rest_leads⟩
          · rw [List.map_nil, List.prod_nil, Nat.mul_one]
            exact start.toNat_lt
          · rw [List.map_cons, List.prod_cons, ← Nat.mul_assoc]
            exact below rest rest_leads
        · intro below leading leads
          have whole := below (factor :: leading) (List.cons_prefix_cons.mpr ⟨rfl, leads⟩)
          rwa [List.map_cons, List.prod_cons, ← Nat.mul_assoc] at whole
      · have step : checkedMul start factor = none := by
          rw [checkedMul, if_neg fits]
        rw [step]
        constructor
        · intro some
          exact absurd rfl some
        · intro below
          have first := below [factor] (List.cons_prefix_cons.mpr ⟨rfl, List.nil_prefix⟩)
          rw [List.map_singleton, List.prod_singleton] at first
          exact absurd first fits

end Lightweight.Word64
