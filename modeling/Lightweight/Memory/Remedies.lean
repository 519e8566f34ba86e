import Lightweight.Memory.KvBounds

/-! What to do about a load that does not fit (`estimate.rs`), and whether the memory that is asked
for is enough. The texts of the remedies are left out. -/

namespace Lightweight.Memory

open Lightweight.Core Lightweight.Gguf Lightweight.Word64

inductive SettingsSection where
  | models
deriving DecidableEq, Repr

/-- The remedies that an estimate can offer. -/
inductive RemedyAction where
  | reduceContext (toTokens : UInt32)
  | quantizeKvCache (cacheType : GgmlType) (savesBytes : UInt64)
  | useSmallerModel (maxWeightBytes : UInt64)
  | freeMemory (neededBytes : UInt64)
  | openSettings (page : SettingsSection)
deriving DecidableEq

namespace Estimate

/-- How much more memory would be needed for a safe load. -/
def shortfall (estimate : Estimate) : UInt64 :=
  saturatingSub (saturatingAdd estimate.total estimate.margin) estimate.budget

/-- Best first. -/
def remedies (estimate : Estimate) : List RemedyAction :=
  if estimate.verdict.isAdmissible then []
  else
    let reduce := (estimate.maxContextThatFits.map .reduceContext).toList
    let quantize :=
      if estimate.params.cacheTypeK = .f16 ∧ mebibytes 256 < estimate.kvCache then
        [.quantizeKvCache .q8_0
          (saturatingSub estimate.kvCache (saturatingMul estimate.kvCache 34 / 64))]
      else []
    let smaller :=
      [.useSmallerModel
        (saturatingSub (saturatingSub estimate.budget estimate.margin) estimate.overhead)]
    let free := [.freeMemory estimate.shortfall]
    let complete := if estimate.confidence = .partialMetadata then [.openSettings .models] else []
    reduce ++ quantize ++ smaller ++ free ++ complete

/-- A load that is refused asks for the shortfall to be freed, and for no other amount. -/
theorem freeMemory_mem_remedies (estimate : Estimate) (needed : UInt64) :
    .freeMemory needed ∈ estimate.remedies ↔
      estimate.verdict = .insufficient ∧ needed = estimate.shortfall := by
  unfold remedies
  cases told : estimate.verdict with
  | safe => simp [Verdict.isAdmissible]
  | tight => simp [Verdict.isAdmissible]
  | insufficient =>
      cases estimate.maxContextThatFits <;> by_cases partly : estimate.confidence = .partialMetadata <;>
        by_cases full : estimate.params.cacheTypeK = .f16 ∧ mebibytes 256 < estimate.kvCache <;>
        simp [Verdict.isAdmissible, partly, full]

end Estimate

section Shortfall

variable {estimator : Estimator} {metadata : ModelMetadata} {params : RuntimeParams}
  {budget more : Budget}

theorem toNat_truncate_percent (amount : UInt64) :
    (truncate (amount.toNat * marginFraction)).toNat = amount.toNat * 15 / 100 := by
  have part : (amount.toNat * marginFraction : Rat) = (amount.toNat * 15 : Nat) / (100 : Nat) := by
    rw [marginFraction, Nat.cast_mul, mul_div_assoc]
    rfl
  have floored : (amount.toNat * marginFraction).floor = ((amount.toNat * 15 / 100 : Nat) : Int) := by
    rw [part]
    exact Rat.floor_natCast_div_natCast _ _
  have bound := amount.toNat_lt
  have wide : UInt64.size = 2 ^ 64 := rfl
  rw [truncate, floored, Int.toNat_natCast, toNat_ofNatClamp]
  omega

theorem toNat_marginFor (amount : UInt64) :
    (marginFor amount).toNat = max minMargin.toNat (amount.toNat * 15 / 100) := by
  have part := toNat_truncate_percent amount
  unfold marginFor
  dsimp only
  split
  · rename_i above
    rw [UInt64.lt_iff_toNat_lt, part] at above
    rw [part, max_eq_right above.le]
  · rename_i within
    rw [UInt64.lt_iff_toNat_lt, part, not_lt] at within
    rw [max_eq_left within]

/-- What a load takes, whatever the budget. -/
def loadSize (estimator : Estimator) (metadata : ModelMetadata) (params : RuntimeParams) : Nat :=
  besideCache estimator metadata params + (kvCacheBytes metadata params).1.bytes.toNat

/-- The fraction to keep free of the load with its margin is no more than the margin, or these are more
than any budget. -/
def MarginCovers (estimator : Estimator) (metadata : ModelMetadata) (params : RuntimeParams)
    (margin : UInt64) : Prop :=
  (loadSize estimator metadata params + margin.toNat) * 15 / 100 ≤ margin.toNat ∨
    UInt64.size - 1 ≤ loadSize estimator metadata params + margin.toNat

theorem toNat_shortfall :
    (estimator.estimateAgainst metadata params budget).shortfall.toNat =
      min (loadSize estimator metadata params + (marginFor budget.spendable).toNat)
        (UInt64.size - 1) - budget.spendable.toNat := by
  have total : (estimator.estimateAgainst metadata params budget).total.toNat =
      min (loadSize estimator metadata params) (UInt64.size - 1) := toNat_total
  have margin : (estimator.estimateAgainst metadata params budget).margin =
      marginFor budget.spendable := rfl
  have spendable : (estimator.estimateAgainst metadata params budget).budget = budget.spendable := rfl
  rw [Estimate.shortfall, toNat_saturatingSub, toNat_saturatingAdd, total, margin, spendable]
  omega

end Shortfall

/-- The shortfall of a load that is not safe is enough just when a margin for the budget that it leads
to is not above the margin it was counted with. -/
theorem shortfall_enough_iff (estimator : Estimator) (metadata : ModelMetadata)
    (params : RuntimeParams) (budget more : Budget)
    (short : (estimator.estimateAgainst metadata params budget).verdict ≠ .safe)
    (enlarged : more.spendable.toNat = budget.spendable.toNat +
      (estimator.estimateAgainst metadata params budget).shortfall.toNat) :
    (estimator.estimateAgainst metadata params more).verdict = .safe ↔
      MarginCovers estimator metadata params (marginFor budget.spendable) := by
  rw [toNat_shortfall] at enlarged
  rw [Ne, safe_iff_exact] at short
  rw [safe_iff_exact, MarginCovers, toNat_marginFor more.spendable]
  change ¬(_ ∨ loadSize estimator metadata params + _ ≤ _) at short
  change (_ ∨ loadSize estimator metadata params + _ ≤ _) ↔ _
  have floor : minMargin.toNat ≤ (marginFor budget.spendable).toNat := by
    rw [toNat_marginFor]
    exact Nat.le_max_left _ _
  have most := more.spendable.toNat_lt
  have wide : UInt64.size = 2 ^ 64 := rfl
  omega

/-- The budget once so many bytes have been freed. -/
def Budget.freed (budget : Budget) (amount : UInt64) : Budget :=
  { budget with
    snapshot := { budget.snapshot with available := budget.snapshot.available + amount } }

/-- A machine with half a gibibyte free. -/
def halfFree : Budget := ⟨⟨0x400000000, 0x20000000, 0x20000000, 0, 0⟩, 0⟩

-- evaluated by the elaborator below
unseal Rat.add Rat.sub Rat.mul Rat.inv

theorem shortfall_of_small_model :
    let estimate := Estimator.headless.estimateAgainst (oneLayer 8 64) .default halfFree
    estimate.verdict ≠ .safe ∧
      (Estimator.headless.estimateAgainst (oneLayer 8 64) .default
        (halfFree.freed estimate.shortfall)).verdict = .safe := by
  have short : (Estimator.headless.estimateAgainst (oneLayer 8 64) .default halfFree).verdict ≠
      .safe := by
    decide
  have enlarged : (halfFree.freed (Estimator.headless.estimateAgainst (oneLayer 8 64) .default
      halfFree).shortfall).spendable.toNat = halfFree.spendable.toNat +
        (Estimator.headless.estimateAgainst (oneLayer 8 64) .default halfFree).shortfall.toNat := by
    decide
  exact ⟨short, (shortfall_enough_iff _ _ _ _ _ short enlarged).mpr (Or.inl (by decide))⟩

/-- Eight gibibytes of weights. -/
def largeWeights : ModelMetadata := { oneLayer 8 64 with weightBytes := some 0x200000000 }

/-- The load is refused, and only tight once the shortfall has been freed: the margin has grown with
the budget. -/
theorem freed_shortfall_still_tight :
    let estimate := Estimator.headless.estimateAgainst largeWeights .default eightFree
    estimate.verdict = .insufficient ∧ .freeMemory estimate.shortfall ∈ estimate.remedies ∧
      (eightFree.freed estimate.shortfall).spendable.toNat =
        eightFree.spendable.toNat + estimate.shortfall.toNat ∧
      (Estimator.headless.estimateAgainst largeWeights .default
        (eightFree.freed estimate.shortfall)).verdict = .tight := by
  decide

end Lightweight.Memory
