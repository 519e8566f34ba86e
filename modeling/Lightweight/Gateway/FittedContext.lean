import Lightweight.Gateway.LoadModel
import Lightweight.Memory.KvBounds

/-! A window that was fitted with the shipped coefficients, judged with measured ones. -/

namespace Lightweight.Gateway

open Lightweight.Core Lightweight.Gguf Lightweight.Memory Lightweight.Bench Lightweight.Word64

section Judgement

variable {estimator : Estimator} {metadata : ModelMetadata} {params : RuntimeParams} {budget : Budget}

theorem safe_of_found {c : UInt32} {ceiling : Option UInt32}
    (found : estimator.largestSafeContextAgainst metadata params budget ceiling = some c) :
    (estimator.estimateAgainst metadata (params.withContext c) budget).verdict = .safe := by
  have safe := List.find?_some found
  exact of_decide_eq_true safe

end Judgement

namespace Surroundings

variable {around : Surroundings} {options : LoadOptions} {snapshot : MemorySnapshot} {c : UInt32}

theorem fitted_of_found (unnamed : options.nCtx = none) (undefaulted : around.storedDefault = none)
    (found : Estimator.headless.largestSafeContextAgainst around.metadata
      (around.slotted options snapshot) (around.budget snapshot) none = some c) :
    around.fitted options snapshot = (around.slotted options snapshot).withContext c := by
  rw [fitted, unnamed, undefaulted, chooseContext, found]
  rfl

theorem estimatorFor_eq (around : Surroundings) (params : RuntimeParams) :
    (around.estimatorFor params).1 =
      match around.trustedFit params with
      | some calibrated => ⟨calibrated.computeModel⟩
      | none => .headless := by
  unfold estimatorFor trustedFit
  cases around.calibration with
  | none => rfl
  | some file =>
      cases file with
      | error detail => rfl
      | ok calibration =>
          unfold Bench.estimatorFor
          dsimp only
          cases computeModelFor calibration around.machine around.engine around.metadata params
            ComputeModel.headless with
          | ok calibrated => rfl
          | error untrusted => rfl

/-- How much more a fit prices a load at than the shipped coefficients do. -/
def raisedBy (around : Surroundings) (calibrated : Calibrated) (params : RuntimeParams) : Nat :=
  besideCache ⟨calibrated.computeModel⟩ around.metadata params -
    besideCache .headless around.metadata params

/-- What the budget has left above the margin when the shipped coefficients have priced a load. -/
def headroom (around : Surroundings) (snapshot : MemorySnapshot) (params : RuntimeParams) : Nat :=
  (around.budget snapshot).spendable.toNat -
    ((Estimator.headless.estimateAgainst around.metadata params (around.budget snapshot)).total.toNat +
      (marginFor (around.budget snapshot).spendable).toNat)

end Surroundings

open Surroundings in
/-- A window that was fitted is judged safe just when the budget is more than any load can be seen to
take, or a trusted fit does not raise the price of the load above what the budget has left. -/
theorem fitted_context_safe_iff (around : Surroundings) (options : LoadOptions)
    (snapshot : MemorySnapshot) (c : UInt32) (unnamed : options.nCtx = none)
    (undefaulted : around.storedDefault = none)
    (found : Estimator.headless.largestSafeContextAgainst around.metadata
      (around.slotted options snapshot) (around.budget snapshot) none = some c) :
    (around.judge options snapshot).verdict = .safe ↔
      (around.budget snapshot).spendable.toNat = UInt64.size - 1 ∨
        ∀ calibrated,
          around.trustedFit ((around.slotted options snapshot).withContext c) = some calibrated →
          around.raisedBy calibrated ((around.slotted options snapshot).withContext c) ≤
            around.headroom snapshot ((around.slotted options snapshot).withContext c) := by
  have shipped := safe_iff_exact.mp (safe_of_found found)
  rw [judge, fitted_of_found unnamed undefaulted found, safe_iff_exact, estimatorFor_eq]
  cases trusted : around.trustedFit ((around.slotted options snapshot).withContext c) with
  | none =>
      dsimp only
      constructor
      · exact fun _ => Or.inr fun _ other => nomatch other
      · exact fun _ => shipped
  | some calibrated =>
      dsimp only
      have most := (around.budget snapshot).spendable.toNat_lt
      have wide : UInt64.size = 2 ^ 64 := rfl
      simp only [Option.some.injEq, forall_eq', raisedBy, headroom, toNat_total]
      omega

/-- A machine of four cores. -/
def fourCores : MachineFingerprint where
  cpuModel := none
  physicalCores := 4
  logicalCores := 4
  isaFeatures := []
  totalMemory := 0x400000000
  os := "linux"
  architecture := "x86_64"

def pinnedEngine : EngineFingerprint := ⟨"llamacpp-process", some "b10590", none⟩

/-- Measured on the line of two million bytes for every token of a batch, over 64 MiB. -/
def heavyPoints : List ResidualPoint :=
  [⟨128, 323108864, 608321536⟩, ⟨256, 579108864, 864321536⟩, ⟨512, 1091108864, 1376321536⟩]

def heavyFit : Fit where
  atUnix := 1700000000
  machine := fourCores
  engine := pinnedEngine
  bucket := ⟨"llama", "Q4_K_M", 8192, 1, "f16", "f16"⟩
  computeBytesPerUbatch := some 2000000
  overheadBytes := some 67108864
  maxResidualBytes := 1091108864
  rSquared := some 1
  points := heavyPoints

/-- A model of one layer, on a machine with 1008 MiB free. -/
def smallMachine (calibration : Option (Except String Calibration)) : Surroundings where
  metadata := oneLayer 8 64
  defaults := ⟨.f16, none, none⟩
  storedDefault := none
  logicalCores := 4
  defaultThreads := 4
  snapshot := some ⟨0x400000000, 1056964608, 0, 0, 0⟩
  resident := none
  calibration := calibration
  machine := fourCores
  engine := pinnedEngine

def smallSnapshot : MemorySnapshot := ⟨0x400000000, 1056964608, 0, 0, 0⟩

/-- A load that names nothing. -/
def plainLoad : LoadOptions := ⟨none, none, none, none, none, none, false⟩

-- evaluated by the elaborator below
unseal Rat.add Rat.sub Rat.mul Rat.inv
set_option maxRecDepth 2000

theorem fitted_context_safe_uncalibrated :
    Estimator.headless.largestSafeContextAgainst (oneLayer 8 64)
        ((smallMachine none).slotted plainLoad smallSnapshot)
        ((smallMachine none).budget smallSnapshot) none = some 8192 ∧
      ((smallMachine none).judge plainLoad smallSnapshot).verdict = .safe := by
  have found : Estimator.headless.largestSafeContextAgainst (oneLayer 8 64)
      ((smallMachine none).slotted plainLoad smallSnapshot)
      ((smallMachine none).budget smallSnapshot) none = some 8192 := by
    decide
  refine ⟨found, (fitted_context_safe_iff (smallMachine none) plainLoad smallSnapshot 8192 rfl rfl
    found).mpr (Or.inr ?_)⟩
  rintro calibrated ⟨⟩

/-- The window of 8192 is fitted with the shipped coefficients, and the measurement of the very same
load refuses it. -/
theorem fitted_context_refused :
    regress heavyPoints = some ⟨2000000, 67108864, 1⟩ ∧
      Estimator.headless.largestSafeContextAgainst (oneLayer 8 64)
        ((smallMachine (some (.ok ⟨[heavyFit]⟩))).slotted plainLoad smallSnapshot)
        ((smallMachine (some (.ok ⟨[heavyFit]⟩))).budget smallSnapshot) none = some 8192 ∧
      ((smallMachine (some (.ok ⟨[heavyFit]⟩))).judge plainLoad smallSnapshot).verdict =
        .insufficient ∧
      admission plainLoad (smallMachine (some (.ok ⟨[heavyFit]⟩))) =
        .error (.insufficient
          ((smallMachine (some (.ok ⟨[heavyFit]⟩))).judge plainLoad smallSnapshot)) := by
  refine ⟨?_, ?_, ?_, ?_⟩
  · decide
  · decide
  · decide
  · decide

end Lightweight.Gateway
