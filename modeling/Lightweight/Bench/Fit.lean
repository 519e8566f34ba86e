import Lightweight.Bench.Apply
import Lightweight.Memory.KvBounds
import Mathlib.Tactic.Linarith
import Mathlib.Tactic.Ring
import Mathlib.Tactic.FieldSimp

/-! A benchmark's run, the fits that are derived from it, and what a load is priced at where one of
them is trusted. -/

namespace Lightweight.Bench

open Lightweight.Core Lightweight.Gguf Lightweight.Memory Lightweight.Word64

/-! ### Runs -/

/-- What a peak is a peak of: all resident pages, or those that are not clean pages of a file. -/
inductive PeakKind where
  | residentSet | footprint
deriving DecidableEq, Repr

structure ModelFingerprint where
  architecture : String
  quantization : String
deriving DecidableEq

/-- The exact half of what an estimate said. -/
structure Prediction where
  weights : UInt64
  kvCache : UInt64
deriving DecidableEq

structure Sample where
  params : RuntimeParams
  peakRss : Option UInt64
  peakKind : PeakKind
  predicted : Option Prediction
deriving DecidableEq

structure BenchmarkRun where
  atUnix : UInt64
  machine : MachineFingerprint
  engine : EngineFingerprint
  model : ModelFingerprint
  samples : List Sample

def Prediction.exact (prediction : Prediction) : UInt64 :=
  saturatingAdd prediction.weights prediction.kvCache

/-- The exact half that is in a peak of this kind: a footprint has the weights only where they are
locked. -/
def Prediction.exactWithin (prediction : Prediction) (peak : PeakKind) (params : RuntimeParams) :
    UInt64 :=
  let countsWeights :=
    match peak with
    | .residentSet => true
    | .footprint => params.loadMode.any LoadMode.locksWeights
  if countsWeights then prediction.exact else prediction.kvCache

/-! ### Fits -/

deriving instance Ord for BucketKey

namespace BenchmarkRun

def bucket (run : BenchmarkRun) (params : RuntimeParams) : BucketKey where
  architecture := run.model.architecture
  quantization := run.model.quantization
  nCtx := params.nCtx
  nParallel := params.nParallel
  cacheTypeK := params.cacheTypeK.name
  cacheTypeV := params.cacheTypeV.name

/-- What a sample tells of its bucket; nothing where the peak is below the exact half. -/
def observe (run : BenchmarkRun) (sample : Sample) : Option (BucketKey × ResidualPoint) :=
  match sample.predicted, sample.peakRss with
  | some prediction, some peak =>
      let exact := prediction.exactWithin sample.peakKind sample.params
      if peak < exact then none
      else some (run.bucket sample.params, ⟨sample.params.nUbatch, peak - exact, peak⟩)
  | _, _ => none

def observations (run : BenchmarkRun) : List (BucketKey × ResidualPoint) :=
  run.samples.filterMap run.observe

/-- The points of a bucket, in the order of their samples. -/
def points (run : BenchmarkRun) (bucket : BucketKey) : List ResidualPoint :=
  (run.observations.filter fun observation => observation.1 = bucket).map Prod.snd

def fit (run : BenchmarkRun) (bucket : BucketKey) : Fit :=
  let points := run.points bucket
  let line := regress points
  { atUnix := run.atUnix
    machine := run.machine
    engine := run.engine
    bucket
    computeBytesPerUbatch := line.map LineFit.slope
    overheadBytes := line.map LineFit.intercept
    maxResidualBytes := (points.map ResidualPoint.residualBytes).foldl max 0
    rSquared := line.map LineFit.rSquared
    points }

/-- A fit for every bucket that was seen, in the order of the buckets. -/
def fitRun (run : BenchmarkRun) : List Fit :=
  (((run.observations.map Prod.fst).dedup).insertionSort
    fun first second => (compare first second).isLE).map run.fit

end BenchmarkRun

/-! ### Rounding -/

section Rounding

variable {value : Rat}

/-- Less than one is cut off, or as many as there are is all that can be told. -/
theorem lt_truncate (value : Rat) :
    value < (truncate value).toNat + 1 ∨ (truncate value).toNat = UInt64.size - 1 := by
  rw [truncate, toNat_ofNatClamp]
  rcases Nat.le_total value.floor.toNat (UInt64.size - 1) with fits | wide
  · left
    have above : value < (value.floor : Rat) + 1 := Int.lt_floor_add_one value
    have kept : value.floor ≤ (value.floor.toNat : Int) := Int.self_le_toNat _
    have kept : (value.floor : Rat) ≤ (value.floor.toNat : Rat) := by exact_mod_cast kept
    rw [Nat.min_eq_left fits]
    exact lt_of_lt_of_le above (by linarith)
  · exact Or.inr (Nat.min_eq_right wide)

theorem lt_bytes (value : Rat) :
    value < (bytes value).toNat + 1 / 2 ∨ (bytes value).toNat = UInt64.size - 1 := by
  rw [bytes]
  split
  · rename_i low
    left
    exact lt_of_le_of_lt low (by norm_num)
  · rcases lt_truncate (value + 1 / 2) with near | full
    · left
      linarith
    · exact Or.inr full

end Rounding

/-! ### A fit that is trusted -/

section Trusted

variable {fit : Fit} {metadata : ModelMetadata} {base : ComputeModel} {calibrated : Calibrated}
  {slope intercept : Rat} {point : ResidualPoint}

theorem le_foldl_max {xs : List Rat} {x most : Rat} (below : x ≤ most ∨ x ∈ xs) :
    x ≤ xs.foldl max most := by
  induction xs generalizing most with
  | nil => exact below.resolve_right List.not_mem_nil
  | cons y xs ih =>
      rw [List.foldl_cons]
      rcases below with low | member
      · exact ih (Or.inl (le_max_of_le_left low))
      · rcases List.mem_cons.mp member with same | later
        · exact ih (Or.inl (same ▸ le_max_right most y))
        · exact ih (Or.inr later)

/-- No point is further above the line than the shortfall. -/
theorem residual_le_line (member : point ∈ fit.points) (slope intercept : Rat) :
    (point.residualBytes.toNat : Rat) ≤
      slope * point.nUbatch.toNat + (intercept + shortfall fit slope intercept) := by
  have above : (point.residualBytes.toNat : Rat) - (slope * point.nUbatch.toNat + intercept) ≤
      shortfall fit slope intercept :=
    le_foldl_max (Or.inr (List.mem_map_of_mem member))
  linarith

/-- Factors that are scaled to what a slope leaves beside the logits price a batch on the slope. -/
theorem spent_slope {logits activation scratch embedding wider shape slope ubatch : Rat}
    (same : shape = activation * embedding * 4 + scratch * wider * 4) (some_shape : shape ≠ 0) :
    logits * ubatch + activation * ((slope - logits) / shape) * ubatch * embedding * 4 +
      scratch * ((slope - logits) / shape) * ubatch * wider * 4 = slope * ubatch := by
  calc
    _ = logits * ubatch + (slope - logits) / shape *
        (activation * embedding * 4 + scratch * wider * 4) * ubatch := by ring
    _ = logits * ubatch + (slope - logits) / shape * shape * ubatch := by rw [← same]
    _ = slope * ubatch := by
      rw [div_mul_cancel₀ _ some_shape]
      ring

/-- A fit that is trusted prices a batch on its line, which is raised by the shortfall. -/
theorem apply_cases (accepted : apply fit metadata base = .ok calibrated) :
    ∃ slope intercept : Rat, 0 ≤ slope ∧
      (∀ params, (Estimator.mk calibrated.computeModel).computeSize metadata params =
        slope * (max params.nUbatch 1).toNat) ∧
      calibrated.computeModel.engineBaseline = bytes (intercept + shortfall fit slope intercept) ∧
      calibrated.computeModel.hostOverhead = base.hostOverhead := by
  unfold apply at accepted
  dsimp only at accepted
  split at accepted
  · cases accepted
  split at accepted
  case h_2 => cases accepted
  rename_i slope intercept hasSlope hasIntercept
  split at accepted
  · cases accepted
  split at accepted
  · cases accepted
  split at accepted
  · cases accepted
  rename_i signs
  split at accepted
  case h_2 => cases accepted
  rename_i vocab embedding hasVocab hasEmbedding
  split at accepted
  · cases accepted
  split at accepted
  · cases accepted
  rename_i shape
  split at accepted
  · cases accepted
  cases accepted
  refine ⟨slope, intercept, not_lt.mp (not_or.mp signs).1, ?_, rfl, rfl⟩
  intro params
  rw [Estimator.computeSize, hasVocab, hasEmbedding, Option.getD_some, Option.getD_some,
    mul_right_comm (vocab.toNat : Rat)]
  exact spent_slope rfl (ne_of_gt (not_le.mp shape))

theorem point_covered (accepted : apply fit metadata base = .ok calibrated)
    (member : point ∈ fit.points) {params : RuntimeParams} (same : params.nUbatch = point.nUbatch) :
    point.residualBytes.toNat ≤
      ((Estimator.mk calibrated.computeModel).computeBytes metadata params).1.toNat +
        calibrated.computeModel.engineBaseline.toNat + 1 := by
  obtain ⟨slope, intercept, rising, priced, baseline, -⟩ := apply_cases accepted
  have below := residual_le_line member slope intercept
  have most := point.residualBytes.toNat_lt
  have wide : UInt64.size = 2 ^ 64 := rfl
  -- a batch of none is priced as one of one
  have batch : slope * point.nUbatch.toNat ≤ slope * (max params.nUbatch 1).toNat := by
    apply mul_le_mul_of_nonneg_left _ rising
    rw [← same, UInt32.toNat_max]
    exact_mod_cast le_max_left params.nUbatch.toNat (1 : UInt32).toNat
  have size : 0 ≤ slope * ((max params.nUbatch 1).toNat : Rat) := mul_nonneg rising (Nat.cast_nonneg _)
  rw [Estimator.computeBytes, priced, max_eq_left size, baseline]
  dsimp only
  rcases lt_truncate (slope * (max params.nUbatch 1).toNat) with compute | full
  · rcases lt_bytes (intercept + shortfall fit slope intercept) with engine | full
    · have near : (point.residualBytes.toNat : Rat) <
          (truncate (slope * (max params.nUbatch 1).toNat)).toNat +
            (bytes (intercept + shortfall fit slope intercept)).toNat + 2 := by linarith
      have near : point.residualBytes.toNat <
          (truncate (slope * (max params.nUbatch 1).toNat)).toNat +
            (bytes (intercept + shortfall fit slope intercept)).toNat + 2 := by exact_mod_cast near
      omega
    · omega
  · omega

end Trusted

/-! ### A run and its fits -/

section Runs

variable {run : BenchmarkRun} {fit : Fit} {sample : Sample} {bucket : BucketKey}
  {point : ResidualPoint} {prediction : Prediction} {peak : UInt64}

theorem points_of_mem (derived : fit ∈ run.fitRun) : fit.points = run.points fit.bucket := by
  obtain ⟨bucket, -, same⟩ := List.mem_map.mp derived
  rw [← same]
  rfl

theorem mem_points (measured : sample ∈ run.samples)
    (observed : run.observe sample = some (bucket, point)) : point ∈ run.points bucket := by
  refine List.mem_map.mpr ⟨(bucket, point), List.mem_filter.mpr ⟨?_, decide_eq_true rfl⟩, rfl⟩
  exact List.mem_filterMap.mpr ⟨sample, measured, observed⟩

theorem observe_enough (told : sample.predicted = some prediction) (seen : sample.peakRss = some peak)
    (enough : prediction.exactWithin sample.peakKind sample.params ≤ peak) :
    run.observe sample = some (run.bucket sample.params, ⟨sample.params.nUbatch,
      peak - prediction.exactWithin sample.peakKind sample.params, peak⟩) := by
  rw [BenchmarkRun.observe, told, seen]
  exact if_neg (UInt64.not_lt.mpr enough)

end Runs

/-- A fit of a run that is trusted for a model covers every point of it, to a byte, and so the peak
of every sample that it was made of; the shell's part is not touched. -/
theorem trusted_fit_covers_run (run : BenchmarkRun) (fit : Fit) (metadata : ModelMetadata)
    (base : ComputeModel) (calibrated : Calibrated) (derived : fit ∈ run.fitRun)
    (accepted : apply fit metadata base = .ok calibrated) :
    (∀ point ∈ fit.points, ∀ params : RuntimeParams, params.nUbatch = point.nUbatch →
      point.residualBytes.toNat ≤
        ((Estimator.mk calibrated.computeModel).computeBytes metadata params).1.toNat +
          calibrated.computeModel.engineBaseline.toNat + 1) ∧
    (∀ sample ∈ run.samples, ∀ prediction peak, sample.predicted = some prediction →
      sample.peakRss = some peak → run.bucket sample.params = fit.bucket →
      peak.toNat ≤ (prediction.exactWithin sample.peakKind sample.params).toNat +
        ((Estimator.mk calibrated.computeModel).computeBytes metadata sample.params).1.toNat +
          calibrated.computeModel.engineBaseline.toNat + 1) ∧
    calibrated.computeModel.hostOverhead = base.hostOverhead := by
  refine ⟨fun point member params same => point_covered accepted member same, ?_, ?_⟩
  · intro sample measured prediction peak told seen bucketed
    by_cases enough : prediction.exactWithin sample.peakKind sample.params ≤ peak
    · have member := mem_points measured (observe_enough told seen enough)
      rw [bucketed, ← points_of_mem derived] at member
      have covered := point_covered accepted member (Eq.refl sample.params.nUbatch)
      rw [UInt64.toNat_sub_of_le _ _ enough] at covered
      omega
    -- a peak below the exact half is no point of the fit
    · have below := UInt64.le_iff_toNat_le.not.mp enough
      omega
  · obtain ⟨_, _, -, -, -, unchanged⟩ := apply_cases accepted
    exact unchanged

/-- A peak above weights of a million bytes and a cache of as many, at a batch size. -/
def sweepSample (nUbatch : UInt32) (peak : UInt64) : Sample where
  params := { RuntimeParams.default with nUbatch }
  peakRss := some peak
  peakKind := .residentSet
  predicted := some ⟨1000000, 1000000⟩

/-- A sweep over three batch sizes, of which the second lies below the line and the others above. -/
def sweep : BenchmarkRun where
  atUnix := 1700000000
  machine := ⟨none, 4, 4, [], 0x400000000, "linux", "x86_64"⟩
  engine := ⟨"llamacpp-process", some "b10590", none⟩
  model := ⟨"llama", "Q4_K_M"⟩
  samples := [sweepSample 128 338151104, sweepSample 256 603193344, sweepSample 384 874235584]

def sweepFit : Fit := sweep.fit (sweep.bucket RuntimeParams.default)

/-- The line of 2094080 bytes for every token of a batch, raised by a million bytes. -/
def sweepCalibrated : Calibrated :=
  ⟨⟨160, 80, 68108864, mebibytes 48, true⟩, 1700000000, 1000000⟩

-- evaluated by the elaborator below
unseal Rat.add Rat.sub Rat.mul Rat.inv

theorem trusted_sweep_covers :
    (∀ point ∈ sweepFit.points, ∀ params : RuntimeParams, params.nUbatch = point.nUbatch →
      point.residualBytes.toNat ≤
        ((Estimator.mk sweepCalibrated.computeModel).computeBytes (oneLayer 8 64) params).1.toNat +
          sweepCalibrated.computeModel.engineBaseline.toNat + 1) ∧
    (∀ sample ∈ sweep.samples, ∀ prediction peak, sample.predicted = some prediction →
      sample.peakRss = some peak → sweep.bucket sample.params = sweepFit.bucket →
      peak.toNat ≤ (prediction.exactWithin sample.peakKind sample.params).toNat +
        ((Estimator.mk sweepCalibrated.computeModel).computeBytes (oneLayer 8 64)
          sample.params).1.toNat + sweepCalibrated.computeModel.engineBaseline.toNat + 1) ∧
    sweepCalibrated.computeModel.hostOverhead = ComputeModel.headless.hostOverhead :=
  trusted_fit_covers_run sweep sweepFit (oneLayer 8 64) .headless sweepCalibrated
    (by decide) (by decide)

end Lightweight.Bench
