import Lightweight.Memory.Estimator
import Mathlib.Data.List.Dedup

/-! Fitted coefficients: the line through what a benchmark measured, the file that keeps such lines,
and the rules under which an estimate is made with one. -/

namespace Lightweight.Bench

open Lightweight.Core Lightweight.Gguf Lightweight.Memory

structure MachineFingerprint where
  cpuModel : Option String
  physicalCores : UInt32
  logicalCores : UInt32
  isaFeatures : List String
  totalMemory : UInt64
  os : String
  architecture : String
deriving DecidableEq

/-- Whether a result may travel between two machines. -/
def MachineFingerprint.matches (machine other : MachineFingerprint) : Bool :=
  machine.cpuModel = other.cpuModel ∧ machine.physicalCores = other.physicalCores ∧
    machine.logicalCores = other.logicalCores ∧ machine.isaFeatures = other.isaFeatures ∧
    machine.architecture = other.architecture ∧ machine.os = other.os

structure EngineFingerprint where
  backend : String
  build : Option String
  ggmlVariant : Option String
deriving DecidableEq

def EngineFingerprint.matches (engine other : EngineFingerprint) : Bool :=
  engine.backend = other.backend ∧ engine.build = other.build ∧
    engine.ggmlVariant = other.ggmlVariant

/-- What identifies a bucket: the model's labels and the parameters that change its cost. -/
structure BucketKey where
  architecture : String
  quantization : String
  nCtx : UInt32
  nParallel : UInt32
  cacheTypeK : String
  cacheTypeV : String
deriving DecidableEq

/-- What a batch of one size was seen to cost beyond the exact terms. -/
structure ResidualPoint where
  nUbatch : UInt32
  residualBytes : UInt64
  peakRss : UInt64
deriving DecidableEq

structure Fit where
  atUnix : UInt64
  machine : MachineFingerprint
  engine : EngineFingerprint
  bucket : BucketKey
  computeBytesPerUbatch : Option Rat
  overheadBytes : Option Rat
  maxResidualBytes : UInt64
  rSquared : Option Rat
  points : List ResidualPoint
deriving DecidableEq

structure Calibration where
  fits : List Fit

def Calibration.find (calibration : Calibration) (machine : MachineFingerprint)
    (engine : EngineFingerprint) (bucket : BucketKey) : Option Fit :=
  calibration.fits.find? fun fit =>
    fit.machine.matches machine ∧ fit.engine.matches engine ∧ fit.bucket = bucket

structure LineFit where
  slope : Rat
  intercept : Rat
  rSquared : Rat
deriving DecidableEq

/-- The largest residual of each batch size, by size. -/
def peaks (points : List ResidualPoint) : List (UInt32 × UInt64) :=
  ((points.map ResidualPoint.nUbatch).dedup.insertionSort (· ≤ ·)).map fun nUbatch =>
    (nUbatch, ((points.filter fun point => point.nUbatch = nUbatch).map
      ResidualPoint.residualBytes).foldl max 0)

/-- Least squares over one point for each batch size. -/
def regress (points : List ResidualPoint) : Option LineFit :=
  let peaks := peaks points
  if peaks.length < 2 then none
  else
    let n : Rat := peaks.length
    let xs := peaks.map fun peak => (peak.1.toNat : Rat)
    let ys := peaks.map fun peak => (peak.2.toNat : Rat)
    let meanX := xs.sum / n
    let meanY := ys.sum / n
    let covariance := (List.zipWith (fun x y => (x - meanX) * (y - meanY)) xs ys).sum
    let variance := (xs.map fun x => (x - meanX) * (x - meanX)).sum
    if variance = 0 then none
    else
      let slope := covariance / variance
      let intercept := meanY - slope * meanX
      let error (x y : Rat) : Rat := y - (slope * x + intercept)
      let residualSum := (List.zipWith (fun x y => error x y * error x y) xs ys).sum
      let totalSum := (ys.map fun y => (y - meanY) * (y - meanY)).sum
      some ⟨slope, intercept, if totalSum = 0 then 1 else 1 - residualSum / totalSum⟩

def minUbatchValues : Nat := 3
def minRSquared : Rat := 95 / 100

/-- Why a fit is not used. -/
inductive Untrusted where
  | noFit
  | tooFewUbatchValues (count : Nat)
  | noSlope
  | notAffine (rSquared : Rat)
  | noGoodnessOfFit
  | negativeTerm
  | shapeUnknown
  | slopeBelowLogits
deriving DecidableEq

/-- Coefficients that came from a measurement. -/
structure Calibrated where
  computeModel : ComputeModel
  fitAtUnix : UInt64
  floorRaisedBy : UInt64
deriving DecidableEq

def bucketFor (metadata : ModelMetadata) (params : RuntimeParams) : BucketKey where
  architecture := metadata.architecture
  quantization := metadata.quantizationLabel
  nCtx := params.nCtx
  nParallel := params.nParallel
  cacheTypeK := params.cacheTypeK.name
  cacheTypeV := params.cacheTypeV.name

/-- A fitted quantity in whole bytes, a half rounded up and never below zero. -/
def bytes (value : Rat) : UInt64 :=
  if value ≤ 0 then 0 else truncate (value + 1 / 2)

/-- How far the points lie above the line, at most. -/
def shortfall (fit : Fit) (slope intercept : Rat) : Rat :=
  (fit.points.map fun point =>
    (point.residualBytes.toNat : Rat) - (slope * point.nUbatch.toNat + intercept)).foldl max 0

/-- The slope of a fit is spent on the two coefficients, in the proportion that they have, and the
intercept on the baseline. -/
def apply (fit : Fit) (metadata : ModelMetadata) (base : ComputeModel) :
    Except Untrusted Calibrated :=
  let ubatchValues := (fit.points.map ResidualPoint.nUbatch).dedup.length
  if ubatchValues < minUbatchValues then .error (.tooFewUbatchValues ubatchValues)
  else
    match fit.computeBytesPerUbatch, fit.overheadBytes with
    | some slope, some intercept =>
        match fit.rSquared with
        | none => .error .noGoodnessOfFit
        | some rSquared =>
            if rSquared < minRSquared then .error (.notAffine rSquared)
            else if slope < 0 ∨ intercept < 0 then .error .negativeTerm
            else
              match metadata.vocabSize, metadata.embeddingLength with
              | some vocab, some embedding =>
                  let ffn : Rat := (metadata.feedForwardLength.getD 0).toNat
                  let embedding : Rat := embedding.toNat
                  if embedding = 0 then .error .shapeUnknown
                  else
                    let logitsPerUbatch : Rat := vocab.toNat * 4
                    let shapePerUbatch := base.activationFactor * embedding * 4 +
                      base.scratchFactor * max embedding ffn * 4
                    if shapePerUbatch ≤ 0 then .error .shapeUnknown
                    else
                      let fitted := slope - logitsPerUbatch
                      if fitted < 0 then .error .slopeBelowLogits
                      else
                        let scale := fitted / shapePerUbatch
                        let raised := shortfall fit slope intercept
                        .ok
                          { computeModel :=
                              { activationFactor := base.activationFactor * scale
                                scratchFactor := base.scratchFactor * scale
                                engineBaseline := bytes (intercept + raised)
                                hostOverhead := base.hostOverhead
                                measured := true }
                            fitAtUnix := fit.atUnix
                            floorRaisedBy := bytes raised }
              | _, _ => .error .shapeUnknown
    | _, _ => .error .noSlope

def computeModelFor (calibration : Calibration) (machine : MachineFingerprint)
    (engine : EngineFingerprint) (metadata : ModelMetadata) (params : RuntimeParams)
    (base : ComputeModel) : Except Untrusted Calibrated :=
  match calibration.find machine engine (bucketFor metadata params) with
  | none => .error .noFit
  | some fit => apply fit metadata base

inductive Outcome where
  | applied (calibrated : Calibrated)
  | rejected (untrusted : Untrusted)
  | unreadable (detail : String)
deriving DecidableEq

/-- The estimator of one load. A file that cannot be read leaves the given coefficients. -/
def estimatorFor (file : Except String Calibration) (machine : MachineFingerprint)
    (engine : EngineFingerprint) (metadata : ModelMetadata) (params : RuntimeParams)
    (base : ComputeModel) : Estimator × Outcome :=
  match file with
  | .error detail => (⟨base⟩, .unreadable detail)
  | .ok calibration =>
      match computeModelFor calibration machine engine metadata params base with
      | .ok calibrated => (⟨calibrated.computeModel⟩, .applied calibrated)
      | .error untrusted => (⟨base⟩, .rejected untrusted)

end Lightweight.Bench
