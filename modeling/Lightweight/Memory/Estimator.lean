import Lightweight.Core.Runtime
import Lightweight.Gguf.Metadata
import Mathlib.Algebra.Order.Floor.Ring
import Mathlib.Data.Rat.Floor

/-! The memory that a load is expected to take, term by term, and the verdict on it. Numbers that are
floating-point in the code are exact here. -/

namespace Lightweight.Memory

open Lightweight.Core Lightweight.Gguf Lightweight.Word64

inductive Verdict where
  | safe | tight | insufficient
deriving DecidableEq, Repr

def Verdict.isAdmissible (verdict : Verdict) : Bool := verdict = .safe ∨ verdict = .tight

def Verdict.label : Verdict → String
  | .safe => "SAFE"
  | .tight => "TIGHT"
  | .insufficient => "INSUFFICIENT"

inductive Confidence where
  | measured | coarse | partialMetadata
deriving DecidableEq, Repr

/-- Something that an estimate needs and the metadata does not tell. -/
inductive Missing where
  | weightSize
  | blockCount
  | headDimension
  | headCountKv
  | headCountKvForLayer (layer : Nat)
  | geometry (cacheType : GgmlType)
  | vocabSize
  | embeddingLength
deriving DecidableEq

def Missing.text : Missing → String
  | .weightSize => "weight size (a tensor uses an unrecognised ggml type)"
  | .blockCount => "block_count"
  | .headDimension => "attention head dimension"
  | .headCountKv => "attention.head_count_kv"
  | .headCountKvForLayer layer => "attention.head_count_kv for layer " ++ toString layer
  | .geometry cacheType => "block geometry for KV cache type " ++ cacheType.display
  | .vocabSize => "vocab_size"
  | .embeddingLength => "embedding_length"

/-- Coefficients for the terms that metadata does not tell. -/
structure ComputeModel where
  activationFactor : Rat
  scratchFactor : Rat
  engineBaseline : UInt64
  hostOverhead : UInt64
  measured : Bool
deriving DecidableEq

def mebibytes (count : UInt64) : UInt64 := saturatingMul count (1024 * 1024)

def ComputeModel.default : ComputeModel where
  activationFactor := 8
  scratchFactor := 4
  engineBaseline := mebibytes 64
  hostOverhead := mebibytes 450
  measured := false

/-- Without the desktop shell. -/
def ComputeModel.headless : ComputeModel :=
  { ComputeModel.default with hostOverhead := mebibytes 48 }

structure MemorySnapshot where
  total : UInt64
  available : UInt64
  free : UInt64
  swapTotal : UInt64
  swapFree : UInt64
deriving DecidableEq

/-- What the machine has free, and what it is about to get back. -/
structure Budget where
  snapshot : MemorySnapshot
  reclaimable : UInt64
deriving DecidableEq

def Budget.spendable (budget : Budget) : UInt64 :=
  saturatingAdd budget.snapshot.available budget.reclaimable

structure Estimate where
  weights : UInt64
  kvCache : UInt64
  compute : UInt64
  overhead : UInt64
  total : UInt64
  budget : UInt64
  reclaimable : UInt64
  margin : UInt64
  verdict : Verdict
  confidence : Confidence
  kvBytesPerToken : UInt64
  maxContextThatFits : Option UInt32
  missing : List Missing
  snapshot : MemorySnapshot
  params : RuntimeParams
deriving DecidableEq

def minMargin : UInt64 := 512 * 1024 * 1024
def marginFraction : Rat := 15 / 100
def minUsefulContext : UInt32 := 512
def coresPerSlot : UInt32 := 4

/-- A floating-point number as an unsigned one: the fraction is dropped, and what does not fit stops
at the nearest end. -/
def truncate (value : Rat) : UInt64 := UInt64.ofNatClamp value.floor.toNat

/-- The headroom of a safe load. -/
def marginFor (budget : UInt64) : UInt64 :=
  let proportional := truncate (budget.toNat * marginFraction)
  if minMargin < proportional then proportional else minMargin

/-- The context that fits beside the fixed costs, if it is worth having. -/
def solveMaxContext (budget fixed kvBytesPerToken : UInt64) : Option UInt32 :=
  if kvBytesPerToken = 0 ∨ budget < fixed then none
  else
    let tokens := clampToU32 ((budget - fixed) / kvBytesPerToken)
    if minUsefulContext ≤ tokens then some tokens else none

/-- The cache's size and what one more token adds to it. -/
structure KvCache where
  bytes : UInt64
  bytesPerToken : UInt64
deriving DecidableEq

def KvCache.unknown : KvCache := ⟨0, 0⟩

/-- The average bytes of an element on one side of the cache. -/
def bytesPerElement (kind : GgmlType) : Except Missing Rat :=
  match kind.blockSize, kind.typeSize with
  | some blockSize, some typeSize => .ok ((typeSize * 8).toNat / blockSize.toNat / 8)
  | _, _ => .error (.geometry kind)

/-- The bytes of so many elements. -/
def sized (kind : GgmlType) (elements : UInt64) : Except Missing UInt64 :=
  match kind.bytesForElements elements with
  | some bytes => .ok bytes
  | none => .error (.geometry kind)

/-- Running totals over the layers. -/
structure KvRunning where
  bytes : UInt64
  perToken : Rat

/-- The elements of one side of a layer. -/
def sideElements (params : RuntimeParams) (kvHeads headDim : UInt64) : UInt64 :=
  saturatingMul (saturatingMul (saturatingMul params.nCtx.toUInt64 kvHeads) headDim)
    (max params.nParallel 1).toUInt64

/-- One layer's share of the cache. -/
def kvLayer (metadata : ModelMetadata) (params : RuntimeParams) (headDimK headDimV : UInt64)
    (bpeK bpeV : Rat) (running : KvRunning) (layer : Nat) : Except Missing KvRunning :=
  match metadata.kvHeadsForLayer layer with
  | none => .error (.headCountKvForLayer layer)
  | some kvHeads =>
      if kvHeads = 0 then .ok running
      else do
        let k ← sized params.cacheTypeK (sideElements params kvHeads headDimK)
        let v ← sized params.cacheTypeV (sideElements params kvHeads headDimV)
        let heads := saturatingMul kvHeads (max params.nParallel 1).toUInt64
        pure ⟨saturatingAdd (saturatingAdd running.bytes k) v,
          running.perToken + heads.toNat * (headDimK.toNat * bpeK + headDimV.toNat * bpeV)⟩

/-- All layers, or the first thing that is missing. -/
def accumulate (metadata : ModelMetadata) (params : RuntimeParams) (layers : Nat)
    (headDimK headDimV : UInt64) : Except Missing KvCache := do
  let bpeK ← bytesPerElement params.cacheTypeK
  let bpeV ← bytesPerElement params.cacheTypeV
  let running ← (List.range layers).foldlM (kvLayer metadata params headDimK headDimV bpeK bpeV) ⟨0, 0⟩
  pure ⟨running.bytes, UInt64.ofNatClamp running.perToken.ceil.toNat⟩

/-- The cache, summed over the layers, with what is missing for it. -/
def kvCacheBytes (metadata : ModelMetadata) (params : RuntimeParams) : KvCache × List Missing :=
  match metadata.blockCount with
  | none => (.unknown, [.blockCount])
  | some layers =>
      match metadata.headDimK, metadata.headDimV with
      | some headDimK, some headDimV =>
          if metadata.headCountKv = none then (.unknown, [.headCountKv])
          else
            match accumulate metadata params layers.toNat headDimK headDimV with
            | .ok cache => (cache, [])
            | .error reason => (.unknown, [reason])
      | _, _ => (.unknown, [.headDimension])

structure Estimator where
  computeModel : ComputeModel
deriving DecidableEq

namespace Estimator

def headless : Estimator := ⟨.headless⟩

/-- The buffers of the engine, before they are cut to whole bytes. -/
def computeSize (estimator : Estimator) (metadata : ModelMetadata) (params : RuntimeParams) : Rat :=
  let ubatch : Rat := (max params.nUbatch 1).toNat
  let logits : Rat := (metadata.vocabSize.getD 0).toNat * ubatch * 4
  let embedding : Rat := (metadata.embeddingLength.getD 0).toNat
  let ffn : Rat := (metadata.feedForwardLength.getD 0).toNat
  let activations := estimator.computeModel.activationFactor * ubatch * embedding * 4
  let scratch := estimator.computeModel.scratchFactor * ubatch * max embedding ffn * 4
  logits + activations + scratch

/-- The buffers of the engine, with what is missing for them. -/
def computeBytes (estimator : Estimator) (metadata : ModelMetadata) (params : RuntimeParams) :
    UInt64 × List Missing :=
  (truncate (max (estimator.computeSize metadata params) 0),
    (if metadata.vocabSize = none then [.vocabSize] else []) ++
      if metadata.embeddingLength.getD 0 = 0 then [.embeddingLength] else [])

/-- What a load takes, and whether the budget holds it. -/
def estimateAgainst (estimator : Estimator) (metadata : ModelMetadata) (params : RuntimeParams)
    (budgetFor : Budget) : Estimate :=
  let weights := metadata.weightBytes.getD 0
  let kv := kvCacheBytes metadata params
  let compute := estimator.computeBytes metadata params
  let missing := (if metadata.weightBytes = none then [.weightSize] else []) ++ kv.2 ++ compute.2
  let overhead :=
    saturatingAdd estimator.computeModel.engineBaseline estimator.computeModel.hostOverhead
  let total := saturatingAdd (saturatingAdd (saturatingAdd weights kv.1.bytes) compute.1) overhead
  let budget := budgetFor.spendable
  let margin := marginFor budget
  let verdict : Verdict :=
    if saturatingAdd total margin ≤ budget then .safe
    else if total ≤ budget then .tight
    else .insufficient
  let confidence : Confidence :=
    if missing ≠ [] then .partialMetadata
    else if estimator.computeModel.measured then .measured
    else .coarse
  let fixed := saturatingAdd (saturatingAdd (saturatingAdd weights compute.1) overhead) margin
  -- no more than the model was trained for
  let atMost (fits : UInt32) : UInt32 :=
    match metadata.contextLength with
    | some modelMax => min fits (clampToU32 modelMax)
    | none => fits
  { weights
    kvCache := kv.1.bytes
    compute := compute.1
    overhead
    total
    budget
    reclaimable := budgetFor.reclaimable
    margin
    verdict
    confidence
    kvBytesPerToken := kv.1.bytesPerToken
    maxContextThatFits :=
      ((solveMaxContext budget fixed kv.1.bytesPerToken).map atMost).filter (minUsefulContext ≤ ·)
    missing
    snapshot := budgetFor.snapshot
    params }

/-- The largest preset that loads safely. -/
def largestSafeContextAgainst (estimator : Estimator) (metadata : ModelMetadata)
    (base : RuntimeParams) (budget : Budget) (ceiling : Option UInt32) : Option UInt32 :=
  let presets := RuntimeParams.contextPresetsFor metadata.contextLength
  let presets :=
    match ceiling with
    | some ceiling => presets.filter (· ≤ ceiling)
    | none => presets
  presets.reverse.find? fun nCtx =>
    (estimator.estimateAgainst metadata (base.withContext nCtx) budget).verdict = .safe

inductive ConcurrencySource where
  | requested | fitted | reducedToFit
deriving DecidableEq, Repr

structure ConcurrencyChoice where
  slots : UInt32
  source : ConcurrencySource
  cores : UInt32
deriving DecidableEq

/-- The first slot count that loads safely, from one down. -/
def safeSlots (estimator : Estimator) (metadata : ModelMetadata) (base : RuntimeParams)
    (budget : Budget) : Nat → Option UInt32
  | 0 => none
  | slots + 1 =>
      let params := { base with nParallel := UInt32.ofNat (slots + 1) }
      if (estimator.estimateAgainst metadata params budget).verdict = .safe then
        some (UInt32.ofNat (slots + 1))
      else safeSlots estimator metadata base budget slots

/-- How many requests to serve at once: what the cores support and the memory holds. -/
def chooseConcurrency (estimator : Estimator) (requested : Option UInt32) (cores : UInt32)
    (metadata : Option ModelMetadata) (base : RuntimeParams) (budget : Budget) : ConcurrencyChoice :=
  let fromCores := max (cores / coresPerSlot) 1
  match requested, metadata with
  | some slots, _ => ⟨max slots 1, .requested, cores⟩
  | none, none => ⟨fromCores, .fitted, cores⟩
  | none, some metadata =>
      match estimator.safeSlots metadata base budget fromCores.toNat with
      | some slots => ⟨slots, if slots = fromCores then .fitted else .reducedToFit, cores⟩
      | none => ⟨1, if fromCores = 1 then .fitted else .reducedToFit, cores⟩

end Estimator

end Lightweight.Memory
