import Lightweight.Gateway.FittedContext

/-! What the screen of a model says that a load of it would take, against what the load is judged
by. -/

namespace Lightweight.Core

/-- The parameters as far as a price depends on them: the window, the slots, the physical batch and
the types of the cache. -/
def RuntimeParams.priced (params : RuntimeParams) : RuntimeParams :=
  { RuntimeParams.default with
    nCtx := params.nCtx
    nUbatch := params.nUbatch
    nParallel := params.nParallel
    cacheTypeK := params.cacheTypeK
    cacheTypeV := params.cacheTypeV }

end Lightweight.Core

namespace Lightweight.Gateway

open Lightweight.Core Lightweight.Gguf Lightweight.Memory Lightweight.Bench

/-- What the caller is weighing. -/
structure DetailQuery where
  ctx : Option UInt32
  kvType : Option String
  ubatch : Option UInt32

structure DetailOptions where
  nCtx : Option UInt32
  kvType : Option GgmlType
  ubatch : Option UInt32
  storedDefault : Option UInt32

def DetailQuery.options (query : DetailQuery) (storedDefault : Option UInt32) :
    Except BadRequest DetailOptions := do
  let kvType ← parsed GgmlType.fromName ⟨"kv_type",
    "unknown KV cache type; GET /api/v1/gateway lists what this engine accepts"⟩ query.kvType
  .ok ⟨query.ctx, kvType, query.ubatch, storedDefault⟩

/-- Why memory could not be read. -/
structure ProbeError where
  code : String
  message : String

/-- A reading, or why there is none. -/
inductive Probed (α : Type) where
  | read (reading : α)
  | unavailable (code message : String)

def Probed.fromProbe {α : Type} : Except ProbeError α → Probed α
  | .ok reading => .read reading
  | .error failure => .unavailable failure.code failure.message

structure HeaderDetail where
  blockCount : Option UInt64
  embeddingLength : Option UInt64
  feedForwardLength : Option UInt64
  headCount : Option UInt64
  headCountKv : Option (List UInt64)
  vocabSize : Option UInt64
  contextLength : Option UInt64
  contextPresets : List UInt32

def HeaderDetail.of (metadata : ModelMetadata) : HeaderDetail where
  blockCount := metadata.blockCount
  embeddingLength := metadata.embeddingLength
  feedForwardLength := metadata.feedForwardLength
  headCount := metadata.headCount
  headCountKv := metadata.headCountKv
  vocabSize := metadata.vocabSize
  contextLength := metadata.contextLength
  contextPresets := RuntimeParams.contextPresetsFor metadata.contextLength

structure CpuInfo where
  logicalCores : UInt32
  defaultThreads : UInt32

structure CalibrationLookup where
  /-- None without a data directory. -/
  file : Option (Except String Calibration)
  machine : MachineFingerprint
  engine : EngineFingerprint

def CalibrationLookup.estimatorFor (lookup : CalibrationLookup) (metadata : ModelMetadata)
    (params : RuntimeParams) : Estimator × Outcome :=
  match lookup.file with
  | none => (.headless, .rejected .noFit)
  | some file => Bench.estimatorFor file lookup.machine lookup.engine metadata params .headless

/-- The parameters that are described, but for the window and the slots. -/
def DetailOptions.base (asked : DetailOptions) (defaults : RuntimeDefaults) (cpu : CpuInfo) :
    RuntimeParams :=
  let cacheType := asked.kvType.getD defaults.kvType
  let base :=
    { RuntimeParams.default with
      cacheTypeK := cacheType
      cacheTypeV := cacheType
      threads := some (defaults.threads.getD cpu.defaultThreads)
      nParallel := 1 }
  match asked.ubatch with
  | some ubatch => if 0 < ubatch then base.withUbatch ubatch else base
  | none => base

/-- The header of a file, and what loading it would cost; nothing is said of a file without one. -/
def describeFile (header : Option ModelMetadata) (defaults : RuntimeDefaults) (asked : DetailOptions)
    (memory : Except ProbeError MemorySnapshot) (calibration : CalibrationLookup) (cpu : CpuInfo) :
    Option HeaderDetail × Option (Probed Estimate) × Option ContextSource :=
  match header with
  | none => (none, none, none)
  | some metadata =>
      let detail := HeaderDetail.of metadata
      match memory with
      | .error failure => (some detail, some (.fromProbe (.error failure)), none)
      | .ok snapshot =>
          let base := asked.base defaults cpu
          -- nothing is handed back: no engine is replaced by a description
          let budget : Budget := ⟨snapshot, 0⟩
          let slots := Estimator.headless.chooseConcurrency defaults.concurrency cpu.logicalCores
            (some metadata) base budget
          let base := { base with nParallel := slots.slots }
          let chosen := chooseContext asked.nCtx asked.storedDefault metadata base budget .headless
          let fitted := base.withContext chosen.nCtx
          let estimator := (calibration.estimatorFor metadata fitted).1
          (some detail, some (.read (estimator.estimateAgainst metadata fitted budget)),
            some chosen.source)

/-! ### What a price depends on -/

section Priced

variable {estimator : Estimator} {metadata : ModelMetadata} {first second : RuntimeParams}
  {budget : Budget}

theorem estimateAgainst_priced (estimator : Estimator) (metadata : ModelMetadata)
    (params : RuntimeParams) (budget : Budget) :
    estimator.estimateAgainst metadata params budget =
      { estimator.estimateAgainst metadata params.priced budget with params := params } := by
  have cache : kvCacheBytes metadata params.priced = kvCacheBytes metadata params := rfl
  have buffers : estimator.computeBytes metadata params.priced =
      estimator.computeBytes metadata params := rfl
  unfold Estimator.estimateAgainst
  rw [cache, buffers]

theorem verdict_congr (same : first.priced = second.priced) :
    (estimator.estimateAgainst metadata first budget).verdict =
      (estimator.estimateAgainst metadata second budget).verdict := by
  rw [estimateAgainst_priced, estimateAgainst_priced estimator metadata second, same]

theorem priced_slots (same : first.priced = second.priced) (nParallel : UInt32) :
    { first with nParallel }.priced = { second with nParallel }.priced := by
  change { first.priced with nParallel } = { second.priced with nParallel }
  rw [same]

theorem priced_withContext (same : first.priced = second.priced) (nCtx : UInt32) :
    (first.withContext nCtx).priced = (second.withContext nCtx).priced := by
  change first.priced.withContext nCtx = second.priced.withContext nCtx
  rw [same]

theorem priced_withUbatch (same : first.priced = second.priced) (ubatch : UInt32) :
    (first.withUbatch ubatch).priced = (second.withUbatch ubatch).priced := by
  change { first.priced with nUbatch := max ubatch 1 } =
    { second.priced with nUbatch := max ubatch 1 }
  rw [same]

theorem safeSlots_congr (same : first.priced = second.priced) (most : Nat) :
    estimator.safeSlots metadata first budget most =
      estimator.safeSlots metadata second budget most := by
  induction most with
  | zero => rfl
  | succ slots ih =>
      rw [Estimator.safeSlots, Estimator.safeSlots, verdict_congr (priced_slots same _), ih]

theorem chooseConcurrency_congr (same : first.priced = second.priced) (requested : Option UInt32)
    (cores : UInt32) :
    estimator.chooseConcurrency requested cores (some metadata) first budget =
      estimator.chooseConcurrency requested cores (some metadata) second budget := by
  cases requested with
  | some slots => rfl
  | none =>
      unfold Estimator.chooseConcurrency
      dsimp only
      rw [safeSlots_congr same]

theorem largestSafeContextAgainst_congr (same : first.priced = second.priced)
    (ceiling : Option UInt32) :
    estimator.largestSafeContextAgainst metadata first budget ceiling =
      estimator.largestSafeContextAgainst metadata second budget ceiling := by
  have verdicts : (fun nCtx => decide
        ((estimator.estimateAgainst metadata (first.withContext nCtx) budget).verdict = .safe)) =
      fun nCtx => decide
        ((estimator.estimateAgainst metadata (second.withContext nCtx) budget).verdict = .safe) := by
    funext nCtx
    rw [verdict_congr (priced_withContext same nCtx)]
  unfold Estimator.largestSafeContextAgainst
  dsimp only
  rw [verdicts]

theorem chooseContext_congr (same : first.priced = second.priced)
    (requested storedDefault : Option UInt32) :
    chooseContext requested storedDefault metadata first budget estimator =
      chooseContext requested storedDefault metadata second budget estimator := by
  have window : first.priced.nCtx = second.priced.nCtx := by rw [same]
  have window : first.nCtx = second.nCtx := window
  unfold chooseContext
  rw [largestSafeContextAgainst_congr same, window]

/-- The slots and the window that are chosen for a load, on top of its other parameters. -/
def chosenFor (metadata : ModelMetadata) (concurrency : Option UInt32) (cores : UInt32)
    (requested storedDefault : Option UInt32) (budget : Budget) (base : RuntimeParams) :
    RuntimeParams × ContextChoice :=
  let slots := Estimator.headless.chooseConcurrency concurrency cores (some metadata) base budget
  let base := { base with nParallel := slots.slots }
  let chosen := chooseContext requested storedDefault metadata base budget .headless
  (base.withContext chosen.nCtx, chosen)

theorem chosenFor_congr (same : first.priced = second.priced) (concurrency : Option UInt32)
    (cores : UInt32) (requested storedDefault : Option UInt32) :
    (chosenFor metadata concurrency cores requested storedDefault budget first).1.priced =
      (chosenFor metadata concurrency cores requested storedDefault budget second).1.priced := by
  unfold chosenFor
  dsimp only
  rw [chooseConcurrency_congr same, chooseContext_congr (priced_slots same _)]
  exact priced_withContext (priced_slots same _) _

/-- The price of a load for which the slots and the window were chosen. -/
def priceOf (calibration : CalibrationLookup) (metadata : ModelMetadata) (budget : Budget)
    (params : RuntimeParams) : Estimate :=
  (calibration.estimatorFor metadata params).1.estimateAgainst metadata params budget

/-- A fit is looked up by what a price depends on. -/
theorem estimatorFor_congr {lookup : CalibrationLookup} (same : first.priced = second.priced) :
    lookup.estimatorFor metadata first = lookup.estimatorFor metadata second := by
  have priced (params : RuntimeParams) :
      lookup.estimatorFor metadata params = lookup.estimatorFor metadata params.priced := rfl
  rw [priced first, priced second, same]

end Priced

/-! ### The price on the screen -/

namespace Surroundings

def cpu (around : Surroundings) : CpuInfo := ⟨around.logicalCores, around.defaultThreads⟩

def calibrationLookup (around : Surroundings) : CalibrationLookup :=
  ⟨around.calibration, around.machine, around.engine⟩

end Surroundings

/-- The request of the screen and the request of the load name the same, and the screen reads the
stored default that the load reads. -/
structure NamesAlike (asked : DetailOptions) (options : LoadOptions) (around : Surroundings) :
    Prop where
  nCtx : asked.nCtx = options.nCtx
  kvType : asked.kvType = options.kvType
  ubatch : asked.ubatch = options.ubatch
  some_ubatch : options.ubatch ≠ some 0
  storedDefault : asked.storedDefault = around.storedDefault

/-- What is told of a price. -/
structure SamePrice (shown judged : Estimate) : Prop where
  slots : shown.params.nParallel = judged.params.nParallel
  context : shown.params.nCtx = judged.params.nCtx
  total : shown.total = judged.total
  verdict : shown.verdict = judged.verdict
  confidence : shown.confidence = judged.confidence

section Screen

variable {asked : DetailOptions} {options : LoadOptions} {around : Surroundings}

theorem priced_base (alike : NamesAlike asked options around) :
    (asked.base around.defaults around.cpu).priced = (around.base options).priced := by
  have some_ubatch := alike.some_ubatch
  unfold DetailOptions.base Surroundings.base
  dsimp only
  rw [alike.kvType, alike.ubatch]
  cases named : options.ubatch with
  | none => rfl
  | some ubatch =>
      have positive : 0 < ubatch := by
        apply UInt32.pos_iff_ne_zero.mpr
        intro zero
        exact some_ubatch (by rw [named, zero])
      dsimp only
      rw [if_pos positive]
      exact priced_withUbatch rfl ubatch

/-- A query that names the window, the type of the cache and the physical batch of a load that is
accepted names it alike: the load has refused a physical batch of none. -/
theorem namesAlike_of_requests {query : DetailQuery} {body : LoadBody}
    (described : query.options around.storedDefault = .ok asked)
    (accepted : body.options = .ok options) (ctx : query.ctx = body.ctx)
    (kvType : query.kvType = body.kvType) (ubatch : query.ubatch = body.ubatch) :
    NamesAlike asked options around := by
  obtain ⟨cacheType, loadMode, known, some_ubatch, told⟩ := LoadBody.options_cases accepted
  unfold DetailQuery.options at described
  rw [kvType, known] at described
  cases described
  rw [told]
  exact ⟨ctx, rfl, ubatch, some_ubatch, rfl⟩

theorem samePrice_of_priced {estimator : Estimator} {metadata : ModelMetadata}
    {first second : RuntimeParams} (same : first.priced = second.priced) (budget : Budget) :
    SamePrice (estimator.estimateAgainst metadata first budget)
      (estimator.estimateAgainst metadata second budget) := by
  rw [estimateAgainst_priced, estimateAgainst_priced estimator metadata second, same]
  have slots : first.priced.nParallel = second.priced.nParallel := by rw [same]
  have context : first.priced.nCtx = second.priced.nCtx := by rw [same]
  exact ⟨slots, context, rfl, rfl, rfl⟩

end Screen

theorem describeFile_read (metadata : ModelMetadata) (defaults : RuntimeDefaults)
    (asked : DetailOptions) (snapshot : MemorySnapshot) (calibration : CalibrationLookup)
    (cpu : CpuInfo) :
    describeFile (some metadata) defaults asked (.ok snapshot) calibration cpu =
      let chosen := chosenFor metadata defaults.concurrency cpu.logicalCores asked.nCtx
        asked.storedDefault ⟨snapshot, 0⟩ (asked.base defaults cpu)
      (some (.of metadata), some (.read (priceOf calibration metadata ⟨snapshot, 0⟩ chosen.1)),
        some chosen.2.source) :=
  rfl

theorem judge_eq (around : Surroundings) (options : LoadOptions) (snapshot : MemorySnapshot) :
    around.judge options snapshot =
      priceOf around.calibrationLookup around.metadata (around.budget snapshot)
        (chosenFor around.metadata around.defaults.concurrency around.logicalCores options.nCtx
          around.storedDefault (around.budget snapshot) (around.base options)).1 :=
  rfl

/-- What the screen of a model says of a load is what the load is judged by, whatever else the load
names, where no engine is replaced. -/
theorem shown_price_is_judged (around : Surroundings) (options : LoadOptions) (asked : DetailOptions)
    (snapshot : MemorySnapshot) (alike : NamesAlike asked options around)
    (alone : around.resident = none) :
    ∃ header shown source,
      describeFile (some around.metadata) around.defaults asked (.ok snapshot)
          around.calibrationLookup around.cpu = (some header, some (.read shown), some source) ∧
        SamePrice shown (around.judge options snapshot) := by
  have nothing_back : around.budget snapshot = ⟨snapshot, 0⟩ := by
    rw [Surroundings.budget, Surroundings.reclaimable, alone]
  refine ⟨_, _, _, describeFile_read _ _ _ _ _ _, ?_⟩
  rw [judge_eq, nothing_back, alike.nCtx, alike.storedDefault]
  have same : (chosenFor around.metadata around.defaults.concurrency around.cpu.logicalCores
        options.nCtx around.storedDefault ⟨snapshot, 0⟩
        (asked.base around.defaults around.cpu)).1.priced =
      (chosenFor around.metadata around.defaults.concurrency around.logicalCores options.nCtx
        around.storedDefault ⟨snapshot, 0⟩ (around.base options)).1.priced :=
    chosenFor_congr (priced_base alike) _ _ _ _
  unfold priceOf
  rw [estimatorFor_congr same]
  exact samePrice_of_priced same _

/-- A load that names its threads, both kinds, and locks its weights. -/
def lockedLoad : LoadOptions := ⟨none, some .f16, some 2, some 512, some 3, some .mlock, false⟩

def lockedQuery : DetailOptions := ⟨none, some .f16, some 512, none⟩

theorem shown_price_of_locked_load :
    ∃ header shown source,
      describeFile (some (oneLayer 8 64)) ⟨.f16, none, none⟩ lockedQuery (.ok smallSnapshot)
          (smallMachine (some (.ok ⟨[heavyFit]⟩))).calibrationLookup ⟨4, 4⟩ =
        (some header, some (.read shown), some source) ∧
        SamePrice shown
          ((smallMachine (some (.ok ⟨[heavyFit]⟩))).judge lockedLoad smallSnapshot) :=
  shown_price_is_judged (smallMachine (some (.ok ⟨[heavyFit]⟩))) lockedLoad lockedQuery smallSnapshot
    ⟨rfl, rfl, rfl, by decide, rfl⟩ rfl

end Lightweight.Gateway
