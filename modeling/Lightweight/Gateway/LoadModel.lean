import Lightweight.Bench.Apply

/-! What a load of a model is decided on: the request, the parameters that are made of it, the window
and the slots that are chosen for the machine, and the verdict that lets it through to the engine. -/

namespace Lightweight.Gateway

open Lightweight.Core Lightweight.Gguf Lightweight.Memory Lightweight.Bench Lightweight.Word64

/-- The body of a load request. -/
structure LoadBody where
  ctx : Option UInt32
  kvType : Option String
  threads : Option UInt32
  ubatch : Option UInt32
  threadsBatch : Option UInt32
  loadMode : Option String
  force : Bool

structure LoadOptions where
  nCtx : Option UInt32
  kvType : Option GgmlType
  threads : Option UInt32
  ubatch : Option UInt32
  threadsBatch : Option UInt32
  loadMode : Option LoadMode
  force : Bool

/-- A request that is refused for one of its fields. -/
structure BadRequest where
  field : String
  message : String
deriving DecidableEq

/-- A name that is given must be known. -/
def parsed {α : Type} (read : String → Option α) (refusal : BadRequest) :
    Option String → Except BadRequest (Option α)
  | none => .ok none
  | some name =>
      match read name with
      | some value => .ok (some value)
      | none => .error refusal

def LoadBody.options (body : LoadBody) : Except BadRequest LoadOptions := do
  let kvType ← parsed GgmlType.fromName ⟨"kv_type",
    "unknown KV cache type; GET /api/v1/gateway lists what this engine accepts"⟩ body.kvType
  let loadMode ← parsed LoadMode.fromName ⟨"load_mode",
    "unknown load mode; GET /api/v1/gateway lists what this engine accepts"⟩ body.loadMode
  if body.ubatch = some 0 then
    .error ⟨"ubatch", "a physical batch size of zero processes nothing"⟩
  else
    .ok ⟨body.ctx, kvType, body.threads, body.ubatch, body.threadsBatch, loadMode, body.force⟩

/-- A request that is accepted names nothing unknown and a physical batch that is none of zero. -/
theorem LoadBody.options_cases {body : LoadBody} {options : LoadOptions}
    (accepted : body.options = .ok options) :
    ∃ kvType loadMode,
      parsed GgmlType.fromName ⟨"kv_type",
        "unknown KV cache type; GET /api/v1/gateway lists what this engine accepts"⟩ body.kvType =
          .ok kvType ∧
      body.ubatch ≠ some 0 ∧
      options = ⟨body.ctx, kvType, body.threads, body.ubatch, body.threadsBatch, loadMode,
        body.force⟩ := by
  unfold LoadBody.options at accepted
  dsimp only [bind, Except.bind] at accepted
  split at accepted
  · cases accepted
  rename_i kvType known
  split at accepted
  · cases accepted
  rename_i loadMode _
  split at accepted
  · cases accepted
  rename_i some_ubatch
  cases accepted
  exact ⟨kvType, loadMode, known, some_ubatch, rfl⟩

structure RuntimeDefaults where
  kvType : GgmlType
  threads : Option UInt32
  concurrency : Option UInt32

structure ResourceUsage where
  rss : UInt64
  anonRss : Option UInt64

/-- The engine that a load replaces. -/
structure ResidentEngine where
  loadMode : Option LoadMode
  usage : Option ResourceUsage

/-- What a load reads beside its request. -/
structure Surroundings where
  metadata : ModelMetadata
  defaults : RuntimeDefaults
  storedDefault : Option UInt32
  logicalCores : UInt32
  defaultThreads : UInt32
  /-- None where memory could not be probed. -/
  snapshot : Option MemorySnapshot
  resident : Option ResidentEngine
  /-- The file of fits, where the gateway has a data directory. -/
  calibration : Option (Except String Calibration)
  machine : MachineFingerprint
  engine : EngineFingerprint

inductive ContextSource where
  | requested | setting | fitted
deriving DecidableEq, Repr

structure ContextChoice where
  nCtx : UInt32
  source : ContextSource
deriving DecidableEq

def chooseContext (requested storedDefault : Option UInt32) (metadata : ModelMetadata)
    (base : RuntimeParams) (budget : Budget) (estimator : Estimator) : ContextChoice :=
  match requested, storedDefault with
  | some nCtx, _ => ⟨nCtx, .requested⟩
  | none, some nCtx => ⟨nCtx, .setting⟩
  | none, none =>
      ⟨(estimator.largestSafeContextAgainst metadata base budget none).getD base.nCtx, .fitted⟩

namespace Surroundings

/-- What the engine that is replaced hands back: its anonymous memory, and its weights if they are
locked. -/
def reclaimable (around : Surroundings) : UInt64 :=
  match around.resident with
  | none => 0
  | some resident =>
      let anonymous := (resident.usage.bind ResourceUsage.anonRss).getD 0
      let locked :=
        if resident.loadMode.any LoadMode.locksWeights then
          (resident.usage.map fun usage => saturatingSub usage.rss anonymous).getD 0
        else 0
      saturatingAdd anonymous locked

def budget (around : Surroundings) (snapshot : MemorySnapshot) : Budget :=
  ⟨snapshot, around.reclaimable⟩

/-- The parameters of a load, but for the window and the slots. -/
def base (around : Surroundings) (options : LoadOptions) : RuntimeParams :=
  let cacheType := options.kvType.getD around.defaults.kvType
  let params :=
    { RuntimeParams.default with
      cacheTypeK := cacheType
      cacheTypeV := cacheType
      threads := some ((options.threads.or around.defaults.threads).getD around.defaultThreads)
      nParallel := 1
      threadsBatch := options.threadsBatch
      loadMode := options.loadMode }
  match options.ubatch with
  | some ubatch => params.withUbatch ubatch
  | none => params

/-- With as many slots as the machine should serve. -/
def slotted (around : Surroundings) (options : LoadOptions) (snapshot : MemorySnapshot) :
    RuntimeParams :=
  { around.base options with
    nParallel := (Estimator.headless.chooseConcurrency around.defaults.concurrency
      around.logicalCores (some around.metadata) (around.base options) (around.budget snapshot)).slots }

/-- And with the window that is asked for, or that fits. -/
def fitted (around : Surroundings) (options : LoadOptions) (snapshot : MemorySnapshot) :
    RuntimeParams :=
  (around.slotted options snapshot).withContext
    (chooseContext options.nCtx around.storedDefault around.metadata
      (around.slotted options snapshot) (around.budget snapshot) .headless).nCtx

/-- The fit that a load with these parameters is judged by, if one is trusted. -/
def trustedFit (around : Surroundings) (params : RuntimeParams) : Option Calibrated :=
  match around.calibration with
  | some (.ok calibration) =>
      (computeModelFor calibration around.machine around.engine around.metadata params
        .headless).toOption
  | _ => none

def estimatorFor (around : Surroundings) (params : RuntimeParams) : Estimator × Outcome :=
  match around.calibration with
  | none => (.headless, .rejected .noFit)
  | some file =>
      Bench.estimatorFor file around.machine around.engine around.metadata params .headless

/-- The estimate that a load is judged by. -/
def judge (around : Surroundings) (options : LoadOptions) (snapshot : MemorySnapshot) : Estimate :=
  let params := around.fitted options snapshot
  (around.estimatorFor params).1.estimateAgainst around.metadata params (around.budget snapshot)

end Surroundings

/-- Why a load goes no further than its verdict. -/
inductive LoadRefusal where
  | memoryProbe
  | insufficient (estimate : Estimate)
deriving DecidableEq

/-- What is handed to the engine, and the estimate it was judged by, if there is one. -/
structure Admission where
  params : RuntimeParams
  judged : Option Estimate
deriving DecidableEq

/-- A load up to the point where the engine is asked for it. -/
def admission (options : LoadOptions) (around : Surroundings) : Except LoadRefusal Admission :=
  match around.snapshot with
  | none =>
      if options.force then
        .ok ⟨(around.base options).withContext
          ((options.nCtx.or around.storedDefault).getD (around.base options).nCtx), none⟩
      else .error .memoryProbe
  | some snapshot =>
      let params := around.fitted options snapshot
      let estimate := around.judge options snapshot
      -- a load that locks its weights has no room for a tight verdict
      if params.loadMode.any LoadMode.locksWeights ∧ estimate.verdict = .tight ∧ ¬options.force then
        .error (.insufficient estimate)
      else if estimate.verdict = .insufficient ∧ ¬options.force then .error (.insufficient estimate)
      else .ok ⟨params, some estimate⟩

end Lightweight.Gateway
