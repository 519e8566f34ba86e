import Mathlib
import Lightweight.Core.Runtime
import Lightweight.Gguf.Metadata

/-! The engine process: what is refused before it is started, and the command line it is started
with. -/

namespace Lightweight.Backend

open Lightweight.Core Lightweight.Gguf

/-- The cache types that the engine takes. -/
def allowedKvCacheTypes : List String :=
  ["f32", "f16", "bf16", "q8_0", "q4_0", "q4_1", "iq4_nl", "q5_0", "q5_1"]

structure EngineConfig where
  modelPath : String
  params : RuntimeParams
  threads : UInt32

/-- The context of all slots together. -/
def engineContext (params : RuntimeParams) : UInt32 :=
  UInt32.ofNatClamp (params.nCtx.toNat * (max params.nParallel 1).toNat)

/-- An argument that may be left to the engine. -/
def optionalArg {α : Type} (flag : String) (text : α → String) : Option α → List String
  | some value => [flag, text value]
  | none => []

def buildArgs (config : EngineConfig) (port : UInt16) : List String :=
  let params := config.params
  ["--model", config.modelPath, "--host", "127.0.0.1", "--port", port.toNat.repr,
    "--ctx-size", (engineContext params).toNat.repr,
    "--batch-size", params.nBatch.toNat.repr,
    "--ubatch-size", params.nUbatch.toNat.repr,
    "--parallel", (max params.nParallel 1).toNat.repr,
    "--no-kv-unified", "--cont-batching",
    "--threads", (max config.threads 1).toNat.repr,
    "--cache-type-k", params.cacheTypeK.name,
    "--cache-type-v", params.cacheTypeV.name,
    "--jinja", "--metrics"] ++
  optionalArg "--threads-batch" (fun count => (max count 1).toNat.repr) params.threadsBatch ++
  optionalArg "--poll" (fun level => (min level 100).toNat.repr) params.poll ++
  optionalArg "--cache-reuse" (fun chunk => chunk.toNat.repr) params.cacheReuse ++
  (match params.cpuRange with
    | some (low, high) =>
        ["--cpu-range", low.toNat.repr ++ "-" ++ high.toNat.repr] ++
          if params.cpuStrict then ["--cpu-strict", "1"] else []
    | none => []) ++
  optionalArg "--load-mode" LoadMode.asStr params.loadMode

/-- A request to load, with whether there is a file at its path. -/
structure LoadRequest where
  ggufPath : String
  isFile : Bool
  metadata : ModelMetadata
  runtime : RuntimeParams

inductive BackendError where
  | unsupportedArchitecture (found : String)
  | invalidContextLength (requested max : UInt32)
  | unsupportedKvCacheType (requested : String) (supported : List String)
  | modelNotFound (path : String)
  | lockedMemoryTooSmall (required limit : UInt64)
deriving DecidableEq

/-- Refuses a load that the engine cannot serve. -/
def admitRequest (lockedMemoryLimit : Option UInt64) (request : LoadRequest) : Except BackendError Unit := do
  let metadata := request.metadata
  let runtime := request.runtime
  if ¬metadata.supported then throw (.unsupportedArchitecture metadata.architecture)
  match metadata.contextLength with
  | some modelMax =>
      if clampToU32 modelMax < runtime.nCtx then
        throw (.invalidContextLength runtime.nCtx (clampToU32 modelMax))
  | none => pure ()
  for cacheType in [runtime.cacheTypeK, runtime.cacheTypeV] do
    if cacheType.name ∉ allowedKvCacheTypes then
      throw (.unsupportedKvCacheType cacheType.name allowedKvCacheTypes)
  if ¬request.isFile then throw (.modelNotFound request.ggufPath)
  if runtime.loadMode.any LoadMode.locksWeights then
    match lockedMemoryLimit, metadata.weightBytes with
    | some limit, some weights => if limit < weights then throw (.lockedMemoryTooSmall weights limit)
    | _, _ => pure ()

/-- The command line of the engine that a request starts. -/
def launchArgs (lockedMemoryLimit : Option UInt64) (defaultThreads : UInt32) (port : UInt16)
    (request : LoadRequest) : Except BackendError (List String) := do
  admitRequest lockedMemoryLimit request
  pure (buildArgs
    { modelPath := request.ggufPath
      params := request.runtime
      threads := request.runtime.threads.getD defaultThreads }
    port)

theorem launchArgs_ok {lockedMemoryLimit : Option UInt64} {defaultThreads : UInt32} {port : UInt16}
    {request : LoadRequest} {args : List String}
    (launched : launchArgs lockedMemoryLimit defaultThreads port request = .ok args) :
    args = buildArgs ⟨request.ggufPath, request.runtime, request.runtime.threads.getD defaultThreads⟩
      port := by
  unfold launchArgs at launched
  cases checked : admitRequest lockedMemoryLimit request with
  | error error =>
      rw [checked] at launched
      cases launched
  | ok passed =>
      rw [checked] at launched
      cases launched
      rfl

/-! ### The engine -/

/-- The flags that the engine reads no value behind. -/
def switches : List String := ["--no-kv-unified", "--cont-batching", "--jinja", "--metrics"]

/-- The value behind a flag on a command line. -/
def argValue (flag : String) : List String → Option String
  | [] => none
  | [_] => none
  | name :: value :: rest =>
      if name ∈ switches then argValue flag (value :: rest)
      else if name = flag then some value
      else argValue flag rest

/-- The cells of one slot: the context, or the one the model was trained for if that is zero, divided
among the slots. -/
def cellsPerSlot (trained : Nat) (args : List String) : Option Nat := do
  let context ← (argValue "--ctx-size" args).bind String.toNat?
  let parallel ← (argValue "--parallel" args).bind String.toNat?
  pure ((if context = 0 then trained else context) / parallel)

theorem cellsPerSlot_buildArgs (trained : Nat) (config : EngineConfig) (port : UInt16) :
    cellsPerSlot trained (buildArgs config port) =
      some ((if (engineContext config.params).toNat = 0 then trained
        else (engineContext config.params).toNat) / (max config.params.nParallel 1).toNat) := by
  have context : argValue "--ctx-size" (buildArgs config port) =
      some (engineContext config.params).toNat.repr := by
    simp [argValue, buildArgs, switches]
  have parallel : argValue "--parallel" (buildArgs config port) =
      some (max config.params.nParallel 1).toNat.repr := by
    simp [argValue, buildArgs, switches]
  rw [cellsPerSlot, context, parallel, Option.bind_some, Option.bind_some, Nat.toNat?_repr,
    Nat.toNat?_repr]
  rfl

theorem toNat_engineContext (params : RuntimeParams) :
    (engineContext params).toNat =
      min (params.nCtx.toNat * (max params.nParallel 1).toNat) (UInt32.size - 1) := by
  unfold engineContext UInt32.ofNatClamp
  split
  · rename_i fits
    rw [UInt32.toNat_ofNatLT]
    omega
  · rename_i wide
    rw [UInt32.toNat_ofNatLT]
    omega

/-- The cells of a slot are the window of the parameters just when the product is not cut off, and is
not the zero that stands for the trained context. -/
theorem cells_eq_window_iff (trained : Nat) (config : EngineConfig) (port : UInt16) :
    cellsPerSlot trained (buildArgs config port) = some config.params.nCtx.toNat ↔
      (config.params.nCtx = 0 → trained < (max config.params.nParallel 1).toNat) ∧
        config.params.nCtx.toNat * (max config.params.nParallel 1).toNat < UInt32.size := by
  have positive : 0 < (max config.params.nParallel 1).toNat := by
    rw [UInt32.toNat_max]
    exact lt_of_lt_of_le Nat.one_pos (le_max_right _ _)
  have wide : UInt32.size = 2 ^ 32 := rfl
  rw [cellsPerSlot_buildArgs, toNat_engineContext, Option.some.injEq, ← UInt32.toNat_inj]
  generalize (max config.params.nParallel 1).toNat = slots at positive ⊢
  generalize config.params.nCtx.toNat = window
  rcases Nat.eq_zero_or_pos window with rfl | some_window
  · simp only [Nat.zero_mul, Nat.zero_min, if_true, Nat.div_eq_zero_iff, UInt32.toNat_zero,
      true_imp_iff]
    omega
  · have product : 0 < window * slots := Nat.mul_pos some_window positive
    have nonzero : min (window * slots) (UInt32.size - 1) ≠ 0 := by omega
    rw [if_neg nonzero]
    constructor
    · intro same
      refine ⟨fun zero => absurd zero (Nat.ne_of_gt some_window), ?_⟩
      -- a product that was cut off does not hold so many windows
      have held : window * slots ≤ min (window * slots) (UInt32.size - 1) := by
        apply (Nat.le_div_iff_mul_le positive).mp
        exact same.ge
      omega
    · rintro ⟨-, fits⟩
      have whole : min (window * slots) (UInt32.size - 1) = window * slots := by omega
      rw [whole, Nat.mul_div_cancel window positive]

end Lightweight.Backend
