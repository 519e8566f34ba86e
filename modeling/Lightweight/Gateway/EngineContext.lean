import Lightweight.Backend.Supervisor
import Lightweight.Gateway.FittedContext

/-! The window that a load was priced for, against the cells that the engine allocates. -/

namespace Lightweight.Gateway

open Lightweight.Core Lightweight.Gguf Lightweight.Memory Lightweight.Backend

theorem LoadBody.options_nCtx {body : LoadBody} {options : LoadOptions}
    (accepted : body.options = .ok options) : options.nCtx = body.ctx := by
  obtain ⟨_, _, -, -, told⟩ := LoadBody.options_cases accepted
  rw [told]

/-- A load that was judged goes to the engine as it was priced. -/
theorem admission_judged {options : LoadOptions} {around : Surroundings} {params : RuntimeParams}
    {estimate : Estimate} (admitted : admission options around = .ok ⟨params, some estimate⟩) :
    ∃ snapshot, around.snapshot = some snapshot ∧ params = around.fitted options snapshot ∧
      estimate.params = params := by
  unfold admission at admitted
  split at admitted
  · split at admitted <;> cases admitted
  · rename_i snapshot probed
    dsimp only at admitted
    split at admitted
    · cases admitted
    · split at admitted
      · cases admitted
      · cases admitted
        exact ⟨snapshot, probed, rfl, rfl⟩

theorem contextPresets_ge : ∀ preset ∈ RuntimeParams.contextPresets, 512 ≤ preset.toNat := by
  have all : RuntimeParams.contextPresets.all (512 ≤ ·.toNat) = true := by
    decide
  intro preset member
  exact of_decide_eq_true (List.all_eq_true.mp all preset member)

theorem contextPresetsUpTo_ge {ceiling preset : UInt32}
    (member : preset ∈ RuntimeParams.contextPresetsUpTo ceiling) : 512 ≤ preset.toNat := by
  unfold RuntimeParams.contextPresetsUpTo at member
  dsimp only at member
  rw [List.mem_insertionSort] at member
  split at member
  · rename_i extra
    rcases List.mem_append.mp member with listed | own
    · exact contextPresets_ge preset (List.mem_of_mem_filter listed)
    · rw [List.mem_singleton.mp own]
      exact UInt32.le_iff_toNat_le.mp extra.2
  · exact contextPresets_ge preset (List.mem_of_mem_filter member)

theorem contextPresetsFor_ge {modelMax : Option UInt64} {preset : UInt32}
    (member : preset ∈ RuntimeParams.contextPresetsFor modelMax) : 512 ≤ preset.toNat := by
  cases modelMax with
  | none => exact contextPresets_ge preset member
  | some modelMax => exact contextPresetsUpTo_ge member

theorem base_nCtx (around : Surroundings) (options : LoadOptions) :
    (around.base options).nCtx = 4096 := by
  unfold Surroundings.base
  cases options.ubatch with
  | none => rfl
  | some ubatch => rfl

/-- The window is zero only where zero is asked for. -/
theorem fitted_nCtx_eq_zero (around : Surroundings) (options : LoadOptions)
    (snapshot : MemorySnapshot) :
    (around.fitted options snapshot).nCtx = 0 ↔ options.nCtx.or around.storedDefault = some 0 := by
  change (chooseContext options.nCtx around.storedDefault around.metadata
    (around.slotted options snapshot) (around.budget snapshot) .headless).nCtx = 0 ↔ _
  cases options.nCtx with
  | some asked => exact Option.some_inj.symm
  | none =>
      cases around.storedDefault with
      | some stored => exact Option.some_inj.symm
      | none =>
          refine ⟨?_, fun zero => nomatch zero⟩
          rw [chooseContext]
          dsimp only
          intro zero
          cases found : Estimator.headless.largestSafeContextAgainst around.metadata
            (around.slotted options snapshot) (around.budget snapshot) none with
          | none =>
              rw [found, Option.getD_none] at zero
              have given : (around.slotted options snapshot).nCtx = 4096 := base_nCtx around options
              rw [given] at zero
              exact absurd zero (by decide)
          | some preset =>
              rw [found, Option.getD_some] at zero
              have least := contextPresetsFor_ge
                (List.mem_reverse.mp (List.mem_of_find?_eq_some found))
              rw [zero] at least
              exact absurd least (by decide)

/-- The window that a load asks for, or that is fitted. -/
def Surroundings.window (around : Surroundings) (options : LoadOptions) (snapshot : MemorySnapshot) :
    Nat :=
  (chooseContext options.nCtx around.storedDefault around.metadata (around.slotted options snapshot)
    (around.budget snapshot) .headless).nCtx.toNat

/-- The slots that the engine is started with. -/
def Surroundings.slotCount (around : Surroundings) (options : LoadOptions)
    (snapshot : MemorySnapshot) : Nat :=
  (max (around.slotted options snapshot).nParallel 1).toNat

/-- The engine allocates the window that was priced, for every slot, just when zero is not asked for
(or the trained context gives no slot a cell) and the windows of all slots fit in 32 bits. -/
theorem engine_cells_iff {body : LoadBody} {options : LoadOptions} {around : Surroundings}
    {snapshot : MemorySnapshot} {params : RuntimeParams} {estimate : Estimate}
    (accepted : body.options = .ok options) (probed : around.snapshot = some snapshot)
    (admitted : admission options around = .ok ⟨params, some estimate⟩)
    {path : String} {isFile : Bool} {lockedMemoryLimit : Option UInt64} {defaultThreads : UInt32}
    {port : UInt16} {args : List String}
    (launched : launchArgs lockedMemoryLimit defaultThreads port
      ⟨path, isFile, around.metadata, params⟩ = .ok args)
    (trained : Nat) :
    cellsPerSlot trained args = some estimate.params.nCtx.toNat ↔
      (body.ctx.or around.storedDefault = some 0 → trained < around.slotCount options snapshot) ∧
        around.window options snapshot * around.slotCount options snapshot < UInt32.size := by
  obtain ⟨same, reading, rfl, priced⟩ := admission_judged admitted
  rw [probed] at reading
  cases reading
  rw [launchArgs_ok launched, priced, cells_eq_window_iff, fitted_nCtx_eq_zero,
    LoadBody.options_nCtx accepted]
  rfl

/-- A load that names a window. -/
def namedWindow (ctx : UInt32) : LoadBody := ⟨some ctx, none, none, none, none, none, false⟩

def namedOptions (ctx : UInt32) : LoadOptions := ⟨some ctx, none, none, none, none, none, false⟩

/-- A model of one layer, on a machine with eight gibibytes free. -/
def roomyMachine : Surroundings where
  metadata := oneLayer 8 64
  defaults := ⟨.f16, none, none⟩
  storedDefault := none
  logicalCores := 4
  defaultThreads := 4
  snapshot := some eightFree.snapshot
  resident := none
  calibration := none
  machine := fourCores
  engine := pinnedEngine

/-- The command line that a named window leads to there. -/
def namedArgs (ctx : UInt32) : List String :=
  buildArgs ⟨"model.gguf", roomyMachine.fitted (namedOptions ctx) eightFree.snapshot, 4⟩ 8081

-- evaluated by the elaborator below
unseal Rat.add Rat.sub Rat.mul Rat.inv
set_option maxRecDepth 2000

theorem named_window_allocated :
    admission (namedOptions 4096) roomyMachine =
        .ok ⟨roomyMachine.fitted (namedOptions 4096) eightFree.snapshot,
          some (roomyMachine.judge (namedOptions 4096) eightFree.snapshot)⟩ ∧
      cellsPerSlot 8192 (namedArgs 4096) = some 4096 := by
  have admitted : admission (namedOptions 4096) roomyMachine =
      .ok ⟨roomyMachine.fitted (namedOptions 4096) eightFree.snapshot,
        some (roomyMachine.judge (namedOptions 4096) eightFree.snapshot)⟩ := by
    decide
  have launched : launchArgs none 4 8081 ⟨"model.gguf", true, roomyMachine.metadata,
      roomyMachine.fitted (namedOptions 4096) eightFree.snapshot⟩ = .ok (namedArgs 4096) := by
    decide
  have accepted : (namedWindow 4096).options = .ok (namedOptions 4096) := rfl
  refine ⟨admitted, (engine_cells_iff accepted rfl admitted launched 8192).mpr ⟨?_, ?_⟩⟩
  · intro zero
    exact absurd zero (by decide)
  · decide

/-- A window of zero is priced at nothing, and the engine allocates all the model was trained for. -/
theorem zero_window_allocates_trained :
    (namedWindow 0).options = .ok (namedOptions 0) ∧
      admission (namedOptions 0) roomyMachine =
        .ok ⟨roomyMachine.fitted (namedOptions 0) eightFree.snapshot,
          some (roomyMachine.judge (namedOptions 0) eightFree.snapshot)⟩ ∧
      launchArgs none 4 8081 ⟨"model.gguf", true, roomyMachine.metadata,
        roomyMachine.fitted (namedOptions 0) eightFree.snapshot⟩ = .ok (namedArgs 0) ∧
      (roomyMachine.judge (namedOptions 0) eightFree.snapshot).params.nCtx = 0 ∧
      (roomyMachine.judge (namedOptions 0) eightFree.snapshot).kvCache = 0 ∧
      cellsPerSlot 8192 (namedArgs 0) = some 8192 := by
  refine ⟨rfl, ?_, ?_, ?_, ?_, ?_⟩
  · decide
  · decide
  · decide
  · decide
  · rw [namedArgs, cellsPerSlot_buildArgs]
    decide

end Lightweight.Gateway
