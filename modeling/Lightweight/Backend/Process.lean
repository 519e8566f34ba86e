import Mathlib.Data.List.Basic
import Lightweight.Transition
import Lightweight.Fallible
import Lightweight.Backend.Supervisor
import Lightweight.Router.Json

/-! The backend over one engine process: what loads, unloads, polls and a shutdown make of the
resident engine and of the slots that are reported for it. -/

namespace Lightweight.Backend.Process

open Lightweight.Core Lightweight.Router Lightweight.Fallible

/-- What the engine says it serves. -/
structure EngineWindow where
  nCtx : UInt32
  totalSlots : UInt32
deriving DecidableEq

/-- `u32::try_from(value).ok()`. -/
def u32Of (value : Nat) : Option UInt32 :=
  if value < UInt32.size then some (UInt32.ofNat value) else none

def windowFromProps (props : Value) : Option EngineWindow := do
  let settings ← props.get "default_generation_settings".toList
  let nCtx ← (← settings.get "n_ctx".toList).asU64
  let totalSlots ← (← props.get "total_slots".toList).asU64
  if nCtx = 0 ∨ totalSlots = 0 then none
  else pure { nCtx := ← u32Of nCtx, totalSlots := ← u32Of totalSlots }

/-- The parameters as the engine reports them: less than was asked for is taken over, more is not. -/
def reconciled (requested : RuntimeParams) (props : Option Value) : RuntimeParams :=
  match props.bind windowFromProps with
  | none => requested
  | some window =>
      if requested.nCtx ≤ window.nCtx ∧ max requested.nParallel 1 ≤ window.totalSlots then requested
      else
        { requested with
          nCtx := min window.nCtx requested.nCtx
          nParallel := min window.totalSlots (max requested.nParallel 1) }

/-- A model in a running engine. -/
structure Running where
  instanceId : Nat
  path : String
  effective : RuntimeParams

structure ProcessBackend where
  running : Option Running
  /-- Slots the resident engine was given, and 1 when nothing is resident. -/
  slots : UInt32

def ProcessBackend.new : ProcessBackend := ⟨none, 1⟩

def ProcessBackend.maxConcurrentRequests (backend : ProcessBackend) : UInt32 := backend.slots

inductive LoadError where
  | refused (error : BackendError)
  | cancelled
  /-- What installing the engine, starting it or making a client for it reports. -/
  | outside (detail : String)
deriving DecidableEq

/-- What the steps of a load that leave the backend come to. -/
structure Outside where
  lockedMemoryLimit : Option UInt64
  defaultThreads : UInt32
  /-- The engine is installed, or is now. -/
  ensure : Except LoadError Unit
  cancelled : Bool
  serverPath : Except LoadError Unit
  start : Except LoadError Unit
  client : Except LoadError Unit
  /-- The engine's own `/props`, none if it could not be asked. -/
  props : Option Value
  instanceId : Nat

def admitted (request : LoadRequest) (outside : Outside) : Except LoadError Unit :=
  (admitRequest outside.lockedMemoryLimit request).mapError .refused

/-- The parameters that the engine of a request runs with. -/
def effective (request : LoadRequest) (outside : Outside) : RuntimeParams :=
  let threads := request.runtime.threads.getD outside.defaultThreads
  reconciled { request.runtime with threads := some threads } outside.props

/-- Takes the place of the resident engine. What was resident is shut down first, so that no two
models are in memory. -/
def load (request : LoadRequest) (outside : Outside) :
    EStateM LoadError ProcessBackend RuntimeParams := do
  propagate (admitted request outside)
  propagate outside.ensure
  refuseIf (outside.cancelled = true) .cancelled
  modify fun backend => { backend with running := none }
  propagate outside.serverPath
  propagate outside.start
  propagate outside.client
  let effective := effective request outside
  modify fun backend => { backend with slots := max effective.nParallel 1 }
  modify fun backend =>
    { backend with running := some ⟨outside.instanceId, request.ggufPath, effective⟩ }
  pure effective

namespace ProcessBackend

def unload (backend : ProcessBackend) (instanceId : Nat) : ProcessBackend :=
  match backend.running with
  | none => backend
  | some state =>
      if state.instanceId ≠ instanceId then backend else { running := none, slots := 1 }

/-- A poll, with whether the engine has exited. -/
def health (backend : ProcessBackend) (exited : Bool) : ProcessBackend :=
  match backend.running with
  | none => backend
  | some _ => if exited then { backend with running := none } else backend

def shutdown (backend : ProcessBackend) : ProcessBackend :=
  match backend.running with
  | none => backend
  | some _ => { running := none, slots := 1 }

end ProcessBackend

inductive Call where
  | load (request : LoadRequest) (outside : Outside)
  | unload (instanceId : Nat)
  | health (exited : Bool)
  | shutdown

/-- The backend behind one call, also where it fails. -/
def called (backend : ProcessBackend) : Call → ProcessBackend
  | .load request outside => finalOf (load request outside backend)
  | .unload instanceId => backend.unload instanceId
  | .health exited => backend.health exited
  | .shutdown => backend.shutdown

def step (backend : ProcessBackend) (call : Call) : Option ProcessBackend := some (called backend call)

/-- The reported slots are those of the engine that is resident, and 1 when none is. -/
def Describes (backend : ProcessBackend) : Prop :=
  backend.maxConcurrentRequests =
    match backend.running with
    | some state => max state.effective.nParallel 1
    | none => 1

/-- A load that fails when the engine before it is gone already. -/
def FailsLate (request : LoadRequest) (outside : Outside) : Prop :=
  admitted request outside = .ok () ∧ outside.ensure = .ok () ∧ outside.cancelled = false ∧
    ¬(outside.serverPath = .ok () ∧ outside.start = .ok () ∧ outside.client = .ok ())

/-- Nothing is resident, or an engine with one slot. -/
def OneSlot (backend : ProcessBackend) : Prop :=
  ∀ state, backend.running = some state → max state.effective.nParallel 1 = 1

/-- An engine is lost, to a load that fails late or to a poll that finds it dead, only where it had
one slot. -/
def LosesOneSlot (backend : ProcessBackend) : Call → Prop
  | .load request outside => FailsLate request outside → OneSlot backend
  | .health true => OneSlot backend
  | _ => True

/-- What a load does to the backend: nothing, or it takes the engine away, or it puts one in. -/
theorem load_cases (request : LoadRequest) (outside : Outside) (backend : ProcessBackend) :
    (¬FailsLate request outside ∧ called backend (.load request outside) = backend) ∨
    (FailsLate request outside ∧
      called backend (.load request outside) = { backend with running := none }) ∨
    (¬FailsLate request outside ∧ called backend (.load request outside) =
      ⟨some ⟨outside.instanceId, request.ggufPath, effective request outside⟩,
        max (effective request outside).nParallel 1⟩) := by
  obtain ⟨limit, threads, ensure, cancelled, serverPath, start, client, props, instanceId⟩ := outside
  simp only [called]
  cases passed : admitted request
      ⟨limit, threads, ensure, cancelled, serverPath, start, client, props, instanceId⟩ with
  | error error =>
      left
      refine ⟨fun late => ?_, ?_⟩
      · cases passed.symm.trans late.1
      · simp only [load, passed]
        rfl
  | ok _ =>
      simp only [load, passed]
      cases ensure with
      | error error => exact .inl ⟨fun late => (nomatch late.2.1), rfl⟩
      | ok _ =>
          cases cancelled with
          | true => exact .inl ⟨fun late => (nomatch late.2.2.1), rfl⟩
          | false =>
              cases serverPath with
              | error error => exact .inr (.inl ⟨⟨passed, rfl, rfl, fun all => nomatch all.1⟩, rfl⟩)
              | ok _ =>
                  cases start with
                  | error error =>
                      exact .inr (.inl ⟨⟨passed, rfl, rfl, fun all => nomatch all.2.1⟩, rfl⟩)
                  | ok _ =>
                      cases client with
                      | error error =>
                          exact .inr (.inl ⟨⟨passed, rfl, rfl, fun all => nomatch all.2.2⟩, rfl⟩)
                      | ok _ => exact .inr (.inr ⟨fun late => late.2.2.2 ⟨rfl, rfl, rfl⟩, rfl⟩)

theorem describes_idle : Describes ⟨none, 1⟩ := by
  simp only [Describes, ProcessBackend.maxConcurrentRequests]

theorem describes_loaded (state : Running) :
    Describes ⟨some state, max state.effective.nParallel 1⟩ := by
  simp only [Describes, ProcessBackend.maxConcurrentRequests]

/-- An engine that goes without its slots being set back leaves them right only where it had one. -/
theorem describes_lost_iff {backend : ProcessBackend} (describes : Describes backend) :
    Describes { backend with running := none } ↔ OneSlot backend := by
  obtain ⟨running, slots⟩ := backend
  change slots = 1 ↔ ∀ state, running = some state → max state.effective.nParallel 1 = 1
  cases running with
  | none =>
      have alone : slots = 1 := describes
      refine iff_of_true alone ?_
      intro state found
      cases found
  | some state =>
      have given : slots = max state.effective.nParallel 1 := describes
      rw [given]
      constructor
      · intro one other found
        rw [← Option.some.inj found]
        exact one
      · exact fun one => one state rfl

/-- One call: what is reported stays right exactly when no engine of several slots is lost to it. -/
theorem describes_called_iff {backend : ProcessBackend} (describes : Describes backend) (call : Call) :
    Describes (called backend call) ↔ LosesOneSlot backend call := by
  cases call with
  | load request outside =>
      rcases load_cases request outside backend with ⟨early, same⟩ | ⟨late, lost⟩ | ⟨early, loaded⟩
      · rw [same]
        exact iff_of_true describes fun late => absurd late early
      · rw [lost, describes_lost_iff describes]
        exact ⟨fun one _ => one, fun one => one late⟩
      · rw [loaded]
        exact iff_of_true (describes_loaded _) fun late => absurd late early
  | unload instanceId =>
      refine iff_of_true ?_ trivial
      change Describes (backend.unload instanceId)
      unfold ProcessBackend.unload
      split
      · exact describes
      · split
        · exact describes
        · exact describes_idle
  | health exited =>
      obtain ⟨running, slots⟩ := backend
      cases exited with
      | false =>
          refine iff_of_true ?_ trivial
          cases running <;> exact describes
      | true =>
          cases running with
          | none =>
              refine iff_of_true describes ?_
              intro state found
              cases found
          | some state => exact describes_lost_iff describes
  | shutdown =>
      refine iff_of_true ?_ trivial
      change Describes backend.shutdown
      unfold ProcessBackend.shutdown
      split
      · exact describes
      · exact describes_idle

/-- In every run in which no engine of several slots is lost to a failed load or to a poll, the slots
describe the engine behind every call; and the first call that loses one breaks it. -/
theorem slots_describe_running (backend : ProcessBackend)
    (reached : Transition.Reaches step LosesOneSlot ProcessBackend.new backend) :
    Describes backend ∧
      ∀ call, Describes (called backend call) ↔ LosesOneSlot backend call := by
  have describes : Describes backend := by
    refine reached.invariant Describes describes_idle ?_
    rintro before call after loses describes ⟨⟩
    exact (describes_called_iff describes call).mpr loses
  exact ⟨describes, describes_called_iff describes⟩

/-- A load of a model that the engine takes, with so many slots, whose start comes to this. -/
def roomyLoad (slots : UInt32) (start : Except LoadError Unit) : Call :=
  .load ⟨"model.gguf", true,
      ⟨"llama", true, none, none, none, none, none, none, none, none, none, "Q4_K", none⟩,
      { RuntimeParams.default with nParallel := slots }⟩
    ⟨none, 4, .ok (), false, .ok (), start, .ok (), none, 1⟩

/-- An engine of four slots is reported as such. -/
theorem four_slots_reported :
    (called .new (roomyLoad 4 (.ok ()))).maxConcurrentRequests = 4 ∧
      Describes (called .new (roomyLoad 4 (.ok ()))) := by
  refine ⟨by decide +kernel, ?_⟩
  have reached : Transition.Reaches step LosesOneSlot .new (called .new (roomyLoad 4 (.ok ()))) := by
    refine Transition.Reaches.start.act (roomyLoad 4 (.ok ())) ?_ rfl
    intro _ state found
    cases found
  exact (slots_describe_running _ reached).1

/-- The backend when an engine of four slots has been lost to a call. -/
def fourSlotsLost (lost : Call) : ProcessBackend := called (called .new (roomyLoad 4 (.ok ()))) lost

/-- A run leads here; no engine is running, and four slots are reported. -/
structure Overstated (backend : ProcessBackend) : Prop where
  reached : Transition.Reaches step Transition.Always .new backend
  gone : backend.running.isNone = true
  reported : backend.maxConcurrentRequests = 4
  undescribed : ¬Describes backend

theorem overstated_of_lost {lost : Call} (gone : (fourSlotsLost lost).running.isNone = true)
    (reported : (fourSlotsLost lost).maxConcurrentRequests = 4) : Overstated (fourSlotsLost lost) where
  reached := (Transition.Reaches.start.act (roomyLoad 4 (.ok ())) trivial rfl).act lost trivial rfl
  gone := gone
  reported := reported
  undescribed describes := by
    rw [Describes, reported, Option.isNone_iff_eq_none.mp gone] at describes
    exact absurd describes (by decide)

/-- When an engine of four slots is found dead, or goes to make room for one that does not start,
four slots are still reported and none is running. -/
theorem lost_engine_keeps_its_slots :
    Overstated (fourSlotsLost (.health true)) ∧
      Overstated (fourSlotsLost
        (roomyLoad 2 (.error (.outside "the engine stopped unexpectedly")))) := by
  refine ⟨overstated_of_lost ?_ ?_, overstated_of_lost ?_ ?_⟩ <;> decide +kernel

end Lightweight.Backend.Process
