import Lightweight.Gateway.SchedulerPause

/-! Loading and unloading a model on a running gateway (`lightweight-gateway/src/manager.rs`), split
at their await points, over the scheduler they pause. A call whose future is dropped at an await
point returns from there, as one that fails does. -/

namespace Lightweight.Gateway

open Transition

/-- Where a call of `load_model` that holds the operation lock stands. `limited` has set the
ceilings of the engine that now runs, `sizing` has stored its slot count and not taken the queue
lock; `returning` has dropped its guard and not the operation lock. -/
inductive LoadStage where
  | preparing
  | draining
  | loading
  | limited
  | sizing (capacity : Nat)
  | settling
  | settled
  | returning
  deriving DecidableEq, Repr

/-- Where a call of `unload_model` that holds a guard stands. -/
inductive UnloadStage where
  | draining
  | unloading
  | settling
  | settled
  deriving DecidableEq, Repr

/-- `operation` is `ModelManager::operation`; `resident` whether the catalog names a resident. -/
structure Manager where
  world : World
  operation : Bool
  load : Option LoadStage
  unloads : List UnloadStage
  resident : Bool
  deriving DecidableEq, Repr

def Manager.new (capacity : Nat) (config : SchedulerConfig) (clock : Nat) (resident : Bool) :
    Manager :=
  ⟨.new capacity config clock, false, none, [], resident⟩

inductive ManagerAction where
  | request (action : Action)
  | loadBegin
  | loadRefuse
  | loadPause
  | loadDrained
  | loadLimits (nCtx : Nat)
  | loadSize (capacity : Nat)
  | loadLock
  | loadResident
  | loadReturn
  | loadUnlock
  | unloadPause
  | unloadDrained (call : Nat)
  | unloadEngine (call : Nat)
  | unloadResident (call : Nat)
  | unloadReturn (call : Nat)
  deriving DecidableEq, Repr

/-- What a request can do to the scheduler: everything but pausing it and sizing it. -/
def Action.ofRequest : Action → Bool
  | .storeCapacity _ | .lockCapacity _ | .setBandLimits _ | .pause | .dropGuard => false
  | _ => true

/-- Run one scheduler step and put its result in place. -/
def Manager.stepWorld (m : Manager) (action : Action) : Option Manager :=
  (step m.world action).map fun world => { m with world }

/-- The await points of `load_model` behind which it returns with a guard in hand: the drain timed
out, the engine did not start, the call was dropped, or the model is loaded. -/
def LoadStage.returns : LoadStage → Bool
  | .draining | .loading | .settling | .settled => true
  | _ => false

def managerStep (m : Manager) : ManagerAction → Option Manager
  | .request action => if action.ofRequest then m.stepWorld action else none
  -- `try_lock` answers `Busy` while another load holds the lock
  | .loadBegin =>
      if m.operation then some m
      else some { m with operation := true, load := some .preparing }
  | .loadRefuse =>
      if m.load = some .preparing then some { m with operation := false, load := none } else none
  | .loadPause =>
      if m.load = some .preparing then
        ({ m with load := some .draining } : Manager).stepWorld .pause
      else none
  | .loadDrained =>
      if m.load = some .draining ∧ m.world.running = [] then some { m with load := some .loading }
      else none
  | .loadLimits nCtx =>
      if m.load = some .loading then
        ({ m with load := some .limited } : Manager).stepWorld (.setBandLimits (.forContext nCtx))
      else none
  | .loadSize capacity =>
      if m.load = some .limited then
        ({ m with load := some (.sizing (max capacity 1)) } : Manager).stepWorld
          (.storeCapacity capacity)
      else none
  | .loadLock =>
      match m.load with
      | some (.sizing capacity) =>
          ({ m with load := some .settling } : Manager).stepWorld (.lockCapacity capacity)
      | _ => none
  | .loadResident =>
      if m.load = some .settling then some { m with load := some .settled, resident := true }
      else none
  | .loadReturn =>
      if m.load.any LoadStage.returns then
        ({ m with load := some .returning } : Manager).stepWorld .dropGuard
      else none
  | .loadUnlock =>
      if m.load = some .returning ∧ m.world.holder = none then
        some { m with operation := false, load := none }
      else none
  -- `unload_model` asks the catalog and pauses; it never looks at the operation lock
  | .unloadPause =>
      if m.resident then
        ({ m with unloads := .draining :: m.unloads } : Manager).stepWorld .pause
      else none
  | .unloadDrained call =>
      if m.unloads[call]? = some .draining ∧ m.world.running = [] then
        some { m with unloads := m.unloads.set call .unloading }
      else none
  | .unloadEngine call =>
      if m.unloads[call]? = some .unloading then
        some { m with unloads := m.unloads.set call .settling }
      else none
  | .unloadResident call =>
      if m.unloads[call]? = some .settling then
        some { m with unloads := m.unloads.set call .settled, resident := false }
      else none
  | .unloadReturn call =>
      if call < m.unloads.length then
        ({ m with unloads := m.unloads.eraseIdx call } : Manager).stepWorld .dropGuard
      else none

/-- A call returns only when the guard it drops is the last one. -/
def LoneOperation (m : Manager) : ManagerAction → Prop
  | .loadReturn => m.world.guards ≤ 1
  | .unloadReturn _ => m.world.guards ≤ 1
  | _ => True

instance (m : Manager) : (action : ManagerAction) → Decidable (LoneOperation m action)
  | .loadReturn | .unloadReturn _ => inferInstanceAs (Decidable (_ ≤ _))
  | .request _ | .loadBegin | .loadRefuse | .loadPause | .loadDrained | .loadLimits _
  | .loadSize _ | .loadLock | .loadResident | .loadUnlock | .unloadPause | .unloadDrained _
  | .unloadEngine _ | .unloadResident _ => isTrue trivial

theorem stepWorld_eq_some {m n : Manager} {w : World} {action : Action}
    (stepped : m.stepWorld action = some n) (here : m.world = w) :
    step w action = some n.world := by
  obtain ⟨world, next, rfl⟩ := Option.map_eq_some_iff.mp stepped
  exact here ▸ next

/-- The manager reaches the scheduler only through its own steps, and drops a guard only where a
call returns. -/
theorem managerStep_world {m n : Manager} {action : ManagerAction}
    (stepped : managerStep m action = some n) :
    n.world = m.world ∨ ∃ inner, step m.world inner = some n.world ∧
      (LoneOperation m action → LoneGuard m.world inner) := by
  cases action with
  | request action =>
      simp only [managerStep, Option.ite_none_right_eq_some] at stepped
      refine .inr ⟨action, stepWorld_eq_some stepped.2 rfl, fun _ => ?_⟩
      cases action with
      | dropGuard => exact absurd stepped.1 (by simp [Action.ofRequest])
      | _ => trivial
  | loadBegin =>
      simp only [managerStep] at stepped
      split at stepped
      · cases stepped
        exact .inl rfl
      · cases stepped
        exact .inl rfl
  | loadRefuse =>
      simp only [managerStep, Option.ite_none_right_eq_some] at stepped
      cases stepped.2
      exact .inl rfl
  | loadPause =>
      simp only [managerStep, Option.ite_none_right_eq_some] at stepped
      exact .inr ⟨.pause, stepWorld_eq_some stepped.2 rfl, fun _ => trivial⟩
  | loadDrained =>
      simp only [managerStep, Option.ite_none_right_eq_some] at stepped
      cases stepped.2
      exact .inl rfl
  | loadLimits nCtx =>
      simp only [managerStep, Option.ite_none_right_eq_some] at stepped
      exact .inr ⟨.setBandLimits (.forContext nCtx), stepWorld_eq_some stepped.2 rfl, fun _ => trivial⟩
  | loadSize capacity =>
      simp only [managerStep, Option.ite_none_right_eq_some] at stepped
      exact .inr ⟨.storeCapacity capacity, stepWorld_eq_some stepped.2 rfl, fun _ => trivial⟩
  | loadLock =>
      simp only [managerStep] at stepped
      split at stepped
      · rename_i capacity _
        exact .inr ⟨.lockCapacity capacity, stepWorld_eq_some stepped rfl, fun _ => trivial⟩
      · cases stepped
  | loadResident =>
      simp only [managerStep, Option.ite_none_right_eq_some] at stepped
      cases stepped.2
      exact .inl rfl
  | loadReturn =>
      simp only [managerStep, Option.ite_none_right_eq_some] at stepped
      exact .inr ⟨.dropGuard, stepWorld_eq_some stepped.2 rfl, fun lone => lone⟩
  | loadUnlock =>
      simp only [managerStep, Option.ite_none_right_eq_some] at stepped
      cases stepped.2
      exact .inl rfl
  | unloadPause =>
      simp only [managerStep, Option.ite_none_right_eq_some] at stepped
      exact .inr ⟨.pause, stepWorld_eq_some stepped.2 rfl, fun _ => trivial⟩
  | unloadDrained call =>
      simp only [managerStep, Option.ite_none_right_eq_some] at stepped
      cases stepped.2
      exact .inl rfl
  | unloadEngine call =>
      simp only [managerStep, Option.ite_none_right_eq_some] at stepped
      cases stepped.2
      exact .inl rfl
  | unloadResident call =>
      simp only [managerStep, Option.ite_none_right_eq_some] at stepped
      cases stepped.2
      exact .inl rfl
  | unloadReturn call =>
      simp only [managerStep, Option.ite_none_right_eq_some] at stepped
      exact .inr ⟨.dropGuard, stepWorld_eq_some stepped.2 rfl, fun lone => lone⟩

/-- A run of the manager is, on the scheduler, a run of the scheduler. -/
theorem reached_world {m n : Manager} (reached : Reaches managerStep LoneOperation m n) :
    Reaches step LoneGuard m.world n.world := by
  induction reached with
  | start => exact .start
  | next _ lone stepped ih =>
      rcases managerStep_world stepped with same | ⟨inner, next, kept⟩
      · rw [same]
        exact ih
      · exact .next ih (kept lone) next

/-- While a load or an unload holds a guard nothing is admitted and nothing is handed a slot, in
every run in which no call returns while another one holds a guard. -/
theorem nothing_starts_under_guard {capacity clock : Nat} {config : SchedulerConfig}
    {resident : Bool} {m n : Manager} {action : ManagerAction}
    (reached : Reaches managerStep LoneOperation (Manager.new capacity config clock resident) m)
    (stepped : managerStep m action = some n) (given : GivesSlot m.world n.world) :
    m.world.guards = 0 := by
  have under := reached_world reached
  rcases managerStep_world stepped with same | ⟨inner, next, -⟩
  · rw [same] at given
    exact absurd given (lt_irrefl _)
  · exact guarded_gives_nothing under next given

/-- A load and an unload overlap: the unload returns first, and its guard lifts the pause the load
still holds. The next request is admitted while the load's guard is alive. -/
theorem overlapping_guards_start_a_request :
    ¬ ∀ (capacity clock : Nat) (config : SchedulerConfig) (resident : Bool) (m n : Manager)
      (action : ManagerAction),
      Reaches managerStep Always (Manager.new capacity config clock resident) m →
        managerStep m action = some n → GivesSlot m.world n.world → m.world.guards = 0 := by
  intro excluded
  have ran : (run managerStep (Manager.new 1 .default 0 true)
      [.loadBegin, .loadPause, .loadDrained, .unloadPause, .unloadReturn 0, .request .turn]).any
        (fun m => (managerStep m (.request (.admitOrEnqueue .bulk ⟨none⟩))).any fun n =>
          decide (GivesSlot m.world n.world ∧ m.world.guards ≠ 0)) = true := by decide
  obtain ⟨m, ran, stepped⟩ := (Option.any_eq_true _ _).mp ran
  obtain ⟨n, stepped, given⟩ := (Option.any_eq_true _ _).mp stepped
  obtain ⟨given, alive⟩ := of_decide_eq_true given
  exact alive (excluded 1 0 .default true m n _ (run_reaches ran) stepped given)

/-- A load that has come and gone alone: what waited for it is handed its slot with no guard left. -/
theorem nothing_starts_under_guard_after_load :
    ∃ m n, managerStep m (.request .turn) = some n ∧ GivesSlot m.world n.world ∧
      m.world.guards = 0 := by
  have ran : (runMeeting managerStep LoneOperation (Manager.new 1 .default 0 false)
      [.loadBegin, .loadPause, .request (.admitOrEnqueue .bulk ⟨none⟩), .loadReturn]).any
        (fun m => (managerStep m (.request .turn)).any fun n =>
          decide (GivesSlot m.world n.world)) = true := by decide
  obtain ⟨m, ran, stepped⟩ := (Option.any_eq_true _ _).mp ran
  obtain ⟨n, stepped, given⟩ := (Option.any_eq_true _ _).mp stepped
  have given := of_decide_eq_true given
  exact ⟨m, n, stepped, given, nothing_starts_under_guard (runMeeting_reaches ran) stepped given⟩

end Lightweight.Gateway
