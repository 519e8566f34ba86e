import Mathlib.Data.List.Basic
import Lightweight.Transition

/-! What the gateway says is loaded and what the engine runs (`load_model` and `unload_model` of
`lightweight-gateway/src/manager.rs`, `ProcessBackend::load` and `unload` of
`lightweight-backend-llamacpp/src/backend.rs`), split at their await points. The scheduler a call
pauses and drains holds back no other call: here a drain ends, or times out, at any time. -/

namespace Lightweight.Gateway

open Transition

/-- An engine that was started, told by its `InstanceId`: each start draws another one. -/
abbrev InstanceId := Nat

/-- Where a call of `load_model` that holds the operation lock stands. `acquiring` is inside
`ProcessBackend::load` before the old engine is taken, `stopping` holds the lock on `running` while
that engine shuts down, `starting` waits for the new one, `started` for the lock to store it;
`publishing` has it stored and not recorded. -/
inductive LoadPoint where
  | draining
  | acquiring
  | stopping
  | starting
  | started (engine : InstanceId)
  | publishing (engine : InstanceId)
  | published
  deriving DecidableEq, Repr

/-- Where a call of `unload_model` stands that found the record of `engine`; `stopping` holds the
lock on `running` while the engine shuts down. -/
inductive UnloadPoint where
  | draining (engine : InstanceId)
  | unloading (engine : InstanceId)
  | stopping
  | clearing
  deriving DecidableEq, Repr

/-- `running` is the backend's engine, `locked` its lock; `resident` the catalog's record. -/
structure Residency where
  running : Option InstanceId
  locked : Bool
  resident : Option InstanceId
  issued : Nat
  load : Option LoadPoint
  unloads : List UnloadPoint
  deriving DecidableEq, Repr

/-- A gateway started without a model, or with one. -/
def Residency.start (loaded : Bool) : Residency :=
  let engine := if loaded then some 0 else none
  ⟨engine, false, engine, 0, none, []⟩

inductive ResidencyAction where
  | loadBegin
  | loadDrained
  | loadStop
  | loadStopped
  | loadStarted
  | loadStore
  | loadPublish
  | loadReturn
  | loadFail
  | unloadBegin
  | unloadDrained (call : Nat)
  | unloadStop (call : Nat)
  | unloadStopped (call : Nat)
  | unloadClear (call : Nat)
  | unloadFail (call : Nat)
  deriving DecidableEq, Repr

/-- Where `load_model` can return an error: the drain times out, the model is not admitted or the
runtime not acquired, or the engine does not start. -/
def LoadPoint.fails : LoadPoint → Bool
  | .draining | .acquiring | .starting => true
  | _ => false

def residencyStep (s : Residency) : ResidencyAction → Option Residency
  -- a second load is refused as `Busy`
  | .loadBegin =>
      if s.load.isSome then some s else some { s with load := some .draining }
  | .loadDrained =>
      if s.load = some .draining then some { s with load := some .acquiring } else none
  | .loadStop =>
      if s.load = some .acquiring ∧ s.locked = false then
        match s.running with
        | some _ => some { s with running := none, locked := true, load := some .stopping }
        | none => some { s with load := some .starting }
      else none
  | .loadStopped =>
      if s.load = some .stopping then some { s with locked := false, load := some .starting }
      else none
  | .loadStarted =>
      if s.load = some .starting then
        some { s with issued := s.issued + 1, load := some (.started (s.issued + 1)) }
      else none
  | .loadStore =>
      match s.load, s.locked with
      | some (.started engine), false =>
          some { s with running := some engine, load := some (.publishing engine) }
      | _, _ => none
  | .loadPublish =>
      match s.load with
      | some (.publishing engine) =>
          some { s with resident := some engine, load := some .published }
      | _ => none
  | .loadReturn => if s.load = some .published then some { s with load := none } else none
  | .loadFail => if s.load.any LoadPoint.fails then some { s with load := none } else none
  -- unloading nothing succeeds at once
  | .unloadBegin =>
      match s.resident with
      | some engine => some { s with unloads := .draining engine :: s.unloads }
      | none => some s
  | .unloadDrained call =>
      match s.unloads[call]? with
      | some (.draining engine) => some { s with unloads := s.unloads.set call (.unloading engine) }
      | _ => none
  -- another instance, or none, is left as it is
  | .unloadStop call =>
      match s.unloads[call]?, s.locked with
      | some (.unloading engine), false =>
          if s.running = some engine then
            some { s with running := none, locked := true, unloads := s.unloads.set call .stopping }
          else some { s with unloads := s.unloads.set call .clearing }
      | _, _ => none
  | .unloadStopped call =>
      if s.unloads[call]? = some .stopping then
        some { s with locked := false, unloads := s.unloads.set call .clearing }
      else none
  | .unloadClear call =>
      if s.unloads[call]? = some .clearing then
        some { s with resident := none, unloads := s.unloads.eraseIdx call }
      else none
  | .unloadFail call =>
      match s.unloads[call]? with
      | some (.draining _) => some { s with unloads := s.unloads.eraseIdx call }
      | _ => none

/-- No load or unload is in progress. -/
def Residency.Idle (s : Residency) : Prop := s.load = none ∧ s.unloads = []

instance (s : Residency) : Decidable s.Idle := inferInstanceAs (Decidable (_ ∧ _))

/-- Past its drain an unload will clear the record. -/
def UnloadPoint.clears : UnloadPoint → Bool
  | .draining _ => false
  | _ => true

/-- With its engine stored a load will record it. -/
def LoadPoint.records : LoadPoint → Bool
  | .publishing _ => true
  | _ => false

/-- A load fails after the old engine was taken only where the record is empty or about to be
cleared, and a record is cleared only where no engine runs or its load is about to record it. -/
def KeepsRecord (s : Residency) : ResidencyAction → Prop
  | .loadFail => s.load = some .starting →
      s.resident = none ∨ s.unloads.any UnloadPoint.clears = true
  | .unloadClear _ => s.running = none ∨ s.load.any LoadPoint.records = true
  | _ => True

/-! ### What every step keeps -/

/-- The engine whose record an unload found. -/
def UnloadPoint.engine : UnloadPoint → Option InstanceId
  | .draining engine | .unloading engine => some engine
  | .stopping | .clearing => none

namespace Residency

/-- The record and the engine agree, or the engine is gone and an unload will clear the record. -/
def Settled (s : Residency) : Prop :=
  s.resident = s.running ∨ s.running = none ∧ s.unloads.any UnloadPoint.clears = true

/-- An engine no record and no unload knows of. -/
structure Unseen (s : Residency) (engine : InstanceId) : Prop where
  issued : engine ≤ s.issued
  record : s.resident ≠ some engine
  unloads : ∀ unload ∈ s.unloads, unload.engine ≠ some engine

/-- What holds while a load stands at a point, or while none is under way. -/
def Holds (s : Residency) : Option LoadPoint → Prop
  | some .stopping | some .starting => s.running = none
  | some (.started engine) => s.running = none ∧ s.Unseen engine
  | some (.publishing engine) => s.running = some engine ∧ s.Unseen engine
  | _ => s.Settled

structure Consistent (s : Residency) : Prop where
  record : ∀ engine ∈ s.resident, engine ≤ s.issued
  unloads : ∀ unload ∈ s.unloads, ∀ engine ∈ unload.engine, engine ≤ s.issued
  point : s.Holds s.load

theorem start_consistent (loaded : Bool) : (start loaded).Consistent := by
  cases loaded with
  | false => exact ⟨by simp [start], by simp [start], Or.inl rfl⟩
  | true => exact ⟨by simp [start], by simp [start], Or.inl rfl⟩

variable {s : Residency}

/-- Moving an unload on, past its drain. -/
theorem any_clears_set {call : Nat} {before after : UnloadPoint}
    (here : s.unloads[call]? = some before) (clears : after.clears = true) :
    (s.unloads.set call after).any UnloadPoint.clears = true := by
  have bound := (List.getElem?_eq_some_iff.mp here).1
  exact List.any_eq_true.mpr ⟨after, List.mem_set bound after, clears⟩

/-- A property of every unload is kept by moving one on, if its new place has it. -/
theorem forall_set {property : UnloadPoint → Prop} {call : Nat} {after : UnloadPoint}
    (every : ∀ unload ∈ s.unloads, property unload) (here : property after) :
    ∀ unload ∈ s.unloads.set call after, property unload := by
  intro unload member
  rcases List.mem_or_eq_of_mem_set member with old | rfl
  · exact every unload old
  · exact here

theorem forall_eraseIdx {property : UnloadPoint → Prop}
    (every : ∀ unload ∈ s.unloads, property unload) (call : Nat) :
    ∀ unload ∈ s.unloads.eraseIdx call, property unload := fun unload member =>
  every unload (List.mem_of_mem_eraseIdx member)

/-- A change that leaves the engine alone, undoes no agreement and shows no load's engine to anyone
keeps what holds at every point of a load. -/
theorem Holds.transport {t : Residency} {point : Option LoadPoint} (holds : s.Holds point)
    (running : t.running = s.running) (settled : s.Settled → t.Settled)
    (unseen : ∀ engine, s.Unseen engine → t.Unseen engine) : t.Holds point := by
  cases point with
  | none => exact settled holds
  | some point =>
      cases point with
      | draining => exact settled holds
      | acquiring => exact settled holds
      | stopping => exact running.trans holds
      | starting => exact running.trans holds
      | started engine => exact ⟨running.trans holds.1, unseen engine holds.2⟩
      | publishing engine => exact ⟨running.trans holds.1, unseen engine holds.2⟩
      | published => exact settled holds

/-- An unload that moves on knows no engine it did not know. -/
theorem Holds.move {point : Option LoadPoint} {call : Nat} {before : UnloadPoint}
    (holds : s.Holds point) (here : s.unloads[call]? = some before) (after : UnloadPoint)
    (clears : after.clears = true)
    (known : after.engine = before.engine ∨ after.engine = none) (locked : Bool) :
    ({ s with locked, unloads := s.unloads.set call after } : Residency).Holds point := by
  refine holds.transport rfl ?_ ?_
  · rintro (agree | ⟨gone, _⟩)
    · exact Or.inl agree
    · exact Or.inr ⟨gone, any_clears_set here clears⟩
  · intro engine fresh
    refine ⟨fresh.issued, fresh.record, forall_set fresh.unloads ?_⟩
    rcases known with same | nothing
    · rw [same]
      exact fresh.unloads before (List.mem_of_getElem? here)
    · rw [nothing]
      exact (Option.some_ne_none engine).symm

/-- The engine an unload knows of is stopped by it, and is not one that a load is about to
record. -/
theorem Holds.stop {point : Option LoadPoint} {call : Nat} {engine : InstanceId}
    (holds : s.Holds point) (here : s.unloads[call]? = some (.unloading engine))
    (runs : s.running = some engine) :
    ({ s with running := none, locked := true, unloads := s.unloads.set call .stopping }
      : Residency).Holds point := by
  have settled : ({ s with running := none, locked := true, unloads := s.unloads.set call .stopping }
      : Residency).Settled := Or.inr ⟨rfl, any_clears_set here rfl⟩
  cases point with
  | none => exact settled
  | some point =>
      cases point with
      | draining => exact settled
      | acquiring => exact settled
      | stopping => rfl
      | starting => rfl
      | started fresh =>
          have gone : s.running = none := holds.1
          rw [runs] at gone
          cases gone
      | publishing fresh =>
          have stored : s.running = some fresh := holds.1
          have unseen := holds.2.unloads _ (List.mem_of_getElem? here)
          rw [runs] at stored
          exact absurd stored unseen
      | published => exact settled

theorem Holds.clear {point : Option LoadPoint} (holds : s.Holds point)
    (kept : s.running = none ∨ point.any LoadPoint.records = true) (call : Nat) :
    ({ s with resident := none, unloads := s.unloads.eraseIdx call } : Residency).Holds point := by
  have unseen : ∀ engine, s.Unseen engine →
      ({ s with resident := none, unloads := s.unloads.eraseIdx call } : Residency).Unseen engine :=
    fun _ fresh => ⟨fresh.issued, (Option.some_ne_none _).symm, forall_eraseIdx fresh.unloads call⟩
  rcases kept with gone | records
  · exact holds.transport rfl (fun _ => Or.inl gone.symm) unseen
  · rcases (Option.any_eq_true _ _).mp records with ⟨place, rfl, records⟩
    cases place with
    | publishing engine => exact ⟨holds.1, unseen engine holds.2⟩
    | _ => cases records

/-- A drain that times out takes away nothing that would clear the record. -/
theorem Holds.timeOut {point : Option LoadPoint} {call : Nat} {engine : InstanceId}
    (holds : s.Holds point) (here : s.unloads[call]? = some (.draining engine)) :
    ({ s with unloads := s.unloads.eraseIdx call } : Residency).Holds point := by
  refine holds.transport rfl ?_ ?_
  · rintro (agree | ⟨gone, pending⟩)
    · exact Or.inl agree
    · rcases List.any_eq_true.mp pending with ⟨unload, member, clears⟩
      refine Or.inr ⟨gone, List.any_eq_true.mpr ⟨unload, ?_, clears⟩⟩
      rcases List.mem_iff_getElem?.mp member with ⟨i, there⟩
      rw [List.mem_eraseIdx_iff_getElem?]
      refine ⟨i, ?_, there⟩
      rintro rfl
      rw [here] at there
      cases there
      cases clears
  · exact fun _ fresh => ⟨fresh.issued, fresh.record, forall_eraseIdx fresh.unloads call⟩

/-- An unload that begins knows of the engine the record names. -/
theorem Holds.begin {point : Option LoadPoint} {engine : InstanceId} (holds : s.Holds point)
    (named : s.resident = some engine) :
    ({ s with unloads := .draining engine :: s.unloads } : Residency).Holds point := by
  refine holds.transport rfl ?_ ?_
  · exact fun settled => settled
  · intro fresh new
    refine ⟨new.issued, new.record, ?_⟩
    intro unload member
    rcases List.mem_cons.mp member with rfl | old
    · exact fun same => new.record (named.trans same)
    · exact new.unloads unload old

/-- A load that moves on, to a point of which everything holds. -/
theorem Consistent.moveTo {point : Option LoadPoint} (consistent : s.Consistent)
    (holds : s.Holds point) : ({ s with load := point } : Residency).Consistent := by
  refine ⟨consistent.record, consistent.unloads, holds.transport rfl ?_ ?_⟩
  · exact fun settled => settled
  · exact fun _ fresh => ⟨fresh.issued, fresh.record, fresh.unloads⟩

/-- A new engine is known to no one but its load. -/
theorem Consistent.started (consistent : s.Consistent) (stopped : s.running = none) :
    ({ s with issued := s.issued + 1, load := some (.started (s.issued + 1)) }
      : Residency).Consistent := by
  have unseen : ({ s with issued := s.issued + 1, load := some (.started (s.issued + 1)) }
      : Residency).Unseen (s.issued + 1) := by
    refine ⟨Nat.le_refl _, ?_, ?_⟩
    · intro named
      exact Nat.not_succ_le_self _ (consistent.record _ named)
    · intro unload member known
      exact Nat.not_succ_le_self _ (consistent.unloads unload member _ known)
  refine ⟨?_, ?_, stopped, unseen⟩
  · intro engine named
    exact Nat.le_succ_of_le (consistent.record engine named)
  · intro unload member engine known
    exact Nat.le_succ_of_le (consistent.unloads unload member engine known)

/-- A load that fails leaves record and engine in agreement, or an unload to see to it. -/
theorem Consistent.settled_of_fails {place : LoadPoint} (consistent : s.Consistent)
    (kept : KeepsRecord s .loadFail) (here : s.load = some place) (fails : place.fails = true) :
    s.Settled := by
  have point := consistent.point
  rw [here] at point
  cases place with
  | draining => exact point
  | acquiring => exact point
  | starting =>
      have gone : s.running = none := point
      rcases kept here with empty | pending
      · exact Or.inl (empty.trans gone.symm)
      · exact Or.inr ⟨gone, pending⟩
  | stopping => cases fails
  | started engine => cases fails
  | publishing engine => cases fails
  | published => cases fails

/-- An unload that begins knows an engine that was issued. -/
theorem Consistent.began {engine : InstanceId} (consistent : s.Consistent)
    (named : s.resident = some engine) :
    ({ s with unloads := .draining engine :: s.unloads } : Residency).Consistent := by
  refine ⟨consistent.record, ?_, consistent.point.begin named⟩
  intro unload member
  rcases List.mem_cons.mp member with rfl | old
  · intro other same
    cases same
    exact consistent.record engine named
  · exact consistent.unloads unload old

theorem Consistent.step {t : Residency} {action : ResidencyAction} (consistent : s.Consistent)
    (kept : KeepsRecord s action) (stepped : residencyStep s action = some t) : t.Consistent := by
  have point := consistent.point
  cases action with
  | loadBegin =>
      simp only [residencyStep] at stepped
      split at stepped
      · cases stepped
        exact consistent
      · rename_i free
        cases stepped
        rw [Option.not_isSome_iff_eq_none.mp free] at point
        exact consistent.moveTo point
  | loadDrained =>
      simp only [residencyStep, Option.ite_none_right_eq_some] at stepped
      obtain ⟨here, rfl⟩ := stepped.imp_right Option.some.inj
      rw [here] at point
      exact consistent.moveTo point
  | loadStop =>
      simp only [residencyStep, Option.ite_none_right_eq_some] at stepped
      rcases stepped with ⟨_, stepped⟩
      split at stepped
      · cases stepped
        exact ⟨consistent.record, consistent.unloads, rfl⟩
      · rename_i gone
        cases stepped
        exact ⟨consistent.record, consistent.unloads, gone⟩
  | loadStopped =>
      simp only [residencyStep, Option.ite_none_right_eq_some] at stepped
      obtain ⟨here, rfl⟩ := stepped.imp_right Option.some.inj
      rw [here] at point
      exact ⟨consistent.record, consistent.unloads, point⟩
  | loadStarted =>
      simp only [residencyStep, Option.ite_none_right_eq_some] at stepped
      obtain ⟨here, rfl⟩ := stepped.imp_right Option.some.inj
      rw [here] at point
      exact consistent.started point
  | loadStore =>
      simp only [residencyStep] at stepped
      split at stepped
      · rename_i engine here _
        cases stepped
        rw [here] at point
        exact ⟨consistent.record, consistent.unloads, rfl, point.2.issued, point.2.record,
          point.2.unloads⟩
      · cases stepped
  | loadPublish =>
      simp only [residencyStep] at stepped
      split at stepped
      · rename_i engine here
        cases stepped
        rw [here] at point
        refine ⟨?_, consistent.unloads, Or.inl point.1.symm⟩
        intro other same
        cases same
        exact point.2.issued
      · cases stepped
  | loadReturn =>
      simp only [residencyStep, Option.ite_none_right_eq_some] at stepped
      obtain ⟨here, rfl⟩ := stepped.imp_right Option.some.inj
      rw [here] at point
      exact consistent.moveTo point
  | loadFail =>
      simp only [residencyStep, Option.ite_none_right_eq_some] at stepped
      obtain ⟨fails, rfl⟩ := stepped.imp_right Option.some.inj
      rcases (Option.any_eq_true _ _).mp fails with ⟨place, here, failing⟩
      have settled : s.Holds none := consistent.settled_of_fails kept here failing
      exact consistent.moveTo settled
  | unloadBegin =>
      simp only [residencyStep] at stepped
      split at stepped
      · rename_i engine named
        cases stepped
        exact consistent.began named
      · cases stepped
        exact consistent
  | unloadDrained call =>
      simp only [residencyStep] at stepped
      split at stepped
      · rename_i engine here
        cases stepped
        have known : ∀ other ∈ (UnloadPoint.unloading engine).engine, other ≤ s.issued :=
          consistent.unloads (.draining engine) (List.mem_of_getElem? here)
        have moved : ({ s with unloads := s.unloads.set call (.unloading engine) }
            : Residency).Holds s.load :=
          point.move here (.unloading engine) rfl (Or.inl rfl) s.locked
        exact ⟨consistent.record, forall_set consistent.unloads known, moved⟩
      · cases stepped
  | unloadStop call =>
      simp only [residencyStep] at stepped
      split at stepped
      · rename_i engine here free
        split at stepped
        · rename_i runs
          cases stepped
          exact ⟨consistent.record, forall_set consistent.unloads (by simp [UnloadPoint.engine]),
            point.stop here runs⟩
        · cases stepped
          exact ⟨consistent.record, forall_set consistent.unloads (by simp [UnloadPoint.engine]),
            point.move here .clearing rfl (Or.inr rfl) s.locked⟩
      · cases stepped
  | unloadStopped call =>
      simp only [residencyStep, Option.ite_none_right_eq_some] at stepped
      obtain ⟨here, rfl⟩ := stepped.imp_right Option.some.inj
      exact ⟨consistent.record, forall_set consistent.unloads (by simp [UnloadPoint.engine]),
        point.move here .clearing rfl (Or.inr rfl) false⟩
  | unloadClear call =>
      simp only [residencyStep, Option.ite_none_right_eq_some] at stepped
      obtain ⟨_, rfl⟩ := stepped.imp_right Option.some.inj
      exact ⟨by simp, forall_eraseIdx consistent.unloads call, point.clear kept call⟩
  | unloadFail call =>
      simp only [residencyStep] at stepped
      split at stepped
      · rename_i engine here
        cases stepped
        exact ⟨consistent.record, forall_eraseIdx consistent.unloads call, point.timeOut here⟩
      · cases stepped

end Residency

/-- In every run whose steps keep the record, whenever no load and no unload is in progress the
record names an engine just when one runs, and names that one. -/
theorem resident_agrees {loaded : Bool} {s : Residency}
    (reached : Reaches residencyStep KeepsRecord (Residency.start loaded) s) (idle : s.Idle) :
    s.resident = s.running := by
  have consistent : s.Consistent := by
    apply reached.invariant
    · exact Residency.start_consistent loaded
    · intro before action after kept holds stepped
      exact holds.step kept stepped
  have settled := consistent.point
  rw [idle.1] at settled
  rcases settled with agree | ⟨_, pending⟩
  · exact agree
  · rw [idle.2] at pending
    cases pending

/-- A load stops the engine and then does not start its own: the record of the stopped engine
stays. -/
theorem failed_load_leaves_record :
    ¬ ∀ (loaded : Bool) (s : Residency),
      Reaches residencyStep Always (Residency.start loaded) s → s.Idle → s.resident = s.running := by
  intro agrees
  have ran : run residencyStep (Residency.start true)
      [.loadBegin, .loadDrained, .loadStop, .loadStopped, .loadFail] =
        some ⟨none, false, some 0, 0, none, []⟩ := by decide
  have same := agrees true _ (run_reaches ran) (by decide)
  cases same

/-- An unload that read the old record clears the new one. -/
example : run residencyStep (Residency.start true)
    [.unloadBegin, .loadBegin, .loadDrained, .loadStop, .loadStopped, .loadStarted, .loadStore,
      .loadPublish, .loadReturn, .unloadDrained 0, .unloadStop 0, .unloadClear 0] =
    some ⟨some 1, false, none, 1, none, []⟩ := by decide

instance (s : Residency) : (action : ResidencyAction) → Decidable (KeepsRecord s action)
  | .loadFail => inferInstanceAs (Decidable (_ → _ ∨ _))
  | .unloadClear _ => inferInstanceAs (Decidable (_ ∨ _))
  | .loadBegin | .loadDrained | .loadStop | .loadStopped | .loadStarted | .loadStore | .loadPublish
  | .loadReturn | .unloadBegin | .unloadDrained _ | .unloadStop _ | .unloadStopped _
  | .unloadFail _ => isTrue trivial

/-- A swap that an unload of the old model overlaps: the unload is through before the new engine is
recorded. -/
theorem resident_agrees_overlapped_swap :
    ∃ s : Residency, Reaches residencyStep KeepsRecord (Residency.start true) s ∧ s.Idle ∧
      s.running = some 1 ∧ s.resident = some 1 := by
  have ran : runMeeting residencyStep KeepsRecord (Residency.start true)
      [.loadBegin, .unloadBegin, .loadDrained, .loadStop, .loadStopped, .unloadDrained 0,
        .unloadStop 0, .loadStarted, .unloadClear 0, .loadStore, .loadPublish, .loadReturn] =
      some ⟨some 1, false, some 1, 1, none, []⟩ := by decide +kernel
  have reached := runMeeting_reaches ran
  have idle : Residency.Idle ⟨some 1, false, some 1, 1, none, []⟩ := by decide
  exact ⟨_, reached, idle, rfl, resident_agrees reached idle⟩

end Lightweight.Gateway
