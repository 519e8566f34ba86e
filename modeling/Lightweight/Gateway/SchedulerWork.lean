import Lightweight.Gateway.SchedulerEffects

/-! A free slot never sits idle in front of a queue. Between operations the statement is about the
running count alone; while a call of `set_capacity` has stored a count it has not drained for yet,
the count it stored is still among the pending ones. -/

namespace Lightweight.Gateway

open Transition

/-- Requests arrive through `admit_or_enqueue` or `try_admit`. -/
def ArrivesAtDoor (_ : World) : Action → Prop
  | .enqueue _ _ => False
  | _ => True

instance (w : World) : (action : Action) → Decidable (ArrivesAtDoor w action)
  | .enqueue _ _ => isFalse id
  | .tick _ | .tryAdmit | .admitOrEnqueue _ _ | .storeCapacity _ | .lockCapacity _
  | .setBandLimits _ | .pause | .dropGuard | .turn | .dropPermit _ | .claim _ | .timedOut _
  | .dropTicket _ | .closeTicket _ | .describe _ _ _ _ | .inBand _ _ => isTrue trivial

def View.Busy (v : View) (spare : Nat) : Prop :=
  v.paused = false → v.waiting ≠ [] → v.capacity ∈ v.pending ∨ v.capacity ≤ v.busy + spare

/-- `resume` owes nothing until it stops, `release` owes the slot it freed, and `set_capacity` owes
the slots of its own count if that is still the current one. -/
def View.Working (v : View) : Prop :=
  match v.holder with
  | none => v.Busy 0
  | some (.setCapacity capacity) => capacity = v.capacity ∨ v.Busy 0
  | some .resume => True
  | some .release => v.Busy 1

theorem View.Busy.fewer {v : View} {spare busy : Nat} {rest : List Waiter} (working : v.Busy spare)
    (more : v.busy ≤ busy) (sub : ∀ x ∈ rest, x ∈ v.waiting) :
    View.Busy { v with busy, waiting := rest } spare := by
  intro running queue
  obtain ⟨x, member⟩ := List.exists_mem_of_ne_nil rest queue
  rcases working running (List.ne_nil_of_mem (sub x member)) with waits | full
  · exact .inl waits
  · right
    have bound : v.capacity ≤ v.busy + spare := full
    simp only
    omega

theorem locked_working {w : World} {capacity : Nat} (working : w.view.Busy 0) :
    View.Working { w.view with
      pending := w.pending.erase capacity
      holder := if w.paused then none else some (.setCapacity capacity) } := by
  by_cases paused : w.paused = true
  · simp only [View.Working, if_pos paused]
    intro running
    exact absurd (paused.symm.trans running) (by simp)
  · simp only [View.Working, if_neg paused]
    by_cases same : capacity = w.view.capacity
    · exact .inl same
    · right
      intro running queue
      rcases working running queue with waits | full
      · exact .inl ((List.mem_erase_of_ne (Ne.symm same)).mpr waits)
      · exact .inr full

theorem freed_working {w : World} (positive : 0 < w.view.busy) (working : w.view.Busy 0) :
    View.Working { w.view with
      busy := w.view.busy - 1, holder := if w.paused then none else some .release } := by
  by_cases paused : w.paused = true
  · simp only [View.Working, if_pos paused]
    intro running
    exact absurd (paused.symm.trans running) (by simp)
  · simp only [View.Working, if_neg paused]
    intro running queue
    rcases working running queue with waits | full
    · exact .inl waits
    · right
      simp only
      omega

theorem stopped_working {w : World} {holder : Holder} (working : w.view.Working)
    (holds : w.view.holder = some holder)
    (stopped : w.waiting = [] ∨ ¬ w.view.continues holder) :
    View.Working { w.view with holder := none } := by
  intro running queue
  have full := stopped.resolve_left queue
  cases holder with
  | setCapacity capacity =>
      have reached : capacity ≤ w.view.busy := by
        by_contra below
        refine full fun limit member => ?_
        cases Option.mem_some_iff.mp member
        omega
      simp only [View.Working, holds] at working
      rcases working with same | working
      · exact .inr (same ▸ reached)
      · exact working running queue
  | resume =>
      have reached : w.view.capacity ≤ w.view.busy := by
        by_contra below
        refine full fun limit member => ?_
        cases Option.mem_some_iff.mp member
        omega
      exact .inr reached
  | release =>
      refine absurd (fun limit member => ?_) full
      exact absurd member (by simp [View.limit])

theorem popped_working {w : World} {holder : Holder} {front back : List Waiter} {waiter : Waiter}
    (took : Bool) (working : w.view.Working) (holds : w.view.holder = some holder)
    (next : w.view.next front waiter back) :
    View.Working { w.view with
      busy := w.view.busy + took.toNat
      waiting := front ++ back
      holder := if took && holder == .release then none else some holder } := by
  have queue := (minByKey_spec next).1
  have sub : ∀ x ∈ front ++ back, x ∈ w.view.waiting := by
    intro x member
    rw [queue]
    rcases List.mem_append.mp member with member | member
    · exact List.mem_append_left _ member
    · exact List.mem_append_right _ (List.mem_cons_of_mem _ member)
  have more : w.view.busy ≤ w.view.busy + took.toNat := Nat.le_add_right _ _
  simp only [View.Working, holds] at working
  cases holder with
  | setCapacity capacity =>
      simp only [View.Working, reduceCtorEq, beq_iff_eq, Bool.and_eq_true, and_false, if_false]
      rcases working with same | working
      · exact .inl same
      · exact .inr (working.fewer more sub)
  | resume => simp [View.Working]
  | release =>
      cases took with
      | false => exact working.fewer more sub
      | true =>
          -- the freed slot has gone to the waiter, so nothing is owed any more
          intro running rest
          obtain ⟨x, member⟩ := List.exists_mem_of_ne_nil _ rest
          exact working running (List.ne_nil_of_mem (sub x member))

theorem step_working {w t : World} {action : Action} (sound : w.Sound)
    (door : ArrivesAtDoor w action) (working : w.view.Working)
    (stepped : step w action = some t) : t.view.Working := by
  have effect := step_effect sound stepped
  have idle (free : w.holder = none) : w.view.Busy 0 := by
    have holder : w.view.holder = none := free
    simpa only [View.Working, holder] using working
  generalize t.view = v at effect
  cases effect with
  | quiet => exact working
  | tick elapsed free =>
      simp only [View.Working, World.view, free]
      exact idle free
  | admitted _ free running room empty =>
      simp only [View.Working, World.view, free]
      intro _ queue
      exact absurd empty queue
  | join band peer which free =>
      simp only [View.Working, World.view, free]
      intro running _
      rcases which with rfl | ⟨-, paused | full | queue⟩
      · exact absurd door (by simp [ArrivesAtDoor])
      · exact absurd (paused.symm.trans running) (by simp)
      · exact .inr full
      · exact idle free running queue
  | store capacity free =>
      rcases free with free | free
      · simp only [View.Working, World.view, free]
        intro _ _
        exact .inl List.mem_cons_self
      · simp [View.Working, World.view, free]
  | lock capacity free => exact locked_working (idle free)
  | pause free =>
      simp only [View.Working, World.view, free]
      intro running
      exact absurd running (by simp)
  | resume => simp [View.Working]
  | free _ unlocked positive => exact freed_working positive (idle unlocked)
  | leave id free =>
      simp only [View.Working, World.view, free]
      exact (idle free).fewer le_rfl fun x member => List.mem_of_mem_eraseP member
  | stop holder holds stopped => exact stopped_working working holds stopped
  | pop holder front waiter back took holds _ next =>
      exact popped_working took working holds next

/-- Whoever is in a loop under the lock gives the lock back by its own turns alone: every turn that
does not stop takes a waiter off the queue. -/
theorem loop_ends {w : World} (sound : w.Sound) :
    ∃ t, Reaches step (fun _ action => action = .turn) w t ∧ t.holder = none := by
  generalize size : w.waiting.length = length
  induction length using Nat.strong_induction_on generalizing w with
  | _ length ih =>
      cases holds : w.holder with
      | none => exact ⟨w, .start, holds⟩
      | some holder =>
          have stepped : step w .turn = some (w.turn holder) := by simp [step, holds]
          have first : Reaches step (fun _ action => action = .turn) w (w.turn holder) :=
            .next .start rfl stepped
          have effect := World.turn_effect holds
          have after := step_sound sound stepped
          generalize seen : (w.turn holder).view = v at effect
          cases effect with
          | quiet moved => exact absurd rfl moved
          | admitted which => exact absurd which (by simp)
          | join band peer which => exact absurd which (by simp)
          | free which => exact absurd which (by simp)
          | stop => exact ⟨w.turn holder, first, congrArg View.holder seen⟩
          | pop other front waiter back took _ _ next =>
              have queue := (minByKey_spec next).1
              have rest : (w.turn holder).waiting = front ++ back := congrArg View.waiting seen
              have shorter : (w.turn holder).waiting.length < length := by
                have before : w.waiting = front ++ waiter :: back := queue
                rw [rest, ← size, before]
                simp
              obtain ⟨t, tail, unlocked⟩ := ih _ shorter after rfl
              exact ⟨t, first.trans tail, unlocked⟩

/-- Between operations, an unpaused scheduler with a queue has no idle slot. -/
theorem work_conserved {capacity clock : Nat} {config : SchedulerConfig} {w : World}
    (reached : Reaches step ArrivesAtDoor (World.new capacity config clock) w)
    (unlocked : w.holder = none) (stored : w.pending = [])
    (running : w.paused = false) (queue : w.waiting ≠ []) :
    w.capacity ≤ w.running.length := by
  have working : w.Sound ∧ w.view.Working := by
    refine reached.invariant (fun w => w.Sound ∧ w.view.Working) ?_ ?_
    · refine ⟨new_sound capacity config clock, ?_⟩
      simp only [View.Working, World.view, World.new]
      intro _ queue
      exact absurd rfl queue
    · intro s action u door inv next
      exact ⟨step_sound inv.1 next, step_working inv.1 door inv.2 next⟩
  have busy := working.2
  have holder : w.view.holder = none := unlocked
  simp only [View.Working, holder] at busy
  rcases busy running queue with waits | full
  · change w.capacity ∈ w.pending at waits
    simp [stored] at waits
  · exact full

/-- A release has handed the only slot to one of two waiting requests; the other still waits. -/
theorem work_conserved_one_waiting :
    ∃ w : World, w.waiting ≠ [] ∧ w.capacity ≤ w.running.length := by
  have ran : (runMeeting step ArrivesAtDoor (World.new 1 .default 0)
      [.tryAdmit, .admitOrEnqueue .bulk ⟨none⟩, .admitOrEnqueue .interactive ⟨none⟩,
        .dropPermit 1, .turn]).any (fun w => decide (w.holder = none ∧ w.pending = [] ∧
          w.paused = false ∧ w.waiting ≠ [])) = true := by decide
  obtain ⟨w, ran, idle⟩ := (Option.any_eq_true _ _).mp ran
  obtain ⟨unlocked, stored, running, queue⟩ := of_decide_eq_true idle
  exact ⟨w, queue, work_conserved (runMeeting_reaches ran) unlocked stored running queue⟩

end Lightweight.Gateway
