import Lightweight.Gateway.SchedulerEffects

/-! When a slot is given within the slot count. Direct admission and `resume` compare with the
current count; `release` does not compare at all, and `set_capacity` compares with the count it was
called with, which a later call may have replaced before it took the lock. -/

namespace Lightweight.Gateway

open Transition

/-- A slot is freed in front of a queue only while no more requests run than there are slots, and
the loop of `set_capacity` starts only if its count has not been lowered since it was stored. -/
def KeepsCapacity (w : World) : Action → Prop
  | .dropPermit _ => w.paused = true ∨ w.waiting = [] ∨ w.running.length ≤ w.capacity
  | .closeTicket _ => w.paused = true ∨ w.waiting = [] ∨ w.running.length ≤ w.capacity
  | .lockCapacity capacity => w.paused = true ∨ w.waiting = [] ∨ capacity ≤ w.capacity
  | _ => True

instance (w : World) : (action : Action) → Decidable (KeepsCapacity w action)
  | .dropPermit _ | .closeTicket _ | .lockCapacity _ => inferInstanceAs (Decidable (_ ∨ _ ∨ _))
  | .tick _ | .tryAdmit | .admitOrEnqueue _ _ | .enqueue _ _ | .storeCapacity _
  | .setBandLimits _ | .pause | .dropGuard | .turn | .claim _ | .timedOut _ | .dropTicket _
  | .describe _ _ _ _ | .inBand _ _ => isTrue trivial

/-- What the loop under way has left of the condition its step met. -/
def View.RoomLeft (v : View) : Prop :=
  match v.holder with
  | some (.setCapacity capacity) => v.waiting = [] ∨ capacity ≤ v.capacity
  | some .release => v.waiting = [] ∨ v.busy < v.capacity
  | _ => True

theorem freed_room {w : World} (positive : 0 < w.view.busy)
    (met : w.paused = true ∨ w.waiting = [] ∨ w.running.length ≤ w.capacity) :
    View.RoomLeft { w.view with
      busy := w.view.busy - 1, holder := if w.paused then none else some .release } := by
  by_cases paused : w.paused = true
  · simp [View.RoomLeft, paused]
  · simp only [View.RoomLeft, if_neg paused]
    rcases met with held | empty | room
    · exact absurd held paused
    · exact .inl empty
    · right
      change w.view.busy ≤ w.view.capacity at room
      omega

theorem step_room {w t : World} {action : Action} (sound : w.Sound) (met : KeepsCapacity w action)
    (left : w.view.RoomLeft) (stepped : step w action = some t) : t.view.RoomLeft := by
  have effect := step_effect sound stepped
  generalize t.view = v at effect
  cases effect with
  | quiet => exact left
  | tick elapsed free => simp [View.RoomLeft, World.view, free]
  | admitted _ free => simp [View.RoomLeft, World.view, free]
  | join band peer _ free => simp [View.RoomLeft, World.view, free]
  | store capacity free =>
      rcases free with free | free <;> simp [View.RoomLeft, World.view, free]
  | lock capacity free =>
      by_cases paused : w.paused = true
      · simp [View.RoomLeft, paused]
      · simp only [View.RoomLeft, if_neg paused]
        rcases met with held | empty | bound
        · exact absurd held paused
        · exact .inl empty
        · exact .inr bound
  | pause free => simp [View.RoomLeft, World.view, free]
  | resume => simp [View.RoomLeft]
  | free which _ positive =>
      rcases which with ⟨slot, rfl⟩ | ⟨id, rfl⟩
      · exact freed_room positive met
      · exact freed_room positive met
  | leave id free => simp [View.RoomLeft, World.view, free]
  | stop => simp [View.RoomLeft]
  | pop holder front waiter back took holds continues next =>
      have queue : w.view.waiting ≠ [] := by
        rw [(minByKey_spec next).1]
        simp
      have holding : w.view.holder = some holder := holds
      simp only [View.RoomLeft, holding] at left
      cases holder with
      | setCapacity capacity =>
          have bound := left.resolve_left queue
          simp only [View.RoomLeft, reduceCtorEq, beq_iff_eq, Bool.and_eq_true, and_false, if_false]
          exact .inr bound
      | resume => simp [View.RoomLeft]
      | release =>
          have room := left.resolve_left queue
          cases took with
          | true => simp [View.RoomLeft]
          | false => exact .inr room

/-- In a run whose steps keep the condition, a slot is never given beyond the slot count. -/
theorem slots_within_capacity {capacity clock : Nat} {config : SchedulerConfig} {w t : World}
    {action : Action} (reached : Reaches step KeepsCapacity (World.new capacity config clock) w)
    (stepped : step w action = some t) (given : GivesSlot w t) :
    t.running.length ≤ t.capacity := by
  have sound := reached_sound reached
  have left : w.Sound ∧ w.view.RoomLeft := by
    refine reached.invariant (fun w => w.Sound ∧ w.view.RoomLeft) ?_ ?_
    · exact ⟨new_sound capacity config clock, by simp [View.RoomLeft, World.view, World.new]⟩
    · intro s action u met inv next
      exact ⟨step_sound inv.1 next, step_room inv.1 met inv.2 next⟩
  obtain ⟨length, same, direct | ⟨holder, holds, continues, queue⟩⟩ := gives_slot sound stepped given
  · rw [length, same]
    exact direct.2.2
  · rw [length, same]
    have room := left.2
    have holding : w.view.holder = some holder := holds
    simp only [View.RoomLeft, holding] at room
    cases holder with
    | setCapacity limit =>
        have below : w.view.busy < limit := continues limit rfl
        exact lt_of_lt_of_le below (room.resolve_left queue)
    | resume => exact continues w.capacity rfl
    | release => exact room.resolve_left queue

/-- Three running requests, one waiting, and the count lowered to one: the first to finish hands
its slot on, so that three are still running. -/
theorem lowered_capacity_overfilled :
    ¬ ∀ (capacity clock : Nat) (config : SchedulerConfig) (w t : World) (action : Action),
      Reaches step Always (World.new capacity config clock) w → step w action = some t →
        GivesSlot w t → t.running.length ≤ t.capacity := by
  intro within
  have ran : (run step (World.new 3 .default 0)
      [.tryAdmit, .tryAdmit, .tryAdmit, .admitOrEnqueue .bulk ⟨none⟩, .storeCapacity 1,
        .lockCapacity 1, .turn, .dropPermit 1]).any (fun w => (step w .turn).any fun t =>
          decide (GivesSlot w t ∧ ¬ t.running.length ≤ t.capacity)) = true := by decide
  obtain ⟨w, ran, stepped⟩ := (Option.any_eq_true _ _).mp ran
  obtain ⟨t, stepped, beyond⟩ := (Option.any_eq_true _ _).mp stepped
  obtain ⟨given, full⟩ := of_decide_eq_true beyond
  exact full (within 3 0 .default w t .turn (run_reaches ran) stepped given)

/-- One slot, one running and one waiting request: the hand-over fills the slot that was freed. -/
theorem slots_within_capacity_handed_over :
    ∃ w t, step w .turn = some t ∧ GivesSlot w t ∧ t.running.length ≤ t.capacity := by
  have ran : (runMeeting step KeepsCapacity (World.new 1 .default 0)
      [.tryAdmit, .admitOrEnqueue .bulk ⟨none⟩, .dropPermit 1]).any (fun w =>
        (step w .turn).any fun t => decide (GivesSlot w t)) = true := by decide
  obtain ⟨w, ran, stepped⟩ := (Option.any_eq_true _ _).mp ran
  obtain ⟨t, stepped, given⟩ := (Option.any_eq_true _ _).mp stepped
  have given := of_decide_eq_true given
  exact ⟨w, t, stepped, given, slots_within_capacity (runMeeting_reaches ran) stepped given⟩

end Lightweight.Gateway
