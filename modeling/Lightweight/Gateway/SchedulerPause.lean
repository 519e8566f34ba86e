import Lightweight.Gateway.SchedulerEffects

/-! A pause is one flag, and dropping any guard clears it. Nothing starts while a guard is alive as
long as no guard is dropped while another one lives. -/

namespace Lightweight.Gateway

open Transition

def LoneGuard (w : World) : Action → Prop
  | .dropGuard => w.guards ≤ 1
  | _ => True

/-- A living guard holds the flag, and the lock's holder is not in a loop that hands out slots. -/
def View.Quiet (v : View) : Prop := 0 < v.guards → v.paused = true ∧ v.holder = none

theorem step_quiet {w t : World} {action : Action} (sound : w.Sound) (lone : LoneGuard w action)
    (quiet : w.view.Quiet) (stepped : step w action = some t) : t.view.Quiet := by
  have effect := step_effect sound stepped
  generalize t.view = v at effect
  cases effect with
  | quiet => exact quiet
  | tick elapsed free => exact fun guarded => ⟨(quiet guarded).1, free⟩
  | admitted _ free => exact fun guarded => ⟨(quiet guarded).1, free⟩
  | join band peer _ free => exact fun guarded => ⟨(quiet guarded).1, free⟩
  | store capacity _ => exact quiet
  | lock capacity free =>
      intro guarded
      have paused : w.paused = true := (quiet guarded).1
      exact ⟨paused, if_pos paused⟩
  | pause free => exact fun _ => ⟨rfl, free⟩
  | resume free live =>
      intro guarded
      have alone : w.guards ≤ 1 := lone
      simp only at guarded
      omega
  | free _ unlocked _ =>
      intro guarded
      have paused : w.paused = true := (quiet guarded).1
      exact ⟨paused, if_pos paused⟩
  | leave id free => exact fun guarded => ⟨(quiet guarded).1, free⟩
  | stop holder _ _ => exact fun guarded => ⟨(quiet guarded).1, rfl⟩
  | pop holder front waiter back took holds _ _ =>
      intro guarded
      have unlocked : w.holder = none := (quiet guarded).2
      rw [holds] at unlocked
      cases unlocked

theorem reached_quiet {capacity clock : Nat} {config : SchedulerConfig} {w : World}
    (reached : Reaches step LoneGuard (World.new capacity config clock) w) : w.view.Quiet := by
  have inv : w.Sound ∧ w.view.Quiet := by
    refine reached.invariant (fun w => w.Sound ∧ w.view.Quiet) ?_ ?_
    · exact ⟨new_sound capacity config clock, fun guarded => absurd guarded (lt_irrefl 0)⟩
    · intro s action u lone inv next
      exact ⟨step_sound inv.1 next, step_quiet inv.1 lone inv.2 next⟩
  exact inv.2

/-- Nothing starts while a guard is alive, in a run that never drops one of several guards. -/
theorem guarded_gives_nothing {capacity clock : Nat} {config : SchedulerConfig} {w t : World}
    {action : Action} (reached : Reaches step LoneGuard (World.new capacity config clock) w)
    (stepped : step w action = some t) (given : GivesSlot w t) : w.guards = 0 := by
  have quiet := reached_quiet reached
  obtain ⟨-, -, direct | ⟨holder, holds, -⟩⟩ := gives_slot (reached_sound reached) stepped given
  · by_contra live
    have paused : w.paused = true := (quiet (Nat.pos_of_ne_zero live)).1
    rw [direct.2.1] at paused
    cases paused
  · by_contra live
    have unlocked : w.holder = none := (quiet (Nat.pos_of_ne_zero live)).2
    rw [holds] at unlocked
    cases unlocked

end Lightweight.Gateway
