import Lightweight.Gateway.SchedulerPause

/-! `drain`, which waits for the engine to go idle while everything else goes on. It reads the queue
under its lock, and between two reads sleeps on a notification that `release` sends. A notification
that has been created is woken by every later call, also before it is waited for. -/

namespace Lightweight.Gateway

open Transition

/-- Where the call of `drain` is; `since` is how many notifications had been sent when its own was
created. -/
inductive DrainState where
  | check
  | arm
  | recheck (since : Nat)
  | waiting (since : Nat)
  | expired
  | done (idle : Bool)
  deriving DecidableEq, Repr

/-- `notified` counts the calls of `notify_waiters`. -/
structure Draining where
  world : World
  notified : Nat
  drain : DrainState
  deriving DecidableEq, Repr

def Draining.start (world : World) : Draining := { world, notified := 0, drain := .check }

def World.idle (w : World) : Bool := w.running.isEmpty

/-- `release` finds nothing running when it has removed its slot. -/
def World.notifies (w : World) : Action → Bool
  | .dropPermit slot => (w.sched.removeRunning slot).inner.running.isEmpty
  | .closeTicket id =>
      match (w.ticket? id).bind Ticket.slot with
      | some slot => (w.sched.removeRunning slot).inner.running.isEmpty
      | none => false
  | _ => false

/-- A step of the scheduler, or one of `drain`. -/
inductive DrainAction where
  | scheduler (action : Action)
  | look
  | create
  | wake
  | expire
  deriving DecidableEq, Repr

/-- `drain` goes on from a read of the queue. -/
def DrainState.read (idle : Bool) : DrainState → Option DrainState
  | .check => some (if idle then .done true else .arm)
  | .recheck since => some (if idle then .done true else .waiting since)
  | .expired => some (.done idle)
  | _ => none

def drainStep (s : Draining) : DrainAction → Option Draining
  | .scheduler action =>
      (step s.world action).map fun world =>
        { s with world, notified := s.notified + (s.world.notifies action).toNat }
  | .look =>
      if s.world.free then
        (s.drain.read s.world.idle).map fun drain => { s with drain }
      else none
  | .create =>
      match s.drain with
      | .arm => some { s with drain := .recheck s.notified }
      | _ => none
  | .wake =>
      match s.drain with
      | .waiting since => if since < s.notified then some { s with drain := .check } else none
      | _ => none
  | .expire =>
      match s.drain with
      | .waiting since => if since < s.notified then none else some { s with drain := .expired }
      | _ => none

/-! ### No wakeup is lost -/

theorem idle_iff {w : World} : w.idle = true ↔ w.view.busy = 0 := by
  rw [World.idle, List.isEmpty_iff]
  exact List.length_eq_zero_iff.symm

theorem release_running (w : World) (slot : Nat) :
    (w.release slot).running = (w.sched.removeRunning slot).inner.running := by
  rw [World.release]
  dsimp only
  split
  · rfl
  · rfl

/-- Only a release leaves nothing running, and it says so. -/
theorem notifies_of_idle {w t : World} {action : Action} (sound : w.Sound)
    (stepped : step w action = some t) (busy : w.idle = false) (idle : t.idle = true) :
    w.notifies action = true := by
  have effect := step_effect sound stepped
  have some_ : w.view.busy ≠ 0 := by
    intro none_
    rw [idle_iff.mpr none_] at busy
    cases busy
  have none_ := idle_iff.mp idle
  generalize view : t.view = v at effect none_
  cases effect with
  | free which unlocked _ =>
      rcases which with ⟨slot, rfl⟩ | ⟨id, rfl⟩
      · obtain ⟨-, rfl⟩ := guardedBy_eq_some.mp stepped
        rw [World.idle, release_running] at idle
        exact idle
      · obtain ⟨ticket, found, rest⟩ := Option.bind_eq_some_iff.mp stepped
        obtain ⟨-, rfl⟩ := guardedBy_eq_some.mp rest
        rw [World.notifies, found, Option.bind_some]
        rw [World.closeTicket] at idle
        cases sent : ticket.slot with
        | none =>
            rw [sent] at idle
            exact absurd (idle_iff.mp idle) some_
        | some slot =>
            rw [sent] at idle
            rw [World.idle, release_running] at idle
            exact idle
  | admitted => exact absurd none_ (Nat.succ_ne_zero _)
  | pop _ _ _ _ took => exact absurd (Nat.add_eq_zero_iff.mp none_).1 some_
  | _ => exact absurd none_ some_

/-- What `drain` waits for has not come, or it has been told. -/
def Draining.Told (s : Draining) : Prop :=
  match s.drain with
  | .recheck since => since ≤ s.notified
  | .waiting since => since ≤ s.notified ∧ (s.world.idle = true → since < s.notified)
  | _ => True

structure Draining.Inv (s : Draining) : Prop where
  sound : s.world.Sound
  told : s.Told

theorem scheduler_told {s : Draining} {world : World} {action : Action} (inv : s.Inv)
    (stepped : step s.world action = some world) :
    ({ s with world, notified := s.notified + (s.world.notifies action).toNat } : Draining).Told := by
  have told := inv.told
  rw [Draining.Told] at told ⊢
  cases at_ : s.drain with
  | recheck since =>
      rw [at_] at told
      exact Nat.le_add_right_of_le told
  | waiting since =>
      rw [at_] at told
      refine ⟨Nat.le_add_right_of_le told.1, ?_⟩
      intro idle
      cases before : s.world.idle with
      | true => exact Nat.lt_add_right _ (told.2 before)
      | false =>
          rw [notifies_of_idle inv.sound stepped before idle, Bool.toNat_true]
          exact Nat.lt_succ_of_le told.1
  | _ => trivial

theorem drainStep_inv {s t : Draining} {action : DrainAction} (inv : s.Inv)
    (stepped : drainStep s action = some t) : t.Inv := by
  cases action with
  | scheduler action =>
      obtain ⟨world, next, rfl⟩ := Option.map_eq_some_iff.mp stepped
      exact ⟨step_sound inv.sound next, scheduler_told inv next⟩
  | look =>
      have told := inv.told
      rw [drainStep, Option.ite_none_right_eq_some] at stepped
      obtain ⟨drain, read, rfl⟩ := Option.map_eq_some_iff.mp stepped.2
      refine ⟨inv.sound, ?_⟩
      cases at_ : s.drain with
      | check =>
          rw [at_] at read
          cases idle : s.world.idle <;> (rw [idle] at read; cases read; trivial)
      | recheck since =>
          rw [Draining.Told, at_] at told
          rw [at_] at read
          cases idle : s.world.idle with
          | true =>
              rw [idle] at read
              cases read
              trivial
          | false =>
              rw [idle] at read
              cases read
              exact ⟨told, fun other => absurd (idle.symm.trans other) Bool.false_ne_true⟩
      | expired =>
          rw [at_] at read
          cases read
          trivial
      | _ =>
          rw [at_] at read
          cases read
  | create =>
      rw [drainStep] at stepped
      split at stepped
      · cases stepped
        exact ⟨inv.sound, le_rfl⟩
      · cases stepped
  | wake =>
      rw [drainStep] at stepped
      split at stepped
      · rw [Option.ite_none_right_eq_some] at stepped
        cases stepped.2
        exact ⟨inv.sound, trivial⟩
      · cases stepped
  | expire =>
      rw [drainStep] at stepped
      split at stepped
      · rw [Option.ite_none_left_eq_some] at stepped
        cases stepped.2
        exact ⟨inv.sound, trivial⟩
      · cases stepped

theorem drained_inv {capacity clock : Nat} {config : SchedulerConfig}
    {ok : Draining → DrainAction → Prop} {s : Draining}
    (reached : Reaches drainStep ok (Draining.start (World.new capacity config clock)) s) : s.Inv := by
  have start : (Draining.start (World.new capacity config clock)).Told := trivial
  exact reached.invariant Draining.Inv ⟨new_sound capacity config clock, start⟩
    fun _ _ _ _ inv stepped => drainStep_inv inv stepped

/-- No wakeup is lost: whatever goes on, a call of `drain` that sleeps while nothing runs and the lock
is free has been woken, cannot run into its deadline, and answers at its next look that the engine is
idle. -/
theorem drain_woken {capacity clock : Nat} {config : SchedulerConfig} {s : Draining} {since : Nat}
    (reached : Reaches drainStep Always (Draining.start (World.new capacity config clock)) s)
    (sleeps : s.drain = .waiting since) (idle : s.world.idle = true)
    (free : s.world.holder = none) :
    drainStep s .expire = none ∧
      run drainStep s [.wake, .look] = some { s with drain := .done true } := by
  have told := (drained_inv reached).told
  rw [Draining.Told, sleeps] at told
  have woken := told.2 idle
  have unlocked := World.free_iff.mpr free
  constructor
  · rw [drainStep, sleeps]
    exact if_pos woken
  · have wake : drainStep s .wake = some { s with drain := .check } := by
      rw [drainStep, sleeps]
      exact if_pos woken
    have look : drainStep { s with drain := .check } .look = some { s with drain := .done true } := by
      rw [drainStep, if_pos unlocked, DrainState.read, idle]
      rfl
    rw [run, wake, Option.bind_some, run, look]
    rfl

/-- The running request finishes between the two looks of `drain` and its sleep. -/
theorem drain_woken_between :
    ∃ s, drainStep s .expire = none ∧
      run drainStep s [.wake, .look] = some { s with drain := .done true } := by
  have ran : (run drainStep (Draining.start (World.new 1 .default 0))
      [.scheduler .tryAdmit, .look, .create, .look, .scheduler (.dropPermit 1),
        .scheduler .turn]).any (fun s =>
          decide (s.drain = .waiting 0 ∧ s.world.idle = true ∧ s.world.holder = none)) = true := by
    decide
  obtain ⟨s, ran, reached⟩ := (Option.any_eq_true _ _).mp ran
  obtain ⟨sleeps, idle, free⟩ := of_decide_eq_true reached
  exact ⟨s, drain_woken (run_reaches ran) sleeps idle free⟩

/-! ### Idle under a pause -/

/-- No guard is dropped while another one lives. -/
def DropsLast (s : Draining) (action : DrainAction) : Prop :=
  action = .scheduler .dropGuard → s.world.guards ≤ 1

instance (s : Draining) (action : DrainAction) : Decidable (DropsLast s action) :=
  inferInstanceAs (Decidable (action = _ → _))

def KeepsGuards (_ : Draining) (action : DrainAction) : Prop := action ≠ .scheduler .dropGuard

instance (s : Draining) (action : DrainAction) : Decidable (KeepsGuards s action) :=
  inferInstanceAs (Decidable (action ≠ _))

theorem DropsLast.lone {s : Draining} {action : Action} (last : DropsLast s (.scheduler action)) :
    LoneGuard s.world action := by
  cases action with
  | dropGuard => exact last rfl
  | _ => trivial

/-- The engine is idle under a pause that holds. -/
structure World.Held (w : World) : Prop where
  sound : w.Sound
  quiet : w.view.Quiet
  guarded : 0 < w.view.guards
  idle : w.view.busy = 0

theorem step_held {w t : World} {action : Action} (held : w.Held) (kept : action ≠ .dropGuard)
    (stepped : step w action = some t) : t.Held := by
  have sound := step_sound held.sound stepped
  have lone : LoneGuard w action := by
    cases action with
    | dropGuard => exact absurd rfl kept
    | _ => trivial
  have quiet := step_quiet held.sound lone held.quiet stepped
  have paused := held.quiet held.guarded
  have effect := step_effect held.sound stepped
  have rest : 0 < t.view.guards ∧ t.view.busy = 0 := by
    generalize t.view = v at effect
    cases effect with
    | resume => exact absurd rfl kept
    | admitted _ _ running _ =>
        have stopped : w.paused = true := paused.1
        rw [running] at stopped
        cases stopped
    | pop holder front waiter back took holds _ _ =>
        have unlocked : w.holder = none := paused.2
        rw [holds] at unlocked
        cases unlocked
    | free _ _ positive =>
        rw [held.idle] at positive
        exact absurd positive (lt_irrefl 0)
    | pause _ => exact ⟨Nat.succ_pos _, held.idle⟩
    | _ => exact ⟨held.guarded, held.idle⟩
  exact ⟨sound, quiet, rest.1, rest.2⟩

/-- The steps of `drain` itself leave the scheduler as it is. -/
theorem drainStep_world {s t : Draining} {action : DrainAction}
    (stepped : drainStep s action = some t) :
    (∃ inner, action = .scheduler inner ∧ step s.world inner = some t.world) ∨
      t.world = s.world := by
  cases action with
  | scheduler inner =>
      obtain ⟨world, next, rfl⟩ := Option.map_eq_some_iff.mp stepped
      exact .inl ⟨inner, rfl, next⟩
  | look =>
      rw [drainStep, Option.ite_none_right_eq_some] at stepped
      obtain ⟨drain, -, rfl⟩ := Option.map_eq_some_iff.mp stepped.2
      exact .inr rfl
  | create =>
      rw [drainStep] at stepped
      split at stepped
      · cases stepped
        exact .inr rfl
      · cases stepped
  | wake =>
      rw [drainStep] at stepped
      split at stepped
      · rw [Option.ite_none_right_eq_some] at stepped
        cases stepped.2
        exact .inr rfl
      · cases stepped
  | expire =>
      rw [drainStep] at stepped
      split at stepped
      · rw [Option.ite_none_left_eq_some] at stepped
        cases stepped.2
        exact .inr rfl
      · cases stepped

theorem drained_quiet {capacity clock : Nat} {config : SchedulerConfig} {s : Draining}
    (reached : Reaches drainStep DropsLast (Draining.start (World.new capacity config clock)) s) :
    s.world.Sound ∧ s.world.view.Quiet := by
  refine reached.invariant (fun s => s.world.Sound ∧ s.world.view.Quiet) ?_ ?_
  · exact ⟨new_sound capacity config clock, fun guarded => absurd guarded (lt_irrefl 0)⟩
  · intro s action t lone inv stepped
    rcases drainStep_world stepped with ⟨inner, rfl, next⟩ | same
    · exact ⟨step_sound inv.1 next, step_quiet inv.1 lone.lone inv.2 next⟩
    · rw [same]
      exact inv

/-- A look answers that the engine is idle only when it is. -/
theorem look_idle {s t : Draining} (looked : drainStep s .look = some t) (answer : t.drain = .done true) :
    s.world.idle = true ∧ t.world = s.world := by
  rw [drainStep, Option.ite_none_right_eq_some] at looked
  obtain ⟨drain, read, rfl⟩ := Option.map_eq_some_iff.mp looked.2
  have said : drain = .done true := answer
  subst said
  refine ⟨?_, rfl⟩
  cases idle : s.world.idle with
  | true => rfl
  | false =>
      rw [idle] at read
      cases at_ : s.drain <;> (rw [at_] at read; cases read)

end Lightweight.Gateway
