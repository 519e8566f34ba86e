import Lightweight.Gateway.SchedulerSlots

/-! What one step can do to the part of the scheduler that decides who runs next. Every result about
the order of service and the number of busy slots is derived from `step_effect`. -/

namespace Lightweight.Gateway

/-- The queue, the number of busy slots and who may hand one out. -/
structure View where
  busy : Nat
  waiting : List Waiter
  capacity : Nat
  paused : Bool
  guards : Nat
  pending : List Nat
  holder : Option Holder
  clock : Nat
  ceiling : Nat

def World.view (w : World) : View :=
  ⟨w.running.length, w.waiting, w.capacity, w.paused, w.guards, w.pending, w.holder, w.clock,
    w.sched.config.starvationCeiling⟩

/-- The bound a drain loop compares the running count with; `release` compares with none. -/
def View.limit (v : View) : Holder → Option Nat
  | .setCapacity capacity => some capacity
  | .resume => some v.capacity
  | .release => none

/-- Whether a loop's condition lets it look at the queue again. -/
def View.continues (v : View) (holder : Holder) : Prop := ∀ limit ∈ v.limit holder, v.busy < limit

/-- The waiter of least rank, with the queue on either side of it. -/
def View.next (v : View) (front : List Waiter) (waiter : Waiter) (back : List Waiter) : Prop :=
  minByKey (fun x => rank x v.clock v.ceiling) v.waiting = some (front, waiter, back)

/-- The waiter `push_waiter` adds. -/
def World.newcomer (w : World) (band : Band) (peer : PeerKey) : Waiter :=
  ⟨w.sched.inner.nextId + 1, band, peer, asU32 (w.sched.inner.waitingOf peer), w.clock⟩

inductive Effect (w : World) : Action → View → Prop where
  | quiet {action : Action} : action ≠ .turn → Effect w action w.view
  | tick (elapsed : Nat) : w.holder = none →
      Effect w (.tick elapsed) { w.view with clock := w.clock + elapsed }
  | admitted {action : Action} :
      action = .tryAdmit ∨ (∃ band peer, action = .admitOrEnqueue band peer) →
      w.holder = none → w.paused = false → w.view.busy < w.capacity → w.waiting = [] →
      Effect w action { w.view with busy := w.view.busy + 1 }
  | join {action : Action} (band : Band) (peer : PeerKey) :
      action = .enqueue band peer ∨ action = .admitOrEnqueue band peer ∧
        (w.paused = true ∨ w.capacity ≤ w.view.busy ∨ w.waiting ≠ []) →
      w.holder = none →
      Effect w action { w.view with waiting := w.waiting ++ [w.newcomer band peer] }
  | store (capacity : Nat) : w.holder = none ∨ w.holder = some .resume →
      Effect w (.storeCapacity capacity)
        { w.view with capacity := max capacity 1, pending := max capacity 1 :: w.pending }
  | lock (capacity : Nat) : w.holder = none → capacity ∈ w.pending →
      Effect w (.lockCapacity capacity) { w.view with
        pending := w.pending.erase capacity
        holder := if w.paused then none else some (.setCapacity capacity) }
  | pause : w.holder = none →
      Effect w .pause { w.view with paused := true, guards := w.guards + 1 }
  | resume : w.holder = none → 0 < w.guards →
      Effect w .dropGuard
        { w.view with paused := false, guards := w.guards - 1, holder := some .resume }
  | free {action : Action} :
      (∃ slot, action = .dropPermit slot) ∨ (∃ id, action = .closeTicket id) →
      w.holder = none → 0 < w.view.busy →
      Effect w action { w.view with
        busy := w.view.busy - 1, holder := if w.paused then none else some .release }
  | leave (id : Nat) : w.holder = none →
      Effect w (.dropTicket id) { w.view with waiting := w.waiting.eraseP fun x => x.id == id }
  | stop (holder : Holder) : w.holder = some holder →
      w.waiting = [] ∨ ¬ w.view.continues holder →
      Effect w .turn { w.view with holder := none }
  | pop (holder : Holder) (front : List Waiter) (waiter : Waiter) (back : List Waiter)
      (took : Bool) : w.holder = some holder → w.view.continues holder →
      w.view.next front waiter back →
      Effect w .turn { w.view with
        busy := w.view.busy + took.toNat
        waiting := front ++ back
        holder := if took && holder == .release then none else some holder }

namespace World

variable {w : World}

theorem admitted_view {sched : Scheduler} {band : Band} {slot : Nat}
    (taken : w.sched.takeFreeSlot band w.clock = some (sched, slot)) :
    ({ w with sched, permits := slot :: w.permits } : World).view =
      { w.view with busy := w.view.busy + 1 } := by
  obtain ⟨-, -, -, -, capacity, config, inner⟩ := Scheduler.takeFreeSlot_eq_some taken
  simp [view, running, waiting, paused, World.capacity, capacity, config, inner]

theorem handOver_view (waiter : Waiter) :
    (w.handOver waiter).1.view =
      { w.view with busy := w.view.busy + (w.handOver waiter).2.toNat } := by
  unfold handOver
  simp only [Scheduler.reserveRunning]
  split
  · simp [view, updateTicket, running, waiting, paused, capacity]
  · let entry : Running := ⟨w.sched.inner.nextId + 1, waiter.band, w.clock, none, 0⟩
    have member : entry ∈ w.sched.inner.running ++ [entry] := by simp
    have length := List.length_eraseP_of_mem (p := fun r => r.id == w.sched.inner.nextId + 1)
      member (by simp [entry])
    simp only [List.length_append, List.length_singleton, Nat.add_sub_cancel] at length
    simp only [view, Scheduler.removeRunning, running, waiting, paused, capacity,
      Bool.toNat_false, Nat.add_zero, View.mk.injEq, and_true]
    exact length

theorem popped_view {waiter : Waiter} {sched : Scheduler}
    (taken : w.sched.takeNext w.clock = some (waiter, sched)) :
    ∃ front back, w.view.next front waiter back ∧
      (({ w with sched } : World).handOver waiter).1.view = { w.view with
        busy := w.view.busy + (({ w with sched } : World).handOver waiter).2.toNat
        waiting := front ++ back } := by
  obtain ⟨front, back, least, -, inner, capacity, config⟩ := Scheduler.takeNext_eq_some taken
  refine ⟨front, back, least, ?_⟩
  rw [handOver_view]
  simp [view, running, waiting, paused, World.capacity, capacity, config, inner]

theorem release_view {slot : Nat} (present : slot ∈ w.running.map Running.id) :
    0 < w.view.busy ∧ (w.release slot).view = { w.view with
      busy := w.view.busy - 1
      holder := if w.paused then w.holder else some .release } := by
  obtain ⟨entry, member, same⟩ := List.mem_map.mp present
  have length := List.length_eraseP_of_mem (p := fun r => r.id == slot) member (by simp [same])
  refine ⟨List.length_pos_of_mem member, ?_⟩
  unfold release
  dsimp only
  split
  · rename_i held
    have paused : w.paused = true := held
    rw [if_pos paused]
    exact congrArg (fun busy => { w.view with busy }) length
  · rename_i held
    have unpaused : ¬ w.paused = true := held
    rw [if_neg unpaused]
    exact congrArg (fun busy => { w.view with busy, holder := some .release }) length

theorem drainTurn_effect {holder : Holder} {limit : Nat} (holds : w.holder = some holder)
    (bound : w.view.limit holder = some limit) : Effect w .turn (w.drainTurn limit).view := by
  have drains : (holder == .release) = false := by
    cases holder with
    | setCapacity capacity => rfl
    | resume => rfl
    | release => cases bound
  unfold drainTurn
  split
  · rename_i room
    have continues : w.view.continues holder := by
      intro other member
      rw [bound, Option.mem_some_iff] at member
      exact member ▸ room
    split
    · rename_i nothing
      exact .stop holder holds (.inl (Scheduler.takeNext_eq_none.mp nothing))
    · rename_i waiter sched taken
      obtain ⟨front, back, next, same⟩ := popped_view taken
      have effect := Effect.pop holder front waiter back
        (({ w with sched } : World).handOver waiter).2 holds continues next
      rw [same]
      simpa [drains, holds, view] using effect
  · rename_i full
    refine .stop holder holds (.inr fun continues => full ?_)
    exact continues limit (by simp [bound])

theorem releaseTurn_effect (holds : w.holder = some .release) :
    Effect w .turn w.releaseTurn.view := by
  have continues : w.view.continues .release := by
    intro limit member
    simp [View.limit] at member
  unfold releaseTurn
  split
  · rename_i nothing
    exact .stop .release holds (.inl (Scheduler.takeNext_eq_none.mp nothing))
  · rename_i waiter sched taken
    obtain ⟨front, back, next, same⟩ := popped_view taken
    have effect := Effect.pop .release front waiter back
      (({ w with sched } : World).handOver waiter).2 holds continues next
    generalize ({ w with sched } : World).handOver waiter = handed at same effect ⊢
    have unlocked : handed.1.unlock.view = { handed.1.view with holder := none } := rfl
    cases took : handed.2 with
    | true =>
        simp only [took, if_true]
        rw [unlocked, same]
        simpa [took] using effect
    | false =>
        simp only [took, Bool.false_eq_true, if_false]
        rw [same]
        simpa [took, holds, view] using effect

theorem updateRunning_view (slot : Nat) (change : Running → Running) :
    ({ w with sched := w.sched.updateRunning slot change } : World).view = w.view :=
  congrArg (fun busy => { w.view with busy }) (List.length_map _)

theorem turn_effect {holder : Holder} (holds : w.holder = some holder) :
    Effect w .turn (w.turn holder).view := by
  cases holder with
  | setCapacity capacity => exact drainTurn_effect holds rfl
  | resume => exact drainTurn_effect holds rfl
  | release => exact releaseTurn_effect holds

theorem released_effect {t : World} {action : Action} {slot : Nat}
    (which : (∃ slot, action = .dropPermit slot) ∨ (∃ id, action = .closeTicket id))
    (free : w.holder = none) (present : slot ∈ w.running.map Running.id)
    (same : t.view = w.view) (running : t.running = w.running) :
    Effect w action (t.release slot).view := by
  have paused : t.paused = w.paused := congrArg View.paused same
  have holder : t.holder = w.holder := congrArg View.holder same
  obtain ⟨positive, after⟩ := release_view (w := t) (running ▸ present)
  rw [same] at positive
  rw [after, same, paused, holder, free]
  exact .free which free positive

end World

theorem step_effect {w t : World} {action : Action} (sound : w.Sound)
    (stepped : step w action = some t) : Effect w action t.view := by
  cases action with
  | tick elapsed =>
      obtain ⟨free, rfl⟩ := guardedBy_eq_some.mp stepped
      exact .tick elapsed (World.free_iff.mp free)
  | tryAdmit =>
      obtain ⟨free, rfl⟩ := guardedBy_eq_some.mp stepped
      unfold World.tryAdmit
      split
      · rename_i taken
        obtain ⟨running, room, empty, -⟩ := Scheduler.takeFreeSlot_eq_some taken
        rw [World.admitted_view taken]
        exact .admitted (.inl rfl) (World.free_iff.mp free) running room empty
      · exact .quiet nofun
  | admitOrEnqueue band peer =>
      obtain ⟨free, rfl⟩ := guardedBy_eq_some.mp stepped
      unfold World.admitOrEnqueue
      split
      · rename_i taken
        obtain ⟨running, room, empty, -⟩ := Scheduler.takeFreeSlot_eq_some taken
        rw [World.admitted_view taken]
        exact .admitted (.inr ⟨band, peer, rfl⟩) (World.free_iff.mp free) running room empty
      · rename_i refused
        exact .join band peer (.inr ⟨rfl, Scheduler.takeFreeSlot_eq_none refused⟩)
          (World.free_iff.mp free)
  | enqueue band peer =>
      obtain ⟨free, rfl⟩ := guardedBy_eq_some.mp stepped
      exact .join band peer (.inl rfl) (World.free_iff.mp free)
  | storeCapacity capacity =>
      obtain ⟨free, rfl⟩ := guardedBy_eq_some.mp stepped
      exact .store capacity (by simpa [World.admitsStore] using free)
  | lockCapacity capacity =>
      obtain ⟨enabled, rfl⟩ := guardedBy_eq_some.mp stepped
      simp only [Bool.and_eq_true, List.contains_iff_mem, World.free_iff] at enabled
      have effect := Effect.lock capacity enabled.1 enabled.2
      unfold World.lockCapacity
      split
      · rename_i paused
        have held : w.paused = true := paused
        rw [held, if_pos rfl] at effect
        simpa [World.view, World.running, World.waiting, World.paused, World.capacity,
          enabled.1] using effect
      · rename_i paused
        have held : ¬ w.paused = true := paused
        rw [if_neg held] at effect
        exact effect
  | setBandLimits limits =>
      cases stepped
      exact .quiet nofun
  | pause =>
      obtain ⟨free, rfl⟩ := guardedBy_eq_some.mp stepped
      exact .pause (World.free_iff.mp free)
  | dropGuard =>
      obtain ⟨enabled, rfl⟩ := guardedBy_eq_some.mp stepped
      simp only [Bool.and_eq_true, decide_eq_true_eq, World.free_iff] at enabled
      exact .resume enabled.1 enabled.2
  | turn =>
      obtain ⟨holder, holds, rfl⟩ := Option.map_eq_some_iff.mp stepped
      exact World.turn_effect holds
  | dropPermit slot =>
      obtain ⟨enabled, rfl⟩ := guardedBy_eq_some.mp stepped
      simp only [Bool.and_eq_true, List.contains_iff_mem, World.free_iff] at enabled
      have present : slot ∈ w.running.map Running.id :=
        sound.held.mem_iff.mpr (List.mem_append_left _ enabled.2)
      exact World.released_effect (.inl ⟨slot, rfl⟩) enabled.1 present rfl rfl
  | claim id =>
      obtain ⟨ticket, found, rest⟩ := Option.bind_eq_some_iff.mp stepped
      obtain ⟨slot, sent, rest⟩ := Option.bind_eq_some_iff.mp rest
      obtain ⟨-, rfl⟩ := guardedBy_eq_some.mp rest
      exact .quiet nofun
  | timedOut id =>
      obtain ⟨ticket, found, rest⟩ := Option.bind_eq_some_iff.mp stepped
      obtain ⟨-, rfl⟩ := guardedBy_eq_some.mp rest
      exact .quiet nofun
  | dropTicket id =>
      obtain ⟨ticket, found, rest⟩ := Option.bind_eq_some_iff.mp stepped
      obtain ⟨enabled, rfl⟩ := guardedBy_eq_some.mp rest
      simp only [Bool.and_eq_true, World.free_iff] at enabled
      unfold World.dropTicket
      split
      · exact .quiet nofun
      · split
        · rename_i sched left
          obtain ⟨-, capacity, config, inner⟩ := Scheduler.withdraw_eq_some left
          have effect := Effect.leave id enabled.1
          rw [(World.ticket?_eq_some found).2] at inner
          simpa [World.view, World.running, World.waiting, World.paused, World.capacity,
            capacity, config, inner] using effect
        · exact .quiet nofun
  | closeTicket id =>
      obtain ⟨ticket, found, rest⟩ := Option.bind_eq_some_iff.mp stepped
      obtain ⟨enabled, rfl⟩ := guardedBy_eq_some.mp rest
      simp only [Bool.and_eq_true, World.free_iff] at enabled
      unfold World.closeTicket
      dsimp only
      split
      · rename_i slot sent
        have inside : slot ∈ unclaimed w.tickets :=
          List.mem_filterMap.mpr ⟨ticket, (World.ticket?_eq_some found).1, sent⟩
        have present : slot ∈ w.running.map Running.id :=
          sound.held.mem_iff.mpr (List.mem_append_right _ inside)
        exact World.released_effect (.inr ⟨id, rfl⟩) enabled.1 present rfl rfl
      · exact .quiet nofun
  | describe slot id model promptTokens =>
      obtain ⟨-, rfl⟩ := guardedBy_eq_some.mp stepped
      have same : ({ w with sched := w.sched.describe slot id model promptTokens } : World).view =
          w.view := World.updateRunning_view slot _
      rw [same]
      exact .quiet nofun
  | inBand slot band =>
      obtain ⟨-, rfl⟩ := guardedBy_eq_some.mp stepped
      have same : ({ w with sched := w.sched.inBand slot band } : World).view = w.view :=
        World.updateRunning_view slot _
      rw [same]
      exact .quiet nofun

/-- The step hands a slot to a request, directly or from the queue. -/
def GivesSlot (w t : World) : Prop := w.running.length < t.running.length

instance (w t : World) : Decidable (GivesSlot w t) := inferInstanceAs (Decidable (_ < _))

/-- The two ways a slot is given: to an arrival in front of an empty queue, or by a turn of one of
the three loops. -/
theorem gives_slot {w t : World} {action : Action} (sound : w.Sound)
    (stepped : step w action = some t) (given : GivesSlot w t) :
    t.running.length = w.running.length + 1 ∧ t.capacity = w.capacity ∧
      (w.holder = none ∧ w.paused = false ∧ w.running.length < w.capacity ∨
        ∃ holder, w.holder = some holder ∧ w.view.continues holder ∧ w.waiting ≠ []) := by
  have effect := step_effect sound stepped
  change w.view.busy < t.view.busy at given
  change t.view.busy = w.view.busy + 1 ∧ t.view.capacity = w.view.capacity ∧ _
  generalize t.view = v at effect given
  cases effect with
  | quiet => exact absurd given (lt_irrefl _)
  | tick => exact absurd given (lt_irrefl _)
  | admitted _ free running room => exact ⟨rfl, rfl, .inl ⟨free, running, room⟩⟩
  | join => exact absurd given (lt_irrefl _)
  | store => exact absurd given (lt_irrefl _)
  | lock => exact absurd given (lt_irrefl _)
  | pause => exact absurd given (lt_irrefl _)
  | resume => exact absurd given (lt_irrefl _)
  | free =>
      simp only at given
      omega
  | leave => exact absurd given (lt_irrefl _)
  | stop => exact absurd given (lt_irrefl _)
  | pop holder front waiter back took holds continues next =>
      have nonempty : w.waiting ≠ [] := by
        have queue := (minByKey_spec next).1
        intro empty
        simp [World.view, empty] at queue
      cases took with
      | false => exact absurd given (lt_irrefl _)
      | true => exact ⟨rfl, rfl, .inr ⟨holder, holds, continues, nonempty⟩⟩

end Lightweight.Gateway
