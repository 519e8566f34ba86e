import Lightweight.Gateway.SchedulerSteps

/-! What became of every request that was ever queued. A ledger is kept beside the scheduler: who
joined the queue, and how each one left it. The counters are what the ledger says, and every request
in it is still waiting or left once. -/

namespace Lightweight.Gateway

open Transition

/-- How a request left the queue. -/
inductive Fate where
  | timedOut
  | abandoned
  | handedOver
  deriving DecidableEq, Repr

def Withdrawal.fate : Withdrawal → Fate
  | .timedOut => .timedOut
  | .abandoned => .abandoned

structure Ledger where
  queued : List Nat
  settled : List (Nat × Fate)
  deriving DecidableEq, Repr

def Ledger.join (ledger : Ledger) (id : Nat) : Ledger :=
  { ledger with queued := id :: ledger.queued }

def Ledger.settle (ledger : Ledger) (id : Nat) (fate : Fate) : Ledger :=
  { ledger with settled := (id, fate) :: ledger.settled }

/-- Those who left in one way. -/
def Ledger.ids (ledger : Ledger) (fate : Fate) : List Nat :=
  (ledger.settled.filter fun entry => entry.2 == fate).map Prod.fst

/-- The three ways are all there are. -/
theorem Ledger.settled_perm (ledger : Ledger) :
    (ledger.settled.map Prod.fst).Perm
      (ledger.ids .timedOut ++ ledger.ids .abandoned ++ ledger.ids .handedOver) := by
  unfold Ledger.ids
  induction ledger.settled with
  | nil => exact List.Perm.refl _
  | cons entry rest ih =>
      rcases entry with ⟨id, fate⟩
      cases fate with
      | timedOut => exact ih.cons id
      | abandoned =>
          refine (ih.cons id).trans ?_
          rw [List.append_assoc, List.append_assoc]
          exact List.perm_middle.symm
      | handedOver => exact (ih.cons id).trans List.perm_middle.symm

/-- The waiter that a turn of the holder's loop takes out of the queue. -/
def World.popped (w : World) : Holder → Option (Waiter × Scheduler)
  | .setCapacity capacity =>
      if w.running.length < capacity then w.sched.takeNext w.clock else none
  | .resume => if w.running.length < w.capacity then w.sched.takeNext w.clock else none
  | .release => w.sched.takeNext w.clock

/-- Whether the waiter taken out of the queue was there to be told. -/
def World.fateOf (w : World) (waiter : Waiter) (sched : Scheduler) : Fate :=
  if (({ w with sched } : World).handOver waiter).2 then .handedOver else .abandoned

/-- What a step writes in the ledger. -/
def World.record (w : World) (ledger : Ledger) : Action → Ledger
  | .enqueue _ _ => ledger.join (w.sched.inner.nextId + 1)
  | .admitOrEnqueue band _ =>
      match w.sched.takeFreeSlot band w.clock with
      | some _ => ledger
      | none => ledger.join (w.sched.inner.nextId + 1)
  | .turn =>
      match w.holder.bind w.popped with
      | some (waiter, sched) => ledger.settle waiter.id (w.fateOf waiter sched)
      | none => ledger
  | .dropTicket id =>
      match w.ticket? id with
      | some ticket =>
          if !ticket.taken && (w.sched.withdraw ticket.id ticket.withdrawal).isSome then
            ledger.settle ticket.id ticket.withdrawal.fate
          else ledger
      | none => ledger
  | _ => ledger

/-- A step of the scheduler, with its ledger. -/
def recordedStep (state : World × Ledger) (action : Action) : Option (World × Ledger) :=
  (step state.1 action).map fun after => (after, state.1.record state.2 action)

/-! ### What the counters say -/

/-- The queue and the counters the ledger is compared with. -/
structure Tally where
  waiting : List Nat
  nextId : Nat
  queued : Nat
  timedOut : Nat
  abandoned : Nat

def World.tally (w : World) : Tally :=
  ⟨w.waiting.map Waiter.id, w.sched.inner.nextId, w.sched.counters.queued,
    w.sched.counters.timedOut, w.sched.counters.abandoned⟩

/-- One more of those who left so. -/
def Tally.count (tally : Tally) : Fate → Tally
  | .timedOut => { tally with timedOut := tally.timedOut + 1 }
  | .abandoned => { tally with abandoned := tally.abandoned + 1 }
  | .handedOver => tally

structure Accounts (tally : Tally) (ledger : Ledger) : Prop where
  queued : tally.queued = ledger.queued.length
  timedOut : tally.timedOut = (ledger.ids .timedOut).length
  abandoned : tally.abandoned = (ledger.ids .abandoned).length
  classes : ledger.queued.Perm (tally.waiting ++ ledger.settled.map Prod.fst)
  once : ledger.queued.Nodup
  issued : ∀ id ∈ ledger.queued, id ≤ tally.nextId

namespace Accounts

variable {tally : Tally} {ledger : Ledger}

theorem later (accounts : Accounts tally ledger) {nextId : Nat} (more : tally.nextId ≤ nextId) :
    Accounts { tally with nextId } ledger where
  queued := accounts.queued
  timedOut := accounts.timedOut
  abandoned := accounts.abandoned
  classes := accounts.classes
  once := accounts.once
  issued id member := (accounts.issued id member).trans more

theorem join (accounts : Accounts tally ledger) :
    Accounts { tally with
        waiting := tally.waiting ++ [tally.nextId + 1]
        nextId := tally.nextId + 1
        queued := tally.queued + 1 } (ledger.join (tally.nextId + 1)) where
  queued := congrArg (· + 1) accounts.queued
  timedOut := accounts.timedOut
  abandoned := accounts.abandoned
  classes := by
    rw [List.append_assoc, List.singleton_append]
    exact (accounts.classes.cons (tally.nextId + 1)).trans List.perm_middle.symm
  once := by
    apply List.nodup_cons.mpr
    refine ⟨?_, accounts.once⟩
    intro member
    exact absurd (accounts.issued _ member) (Nat.not_succ_le_self _)
  issued := by
    intro id member
    rcases List.mem_cons.mp member with rfl | old
    · exact Nat.le_refl _
    · exact (accounts.issued id old).trans (Nat.le_succ _)

theorem settle (accounts : Accounts tally ledger) {front back : List Nat} {id : Nat}
    (split : tally.waiting = front ++ id :: back) (fate : Fate) :
    Accounts ({ tally with waiting := front ++ back }.count fate) (ledger.settle id fate) where
  queued := by
    cases fate <;> exact accounts.queued
  timedOut := by
    cases fate with
    | timedOut => exact congrArg (· + 1) accounts.timedOut
    | abandoned => exact accounts.timedOut
    | handedOver => exact accounts.timedOut
  abandoned := by
    cases fate with
    | timedOut => exact accounts.abandoned
    | abandoned => exact congrArg (· + 1) accounts.abandoned
    | handedOver => exact accounts.abandoned
  classes := by
    have same : ({ tally with waiting := front ++ back }.count fate).waiting = front ++ back := by
      cases fate <;> rfl
    rw [same]
    have before := accounts.classes
    rw [split, List.append_assoc, List.cons_append] at before
    refine before.trans ?_
    rw [List.append_assoc]
    exact (List.perm_middle.symm).append_left front
  once := accounts.once
  issued := by
    intro member listed
    have same : ({ tally with waiting := front ++ back }.count fate).nextId = tally.nextId := by
      cases fate <;> rfl
    rw [same]
    exact accounts.issued member listed

/-- Each request that was queued is waiting, or left in one of three ways. -/
theorem total (accounts : Accounts tally ledger) :
    tally.queued = tally.waiting.length + tally.timedOut + tally.abandoned +
      (ledger.ids .handedOver).length := by
  have fates := ledger.settled_perm.length_eq
  rw [List.length_map, List.length_append, List.length_append] at fates
  have all := accounts.classes.length_eq
  rw [List.length_append, List.length_map] at all
  rw [accounts.queued, accounts.timedOut, accounts.abandoned, all, fates]
  omega

end Accounts

/-! ### One step -/

namespace World

variable {w : World}

theorem handOver_tally (waiter : Waiter) :
    (w.handOver waiter).1.tally =
      { w.tally with nextId := w.tally.nextId + 1 }.count
        (if (w.handOver waiter).2 then .handedOver else .abandoned) := by
  unfold handOver
  dsimp only [Scheduler.reserveRunning]
  split <;> rfl

theorem takeNext_tally {waiter : Waiter} {sched : Scheduler}
    (taken : w.sched.takeNext w.clock = some (waiter, sched)) :
    ∃ front back, w.tally.waiting = front ++ waiter.id :: back ∧
      ({ w with sched } : World).tally = { w.tally with waiting := front ++ back } := by
  unfold Scheduler.takeNext at taken
  split at taken
  · cases taken
  · rename_i front chosen back found
    cases taken
    refine ⟨front.map Waiter.id, back.map Waiter.id, ?_, ?_⟩
    · unfold tally
      dsimp only
      rw [waiting, (minByKey_spec found).1, List.map_append, List.map_cons]
    · unfold tally
      dsimp only [waiting]
      rw [List.map_append]

theorem takeFreeSlot_tally {sched : Scheduler} {band : Band} {slot : Nat}
    (taken : w.sched.takeFreeSlot band w.clock = some (sched, slot)) :
    ({ w with sched, permits := slot :: w.permits } : World).tally =
      { w.tally with nextId := w.tally.nextId + 1 } := by
  unfold Scheduler.takeFreeSlot at taken
  split at taken
  · cases taken
    rfl
  · cases taken

theorem enqueue_tally (band : Band) (peer : PeerKey) :
    (w.enqueue band peer).tally = { w.tally with
      waiting := w.tally.waiting ++ [w.tally.nextId + 1]
      nextId := w.tally.nextId + 1
      queued := w.tally.queued + 1 } := by
  simp [enqueue, Scheduler.pushWaiter, tally, waiting]

theorem withdraw_tally {sched : Scheduler} {id : Nat} {reason : Withdrawal}
    (left : w.sched.withdraw id reason = some sched) :
    ∃ front back, w.tally.waiting = front ++ id :: back ∧
      ({ w with sched } : World).tally =
        { w.tally with waiting := front ++ back }.count reason.fate := by
  unfold Scheduler.withdraw at left
  split at left
  · rename_i present
    cases left
    rcases List.any_eq_true.mp present with ⟨waiter, member, same⟩
    rcases List.exists_of_eraseP (p := fun x => x.id == id) member same with ⟨found, front, back, _, own, split, erased⟩
    have named : found.id = id := by simpa using own
    refine ⟨front.map Waiter.id, back.map Waiter.id, ?_, ?_⟩
    · unfold tally
      dsimp only
      rw [waiting, split, List.map_append, List.map_cons, named]
    · unfold tally
      dsimp only [waiting]
      rw [erased, List.map_append]
      cases reason <;> rfl
  · cases left

variable {ledger : Ledger}

/-- A waiter taken out of the queue and told, or found to be gone. -/
theorem popped_accounts (accounts : Accounts w.tally ledger) {waiter : Waiter} {sched : Scheduler}
    (taken : w.sched.takeNext w.clock = some (waiter, sched)) :
    Accounts (({ w with sched } : World).handOver waiter).1.tally
      (ledger.settle waiter.id (w.fateOf waiter sched)) := by
  rcases takeNext_tally taken with ⟨front, back, split, popped⟩
  rw [handOver_tally, popped]
  exact (accounts.later (Nat.le_succ _)).settle split _

theorem record_popped {holder : Holder} (holds : w.holder = some holder) {waiter : Waiter}
    {sched : Scheduler} (pops : w.popped holder = some (waiter, sched)) :
    w.record ledger .turn = ledger.settle waiter.id (w.fateOf waiter sched) := by
  simp only [record, holds, Option.bind_some, pops]

theorem record_stopped {holder : Holder} (holds : w.holder = some holder)
    (stops : w.popped holder = none) : w.record ledger .turn = ledger := by
  simp only [record, holds, Option.bind_some, stops]

theorem drainTurn_accounts (accounts : Accounts w.tally ledger) {holder : Holder}
    (holds : w.holder = some holder) {limit : Nat}
    (pops : w.popped holder =
      if w.running.length < limit then w.sched.takeNext w.clock else none) :
    Accounts (w.drainTurn limit).tally (w.record ledger .turn) := by
  unfold drainTurn
  split
  · rename_i room
    rw [if_pos room] at pops
    split
    · rename_i empty
      rw [record_stopped holds (pops.trans empty)]
      exact accounts
    · rename_i taken
      rw [record_popped holds (pops.trans taken)]
      exact popped_accounts accounts taken
  · rename_i full
    rw [if_neg full] at pops
    rw [record_stopped holds pops]
    exact accounts

theorem turn_accounts (accounts : Accounts w.tally ledger) {holder : Holder}
    (holds : w.holder = some holder) :
    Accounts (w.turn holder).tally (w.record ledger .turn) := by
  cases holder with
  | setCapacity capacity => exact drainTurn_accounts accounts holds rfl
  | resume => exact drainTurn_accounts accounts holds rfl
  | release =>
      unfold turn releaseTurn
      dsimp only
      split
      · rename_i empty
        rw [record_stopped holds empty]
        exact accounts
      · rename_i taken
        rw [record_popped holds taken]
        have told := popped_accounts accounts taken
        split <;> exact told

theorem dropTicket_accounts (accounts : Accounts w.tally ledger) {id : Nat} {ticket : Ticket}
    (found : w.ticket? id = some ticket) :
    Accounts (w.dropTicket ticket).tally (w.record ledger (.dropTicket id)) := by
  simp only [dropTicket, record, found]
  cases ticket.taken with
  | true => exact accounts
  | false =>
      cases left : w.sched.withdraw ticket.id ticket.withdrawal with
      | none => exact accounts
      | some sched =>
          rcases withdraw_tally left with ⟨front, back, split, after⟩
          have settled := accounts.settle split ticket.withdrawal.fate
          rw [← after] at settled
          exact settled

theorem release_tally (slot : Nat) : (w.release slot).tally = w.tally := by
  unfold release
  dsimp only
  split <;> rfl

theorem closeTicket_tally (ticket : Ticket) : (w.closeTicket ticket).tally = w.tally := by
  unfold closeTicket
  split
  · exact release_tally _
  · rfl

end World

/-- Whatever the step, the ledger it leaves agrees with the counters and the queue it leaves. -/
theorem step_accounts {w t : World} {ledger : Ledger} {action : Action}
    (accounts : Accounts w.tally ledger) (stepped : step w action = some t) :
    Accounts t.tally (w.record ledger action) := by
  cases action with
  | tick elapsed =>
      obtain ⟨-, rfl⟩ := guardedBy_eq_some.mp stepped
      exact accounts
  | tryAdmit =>
      obtain ⟨-, rfl⟩ := guardedBy_eq_some.mp stepped
      unfold World.tryAdmit
      split
      · rename_i taken
        rw [World.takeFreeSlot_tally taken]
        exact accounts.later (Nat.le_succ _)
      · exact accounts
  | admitOrEnqueue band peer =>
      obtain ⟨-, rfl⟩ := guardedBy_eq_some.mp stepped
      cases taken : w.sched.takeFreeSlot band w.clock with
      | some admitted =>
          simp only [World.admitOrEnqueue, World.record, taken]
          rw [World.takeFreeSlot_tally taken]
          exact accounts.later (Nat.le_succ _)
      | none =>
          simp only [World.admitOrEnqueue, World.record, taken]
          rw [World.enqueue_tally]
          exact accounts.join
  | enqueue band peer =>
      obtain ⟨-, rfl⟩ := guardedBy_eq_some.mp stepped
      rw [World.enqueue_tally]
      exact accounts.join
  | storeCapacity capacity =>
      obtain ⟨-, rfl⟩ := guardedBy_eq_some.mp stepped
      exact accounts
  | lockCapacity capacity =>
      obtain ⟨-, rfl⟩ := guardedBy_eq_some.mp stepped
      unfold World.lockCapacity
      split <;> exact accounts
  | setBandLimits limits =>
      cases stepped
      exact accounts
  | pause =>
      obtain ⟨-, rfl⟩ := guardedBy_eq_some.mp stepped
      exact accounts
  | dropGuard =>
      obtain ⟨-, rfl⟩ := guardedBy_eq_some.mp stepped
      exact accounts
  | turn =>
      obtain ⟨holder, holds, rfl⟩ := Option.map_eq_some_iff.mp stepped
      exact World.turn_accounts accounts holds
  | dropPermit slot =>
      obtain ⟨-, rfl⟩ := guardedBy_eq_some.mp stepped
      rw [World.release_tally]
      exact accounts
  | claim id =>
      obtain ⟨ticket, -, found⟩ := Option.bind_eq_some_iff.mp stepped
      obtain ⟨slot, -, guarded⟩ := Option.bind_eq_some_iff.mp found
      obtain ⟨-, rfl⟩ := guardedBy_eq_some.mp guarded
      exact accounts
  | timedOut id =>
      obtain ⟨ticket, -, guarded⟩ := Option.bind_eq_some_iff.mp stepped
      obtain ⟨-, rfl⟩ := guardedBy_eq_some.mp guarded
      exact accounts
  | dropTicket id =>
      obtain ⟨ticket, found, guarded⟩ := Option.bind_eq_some_iff.mp stepped
      obtain ⟨-, rfl⟩ := guardedBy_eq_some.mp guarded
      exact World.dropTicket_accounts accounts found
  | closeTicket id =>
      obtain ⟨ticket, -, guarded⟩ := Option.bind_eq_some_iff.mp stepped
      obtain ⟨-, rfl⟩ := guardedBy_eq_some.mp guarded
      rw [World.closeTicket_tally]
      exact accounts
  | describe slot id model promptTokens =>
      obtain ⟨-, rfl⟩ := guardedBy_eq_some.mp stepped
      exact accounts
  | inBand slot band =>
      obtain ⟨-, rfl⟩ := guardedBy_eq_some.mp stepped
      exact accounts

/-- In every interleaving, every request that was queued is waiting, timed out, abandoned or was
handed a slot, just one of these, and the counters say how many there are of each. -/
theorem queue_accounts {capacity clock : Nat} {config : SchedulerConfig} {w : World}
    {ledger : Ledger}
    (reached : Reaches recordedStep Always (World.new capacity config clock, ⟨[], []⟩) (w, ledger)) :
    w.sched.counters.queued = w.waiting.length + w.sched.counters.timedOut +
        w.sched.counters.abandoned + (ledger.ids .handedOver).length ∧
      w.sched.counters.queued = ledger.queued.length ∧
      w.sched.counters.timedOut = (ledger.ids .timedOut).length ∧
      w.sched.counters.abandoned = (ledger.ids .abandoned).length ∧
      ledger.queued.Nodup ∧
      ledger.queued.Perm (w.waiting.map Waiter.id ++ ledger.ids .timedOut ++
        ledger.ids .abandoned ++ ledger.ids .handedOver) := by
  have accounts : Accounts w.tally ledger := by
    apply reached.invariant fun state => Accounts state.1.tally state.2
    · exact ⟨rfl, rfl, rfl, List.Perm.refl _, List.nodup_nil, by simp⟩
    · intro before action after _ kept stepped
      obtain ⟨next, moved, rfl⟩ := Option.map_eq_some_iff.mp stepped
      exact step_accounts kept moved
  have total := accounts.total
  rw [World.tally, List.length_map] at total
  refine ⟨total, accounts.queued, accounts.timedOut, accounts.abandoned, accounts.once, ?_⟩
  rw [List.append_assoc, List.append_assoc]
  refine accounts.classes.trans (List.Perm.append_left _ ?_)
  rw [← List.append_assoc]
  exact ledger.settled_perm

/-- One request runs and four queue: one times out, one is abandoned, one is handed the slot. -/
def fourQueued : List Action :=
  [.admitOrEnqueue .bulk ⟨none⟩, .enqueue .bulk ⟨none⟩, .enqueue .bulk ⟨none⟩,
    .enqueue .bulk ⟨none⟩, .enqueue .bulk ⟨none⟩, .timedOut 3, .dropTicket 3, .dropTicket 4,
    .dropPermit 1, .turn]

theorem queue_accounts_four_queued :
    ∃ w ledger, run recordedStep (World.new 1 .default 0, ⟨[], []⟩) fourQueued = some (w, ledger) ∧
      w.waiting.map Waiter.id = [5] ∧ ledger.ids .timedOut = [3] ∧ ledger.ids .abandoned = [4] ∧
      ledger.ids .handedOver = [2] ∧
      w.sched.counters.queued = w.waiting.length + w.sched.counters.timedOut +
        w.sched.counters.abandoned + (ledger.ids .handedOver).length := by
  have classes : ((run recordedStep (World.new 1 .default 0, ⟨[], []⟩) fourQueued).map
      fun state => (state.1.waiting.map Waiter.id, state.2.ids .timedOut, state.2.ids .abandoned,
        state.2.ids .handedOver)) = some ([5], [3], [4], [2]) := by decide +kernel
  obtain ⟨⟨w, ledger⟩, ran, same⟩ := Option.map_eq_some_iff.mp classes
  simp only [Prod.mk.injEq] at same
  have accounts := queue_accounts (run_reaches ran)
  exact ⟨w, ledger, ran, same.1, same.2.1, same.2.2.1, same.2.2.2, accounts.1⟩

end Lightweight.Gateway
