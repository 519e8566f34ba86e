import Lightweight.SelectionSort
import Lightweight.Gateway.SchedulerSlots

/-! Where a waiting request stands: the position its ticket reports, the operator's roster, and the
order in which the scheduler takes the waiters, at one instant. -/

namespace Lightweight.Gateway

open Transition

def Band.asStr : Band → String
  | .interactive => "interactive"
  | .bulk => "bulk"

/-- Casting milliseconds to `u64` keeps their low 64 bits. -/
def millisSince (now earlier : Nat) : Nat := (now - earlier) / 1000000 % UInt64.size

structure RunningRequest where
  id : Option String
  model : Option String
  band : String
  runningMs : Nat
  promptTokens : Nat
deriving DecidableEq, Repr

structure WaitingRequest where
  ticket : Nat
  band : String
  waitedMs : Nat
  position : Nat
deriving DecidableEq, Repr

structure Roster where
  capacity : Nat
  running : List RunningRequest
  waiting : List WaitingRequest
deriving DecidableEq, Repr

namespace Scheduler

/-- The key of a waiter at the instant. -/
def rankAt (s : Scheduler) (now : Nat) (waiter : Waiter) : Nat ×ₗ (Nat ×ₗ Nat) :=
  rank waiter now s.config.starvationCeiling

/-- How many waiters have a lesser key, as a `u32`. -/
def countBefore (s : Scheduler) (now : Nat) (mine : Nat ×ₗ (Nat ×ₗ Nat)) : Nat :=
  asU32 (s.inner.waiting.filter fun other => decide (s.rankAt now other < mine)).length

/-- `Ticket::position`: none for a ticket that is not in the queue. -/
def position (s : Scheduler) (id now : Nat) : Option Nat :=
  (s.inner.waiting.find? fun waiter => waiter.id == id).map fun waiter =>
    s.countBefore now (s.rankAt now waiter)

def waitingRequest (s : Scheduler) (now : Nat) (waiter : Waiter) : WaitingRequest where
  ticket := waiter.id
  band := waiter.band.asStr
  waitedMs := millisSince now waiter.enqueued
  position := s.countBefore now (s.rankAt now waiter)

def runningRequest (now : Nat) (running : Running) : RunningRequest where
  id := running.idAndModel.map Prod.fst
  model := running.idAndModel.map Prod.snd
  band := running.band.asStr
  runningMs := millisSince now running.started
  promptTokens := running.promptTokens

/-- Who holds a slot and who is queued, the waiters by position. -/
def roster (s : Scheduler) (now : Nat) : Roster where
  capacity := s.capacity
  running := s.inner.running.map (runningRequest now)
  waiting := sortByKey WaitingRequest.position (s.inner.waiting.map (s.waitingRequest now))

/-- The waiters that so many calls of `take_next` return, one after another at one instant. -/
def taken (now : Nat) : Nat → Scheduler → List Waiter
  | 0, _ => []
  | calls + 1, s =>
      match s.takeNext now with
      | none => []
      | some (waiter, rest) => waiter :: taken now calls rest

end Scheduler

section Order

variable (s : Scheduler) (now : Nat)

/-- Taken one after another, the waiters come sorted by rank, ties as they are queued. -/
theorem taken_eq (calls : Nat) (enough : s.inner.waiting.length ≤ calls) :
    s.taken now calls = sortByKey (s.rankAt now) s.inner.waiting := by
  induction calls generalizing s with
  | zero =>
      rw [List.eq_nil_of_length_eq_zero (Nat.le_zero.mp enough)]
      rfl
  | succ calls ih =>
      rw [Scheduler.taken]
      cases next : s.takeNext now with
      | none =>
          rw [Scheduler.takeNext_eq_none.mp next]
          rfl
      | some picked =>
          obtain ⟨waiter, rest⟩ := picked
          obtain ⟨front, back, found, whole, inner, _, config⟩ := Scheduler.takeNext_eq_some next
          have ranks : rest.rankAt now = s.rankAt now := by
            funext other
            rw [Scheduler.rankAt, config, Scheduler.rankAt]
          have fewer : rest.inner.waiting.length ≤ calls := by
            rw [whole, List.length_append, List.length_cons] at enough
            rw [inner, List.length_append]
            omega
          dsimp only
          rw [ih rest fewer, ranks, inner]
          exact (sortByKey_minByKey found).symm

theorem countBefore_eq (waiter : Waiter) : s.countBefore now (s.rankAt now waiter) =
    asU32 (aheadOf (s.rankAt now) s.inner.waiting waiter) := by
  rw [Scheduler.countBefore, aheadOf, List.countP_eq_length_filter]

/-- While the count fits its width, it is the number of waiters ahead. -/
theorem countBefore_few (few : s.inner.waiting.length ≤ UInt32.size) {waiter : Waiter}
    (queued : waiter ∈ s.inner.waiting) : s.countBefore now (s.rankAt now waiter) =
      aheadOf (s.rankAt now) s.inner.waiting waiter := by
  rw [countBefore_eq, asU32, Nat.mod_eq_of_lt]
  exact (aheadOf_lt_length queued).trans_le few

/-- A ticket of the queue finds its own waiter. -/
theorem position_waiter (ids : (s.inner.waiting.map Waiter.id).Nodup) {waiter : Waiter}
    (queued : waiter ∈ s.inner.waiting) :
    s.position waiter.id now = some (s.countBefore now (s.rankAt now waiter)) := by
  have found : (s.inner.waiting.find? fun other => other.id == waiter.id) = some waiter := by
    cases search : s.inner.waiting.find? fun other => other.id == waiter.id with
    | none =>
        rw [List.find?_eq_none] at search
        exact absurd (beq_self_eq_true waiter.id) (search waiter queued)
    | some other =>
        have same : other.id = waiter.id := by simpa using List.find?_some search
        rw [List.inj_on_of_nodup_map ids (List.mem_of_find?_eq_some search) queued same]
  rw [Scheduler.position, found]
  rfl

/-- Waiters that came at different instants have different ranks. -/
theorem ranks_distinct (instants : (s.inner.waiting.map Waiter.enqueued).Nodup) :
    (s.inner.waiting.map (s.rankAt now)).Nodup := by
  have came : (s.inner.waiting.map (s.rankAt now)).map (fun key => (ofLex (ofLex key).2).2) =
      s.inner.waiting.map Waiter.enqueued := by
    rw [List.map_map]
    rfl
  rw [← came] at instants
  exact instants.of_map _

/-- The waiters in the order they are taken, each with the number of those before it. -/
theorem ahead_in_order (instants : (s.inner.waiting.map Waiter.enqueued).Nodup) :
    (sortByKey (s.rankAt now) s.inner.waiting).map
        (aheadOf (s.rankAt now) s.inner.waiting) = List.range s.inner.waiting.length := by
  have same := sortByKey_perm (s.rankAt now) s.inner.waiting
  have counted := aheadOf_sorted (sortByKey_strict (ranks_distinct s now instants))
  rw [same.length_eq] at counted
  rw [← counted]
  exact List.map_congr_left fun waiter _ => aheadOf_perm same.symm waiter

/-- Of waiters that came at different instants, the one taken at place `k` reports `k`, as far as a
`u32` can. -/
theorem served_position (ids : (s.inner.waiting.map Waiter.id).Nodup)
    (instants : (s.inner.waiting.map Waiter.enqueued).Nodup) {k : Nat}
    (inside : k < s.inner.waiting.length) :
    ∃ waiter, (s.taken now s.inner.waiting.length)[k]? = some waiter ∧
      waiter ∈ s.inner.waiting ∧ s.position waiter.id now = some (asU32 k) := by
  have order := ahead_in_order s now instants
  have placed : k < (sortByKey (s.rankAt now) s.inner.waiting).length := by
    rw [(sortByKey_perm _ _).length_eq]
    exact inside
  have ahead := congrArg (fun counts => counts[k]?) order
  simp only [List.getElem?_map, List.getElem?_eq_getElem placed, Option.map_some,
    List.getElem?_range inside, Option.some.injEq] at ahead
  have queued := mem_sortByKey.mp (List.getElem_mem placed)
  refine ⟨_, ?_, queued, ?_⟩
  · rw [taken_eq s now _ (Nat.le_refl _)]
    exact List.getElem?_eq_getElem placed
  · rw [position_waiter s now ids queued, countBefore_eq, ahead]

/-- The roster lists the waiters as they are taken. -/
theorem roster_waiting (few : s.inner.waiting.length ≤ UInt32.size) :
    (s.roster now).waiting =
      (s.taken now s.inner.waiting.length).map (s.waitingRequest now) := by
  rw [taken_eq s now _ (Nat.le_refl _)]
  symm
  apply List.map_insertionSort (fun a b => s.rankAt now a ≤ s.rankAt now b)
    (fun a b => WaitingRequest.position a ≤ WaitingRequest.position b)
  intro a here b there
  rw [aheadOf_le_iff here there]
  simp only [Scheduler.waitingRequest, countBefore_few s now few here,
    countBefore_few s now few there]

/-- The waiters taken one after another at one instant are those of the queue, in the order of the
positions that their tickets and the roster report at that instant; and of waiters that came at
different instants, the one reported at position `k` is taken at place `k`. Positions are `u32`. -/
theorem positions_in_service_order (ids : (s.inner.waiting.map Waiter.id).Nodup)
    (few : s.inner.waiting.length ≤ UInt32.size) :
    (s.taken now s.inner.waiting.length).Perm s.inner.waiting ∧
    ∃ positions : List Nat,
      (s.taken now s.inner.waiting.length).map (fun waiter => s.position waiter.id now) =
          positions.map some ∧
      (s.roster now).waiting.map WaitingRequest.ticket =
          (s.taken now s.inner.waiting.length).map Waiter.id ∧
      (s.roster now).waiting.map WaitingRequest.position = positions ∧
      positions.Pairwise (· ≤ ·) ∧
      ((s.inner.waiting.map Waiter.enqueued).Nodup →
        positions = List.range s.inner.waiting.length) := by
  have order := taken_eq s now s.inner.waiting.length (Nat.le_refl _)
  have counted : ∀ waiter ∈ sortByKey (s.rankAt now) s.inner.waiting,
      s.countBefore now (s.rankAt now waiter) =
        aheadOf (s.rankAt now) s.inner.waiting waiter := by
    intro waiter member
    exact countBefore_few s now few (mem_sortByKey.mp member)
  rw [roster_waiting s now few, order]
  refine ⟨sortByKey_perm _ _, (sortByKey (s.rankAt now) s.inner.waiting).map
    (aheadOf (s.rankAt now) s.inner.waiting), ?_, ?_, ?_, ?_, ahead_in_order s now⟩
  · rw [List.map_map]
    apply List.map_congr_left
    intro waiter member
    rw [position_waiter s now ids (mem_sortByKey.mp member), counted waiter member]
    rfl
  · rw [List.map_map]
    rfl
  · rw [List.map_map]
    exact List.map_congr_left counted
  · rw [List.pairwise_map]
    apply (sortByKey_sorted (s.rankAt now) s.inner.waiting).imp_of_mem
    intro a b here there below
    exact (aheadOf_le_iff (mem_sortByKey.mp here) (mem_sortByKey.mp there)).mp below

end Order

/-- The queue of any reached state can be asked: every waiter is under its own number. -/
theorem reached_ids {ok : World → Action → Prop} {capacity clock : Nat}
    {config : SchedulerConfig} {w : World}
    (reached : Reaches step ok (World.new capacity config clock) w) :
    (w.sched.inner.waiting.map Waiter.id).Nodup :=
  (reached_sound reached).waiterIds

/-- One slot, and two requests of one caller behind a third of another. -/
theorem positions_in_service_order_two_callers :
    ∃ w : World, Reaches step Always (World.new 1 .default 0) w ∧
      w.sched.inner.waiting.length = 3 ∧
      (w.sched.roster w.clock).waiting.map WaitingRequest.ticket =
        (w.sched.taken w.clock 3).map Waiter.id := by
  have ran : (run step (World.new 1 .default 0)
      [.tryAdmit, .admitOrEnqueue .bulk ⟨none⟩, .tick 1, .admitOrEnqueue .bulk ⟨none⟩, .tick 1,
        .admitOrEnqueue .interactive ⟨some (.v4 1)⟩]).any (fun w =>
          decide (w.sched.inner.waiting.length = 3)) = true := by decide
  obtain ⟨w, ran, three⟩ := (Option.any_eq_true _ _).mp ran
  have reached := run_reaches ran
  have length : w.sched.inner.waiting.length = 3 := of_decide_eq_true three
  have few : w.sched.inner.waiting.length ≤ UInt32.size := by
    rw [length]
    decide
  obtain ⟨_, positions, _, tickets, _⟩ :=
    positions_in_service_order w.sched w.clock (reached_ids reached) few
  rw [length] at tickets
  exact ⟨w, reached, length, tickets⟩

/-- More requests than a `u32` counts, each of its own caller and at its own instant, behind one that
runs. -/
def longQueue : Scheduler :=
  { Scheduler.new 1 .default with
    inner :=
      { running := [⟨1, .bulk, 0, none, 0⟩]
        waiting := (List.range (UInt32.size + 1)).map fun i =>
          ⟨i + 2, .bulk, ⟨some (.v6 (BitVec.ofNat 128 i))⟩, 0, i⟩
        nextId := UInt32.size + 2
        paused := false } }

theorem longQueue_ids : (longQueue.inner.waiting.map Waiter.id).Nodup := by
  have same : longQueue.inner.waiting.map Waiter.id =
      (List.range (UInt32.size + 1)).map (· + 2) := by
    rw [longQueue, List.map_map]
    rfl
  rw [same]
  exact List.nodup_range.map fun a b equal => Nat.add_right_cancel equal

theorem longQueue_instants : (longQueue.inner.waiting.map Waiter.enqueued).Nodup := by
  have same : longQueue.inner.waiting.map Waiter.enqueued = List.range (UInt32.size + 1) := by
    rw [longQueue, List.map_map]
    exact List.map_id _
  rw [same]
  exact List.nodup_range

/-- The request served last of all reports that it is next. -/
theorem last_reports_next :
    (longQueue.inner.waiting.map Waiter.id).Nodup ∧
    (longQueue.inner.waiting.map Waiter.enqueued).Nodup ∧
    longQueue.inner.waiting.length = UInt32.size + 1 ∧
    ∃ last, (longQueue.taken 0 longQueue.inner.waiting.length)[UInt32.size]? = some last ∧
      longQueue.position last.id 0 = some 0 := by
  have length : longQueue.inner.waiting.length = UInt32.size + 1 := by
    rw [longQueue, List.length_map, List.length_range]
  obtain ⟨last, place, _, reported⟩ := served_position longQueue 0 longQueue_ids
    longQueue_instants (k := UInt32.size) (by omega)
  refine ⟨longQueue_ids, longQueue_instants, length, last, place, ?_⟩
  rw [reported, asU32, Nat.mod_self]

end Lightweight.Gateway
