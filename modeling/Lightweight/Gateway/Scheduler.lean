import Mathlib.Data.Prod.Lex
import Mathlib.Data.List.Basic
import Lightweight.MinByKey

/-! The gateway's scheduler (`lightweight-gateway/src/scheduler.rs`): its data and the functions
that run under the queue lock. Instants and durations are nanoseconds; identifiers count from one. -/

namespace Lightweight.Gateway

inductive IpAddr where
  | v4 (address : BitVec 32)
  | v6 (address : BitVec 128)
  deriving DecidableEq, Repr

/-- `none` is a request that arrived with no connection information. -/
structure PeerKey where
  address : Option IpAddr
  deriving DecidableEq, Repr

structure BandLimits where
  promptTokens : Nat
  outputTokens : Nat
  deriving DecidableEq, Repr

def clamp (value low high : Nat) : Nat := min (max value low) high

def BandLimits.forContext (nCtx : Nat) : BandLimits :=
  ⟨clamp (nCtx / 8) 512 1024, clamp (nCtx / 32) 128 256⟩

def BandLimits.default : BandLimits := ⟨1024, 256⟩

inductive Band where
  | interactive
  | bulk
  deriving DecidableEq, Repr

def Band.default : Band := .bulk

def Band.classify (promptTokens : Nat) (requestedMaxTokens : Option Nat) (limits : BandLimits) :
    Band :=
  if promptTokens > limits.promptTokens then .bulk
  else
    match requestedMaxTokens with
    | some budget => if budget > limits.outputTokens then .bulk else .interactive
    | none => .interactive

def Band.tier : Band → Nat
  | .interactive => 1
  | .bulk => 2

structure SchedulerConfig where
  interactive : BandLimits
  starvationCeiling : Nat
  deriving DecidableEq, Repr

def SchedulerConfig.default : SchedulerConfig := ⟨.default, 60 * 1000000000⟩

structure Counters where
  admittedImmediately : Nat
  queued : Nat
  timedOut : Nat
  abandoned : Nat
  overtakes : Nat
  waitMsTotal : Nat
  waitMsMax : Nat
  deriving DecidableEq, Repr

def Counters.default : Counters := ⟨0, 0, 0, 0, 0, 0, 0⟩

/-- The sending half of the waiter's channel is the one whose receiver the ticket of the same
`id` holds. -/
structure Waiter where
  id : Nat
  band : Band
  peer : PeerKey
  round : Nat
  enqueued : Nat
  deriving DecidableEq, Repr

structure Running where
  id : Nat
  band : Band
  started : Nat
  idAndModel : Option (String × String)
  promptTokens : Nat
  deriving DecidableEq, Repr

structure Inner where
  running : List Running
  waiting : List Waiter
  nextId : Nat
  paused : Bool
  deriving DecidableEq, Repr

def Inner.default : Inner := ⟨[], [], 0, false⟩

/-- `bandLimits` are the two live ceilings, which start as the configured ones. -/
structure Scheduler where
  capacity : Nat
  config : SchedulerConfig
  bandLimits : BandLimits
  inner : Inner
  counters : Counters
  deriving DecidableEq, Repr

def Scheduler.new (capacity : Nat) (config : SchedulerConfig) : Scheduler :=
  ⟨max capacity 1, config, config.interactive, .default, .default⟩

def Scheduler.running (s : Scheduler) : List Running := s.inner.running
def Scheduler.waiting (s : Scheduler) : List Waiter := s.inner.waiting
def Scheduler.paused (s : Scheduler) : Bool := s.inner.paused

/-- Casting a count to `u32` keeps its low 32 bits. -/
def asU32 (count : Nat) : Nat := count % UInt32.size

def agedOut (waiter : Waiter) (now ceiling : Nat) : Bool := decide (now - waiter.enqueued ≥ ceiling)

/-- The key `take_next` minimises: starvation tier, round, arrival. -/
def rank (waiter : Waiter) (now ceiling : Nat) : Nat ×ₗ (Nat ×ₗ Nat) :=
  let tier := if agedOut waiter now ceiling then 0 else waiter.band.tier
  let round := if agedOut waiter now ceiling then 0 else waiter.round
  toLex (tier, toLex (round, waiter.enqueued))

def Scheduler.reserveRunning (s : Scheduler) (band : Band) (now : Nat) : Scheduler × Nat :=
  let id := s.inner.nextId + 1
  ({ s with inner := { s.inner with
      nextId := id, running := s.inner.running ++ [⟨id, band, now, none, 0⟩] } }, id)

def Scheduler.removeRunning (s : Scheduler) (id : Nat) : Scheduler :=
  { s with inner := { s.inner with running := s.inner.running.eraseP fun r => r.id == id } }

def Scheduler.startRunning (s : Scheduler) (band : Band) (now : Nat) : Scheduler × Nat :=
  s.reserveRunning band now

def Scheduler.takeFreeSlot (s : Scheduler) (band : Band) (now : Nat) : Option (Scheduler × Nat) :=
  if !s.inner.paused && decide (s.inner.running.length < s.capacity) && s.inner.waiting.isEmpty then
    let admitted := s.counters.admittedImmediately + 1
    some (({ s with counters := { s.counters with admittedImmediately := admitted } }
      : Scheduler).startRunning band now)
  else none

/-- How many requests of `peer` are waiting. -/
def Inner.waitingOf (inner : Inner) (peer : PeerKey) : Nat :=
  (inner.waiting.filter fun waiter => waiter.peer == peer).length

def Scheduler.pushWaiter (s : Scheduler) (band : Band) (peer : PeerKey) (now : Nat) :
    Scheduler × Waiter :=
  let id := s.inner.nextId + 1
  let waiter : Waiter := ⟨id, band, peer, asU32 (s.inner.waitingOf peer), now⟩
  ({ s with
      inner := { s.inner with nextId := id, waiting := s.inner.waiting ++ [waiter] }
      counters := { s.counters with queued := s.counters.queued + 1 } }, waiter)

/-- Counting who was passed over, and the wait that ends, is part of popping the waiter. -/
def Scheduler.takeNext (s : Scheduler) (now : Nat) : Option (Waiter × Scheduler) :=
  match minByKey (fun waiter => rank waiter now s.config.starvationCeiling) s.inner.waiting with
  | none => none
  | some (front, chosen, back) =>
      let overtaken := (s.inner.waiting.filter fun w => decide (w.enqueued < chosen.enqueued)).length
      let waited := (now - chosen.enqueued) / 1000000
      some (chosen, { s with
        inner := { s.inner with waiting := front ++ back }
        counters := { s.counters with
          overtakes := s.counters.overtakes + overtaken
          waitMsTotal := s.counters.waitMsTotal + waited
          waitMsMax := max s.counters.waitMsMax waited } })

/-- Why a waiter left the queue without a slot. -/
inductive Withdrawal where
  | timedOut
  | abandoned
  deriving DecidableEq, Repr

def Counters.count (c : Counters) : Withdrawal → Counters
  | .timedOut => { c with timedOut := c.timedOut + 1 }
  | .abandoned => { c with abandoned := c.abandoned + 1 }

/-- `none` when the waiter is not in the queue. -/
def Scheduler.withdraw (s : Scheduler) (id : Nat) (reason : Withdrawal) : Option Scheduler :=
  if s.inner.waiting.any fun w => w.id == id then
    some { s with
      inner := { s.inner with waiting := s.inner.waiting.eraseP fun w => w.id == id }
      counters := s.counters.count reason }
  else none

def Scheduler.setBandLimits (s : Scheduler) (limits : BandLimits) : Scheduler :=
  { s with bandLimits := limits }

/-- Apply `change` to the running entry of a slot, if it is there. -/
def Scheduler.updateRunning (s : Scheduler) (slot : Nat) (change : Running → Running) : Scheduler :=
  { s with inner := { s.inner with
      running := s.inner.running.map fun r => if r.id == slot then change r else r } }

def Scheduler.describe (s : Scheduler) (slot : Nat) (id model : String) (promptTokens : Nat) :
    Scheduler :=
  s.updateRunning slot fun r => { r with idAndModel := some (id, model), promptTokens }

def Scheduler.inBand (s : Scheduler) (slot : Nat) (band : Band) : Scheduler :=
  s.updateRunning slot fun r => { r with band }

theorem Scheduler.takeFreeSlot_eq_some {s t : Scheduler} {band : Band} {now slot : Nat}
    (taken : s.takeFreeSlot band now = some (t, slot)) :
    s.inner.paused = false ∧ s.inner.running.length < s.capacity ∧ s.inner.waiting = [] ∧
      slot = s.inner.nextId + 1 ∧ t.capacity = s.capacity ∧ t.config = s.config ∧
      t.inner = { s.inner with
        nextId := slot, running := s.inner.running ++ [⟨slot, band, now, none, 0⟩] } := by
  unfold takeFreeSlot at taken
  split at taken
  · rename_i open'
    simp only [Bool.and_eq_true, Bool.not_eq_true', decide_eq_true_eq, List.isEmpty_iff] at open'
    obtain ⟨⟨running, room⟩, empty⟩ := open'
    simp only [startRunning, reserveRunning, Option.some.injEq, Prod.mk.injEq] at taken
    obtain ⟨rfl, rfl⟩ := taken
    exact ⟨running, room, empty, rfl, rfl, rfl, rfl⟩
  · cases taken

theorem Scheduler.takeFreeSlot_eq_none {s : Scheduler} {band : Band} {now : Nat}
    (refused : s.takeFreeSlot band now = none) :
    s.inner.paused = true ∨ s.capacity ≤ s.inner.running.length ∨ s.inner.waiting ≠ [] := by
  unfold takeFreeSlot at refused
  split at refused
  · cases refused
  · rename_i closed
    simp only [Bool.and_eq_true, Bool.not_eq_true', decide_eq_true_eq, List.isEmpty_iff,
      not_and_or, Bool.not_eq_false, not_lt] at closed
    tauto

theorem Scheduler.takeNext_eq_none {s : Scheduler} {now : Nat} :
    s.takeNext now = none ↔ s.inner.waiting = [] := by
  unfold takeNext
  split
  · rename_i nothing
    exact iff_of_true rfl (minByKey_eq_none.mp nothing)
  · rename_i found
    refine iff_of_false (by simp) fun empty => ?_
    simp [empty, minByKey] at found

/-- What `take_next` leaves behind is the queue without the waiter of least rank. -/
theorem Scheduler.takeNext_eq_some {s t : Scheduler} {now : Nat} {waiter : Waiter}
    (taken : s.takeNext now = some (waiter, t)) :
    ∃ front back,
      minByKey (fun x => rank x now s.config.starvationCeiling) s.inner.waiting =
        some (front, waiter, back) ∧
      s.inner.waiting = front ++ waiter :: back ∧
      t.inner = { s.inner with waiting := front ++ back } ∧
      t.capacity = s.capacity ∧ t.config = s.config := by
  unfold takeNext at taken
  split at taken
  · cases taken
  · rename_i front chosen back found
    simp only [Option.some.injEq, Prod.mk.injEq] at taken
    obtain ⟨rfl, rfl⟩ := taken
    exact ⟨front, back, found, (minByKey_spec found).1, rfl, rfl, rfl⟩

theorem Scheduler.withdraw_eq_none {s : Scheduler} {id : Nat} {reason : Withdrawal}
    (absent : s.withdraw id reason = none) : ∀ x ∈ s.inner.waiting, x.id ≠ id := by
  unfold withdraw at absent
  split at absent
  · cases absent
  · rename_i nobody
    intro x queued same
    exact nobody (List.any_eq_true.mpr ⟨x, queued, by simpa using same⟩)

theorem Scheduler.withdraw_eq_some {s t : Scheduler} {id : Nat} {reason : Withdrawal}
    (left : s.withdraw id reason = some t) :
    (∃ x ∈ s.inner.waiting, x.id = id) ∧ t.capacity = s.capacity ∧ t.config = s.config ∧
      t.inner = { s.inner with waiting := s.inner.waiting.eraseP fun x => x.id == id } := by
  unfold withdraw at left
  split at left
  · rename_i present
    cases left
    exact ⟨by simpa using present, rfl, rfl, rfl⟩
  · cases left

end Lightweight.Gateway
