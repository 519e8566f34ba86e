import Lightweight.Transition
import Mathlib.Algebra.Order.Field.Basic
import Mathlib.Algebra.Field.Rat
import Mathlib.Algebra.Order.Ring.Rat
import Mathlib.Data.List.Basic
import Mathlib.Order.Basic

/-! The panel's polls (`frontend/src/hooks/usePoll.ts`) of a server that goes on meanwhile, and the use
of the processor that the panel works out from what they show (`frontend/src/hooks/useSeries.ts`) as
the server would (`lightweight-system-info/src/load.rs`). Rounding is left out. -/

namespace Lightweight.Panel

open Transition

variable {σ ε : Type}

/-- What the hook keeps. -/
structure Poll (σ ε : Type) where
  data : Option σ
  error : Option ε
  loading : Bool
  generation : Nat
deriving DecidableEq, Repr

/-- The hook, the server as it is, what the server was when each fetch under way was sent, and every
reading that was shown. -/
structure PollWorld (σ ε : Type) where
  poll : Poll σ ε
  server : σ
  flights : Nat → Option σ
  shown : List σ

inductive PollAction (σ ε : Type) where
  | advance (server : σ)
  /-- The timer, a refresh or the effect itself. -/
  | run
  | answer (mine : Nat) (reading : σ)
  | fail (mine : Nat) (error : ε)
deriving DecidableEq, Repr

namespace PollWorld

def start (server : σ) : PollWorld σ ε where
  poll := { data := none, error := none, loading := true, generation := 0 }
  server := server
  flights := fun _ => none
  shown := []

def land (world : PollWorld σ ε) (mine : Nat) : PollWorld σ ε :=
  { world with flights := Function.update world.flights mine none }

/-- The newest fetch has answered. -/
def present (world : PollWorld σ ε) (reading : σ) : PollWorld σ ε :=
  { world with
    poll := { world.poll with data := some reading, error := none, loading := false }
    shown := world.shown ++ [reading] }

/-- The newest fetch has failed. -/
def report (world : PollWorld σ ε) (error : ε) : PollWorld σ ε :=
  { world with poll := { world.poll with error := some error, loading := false } }

end PollWorld

/-- A reading is of the server at some time while its fetch is under way, or of parts of it at several
such times. -/
def pollStep [Preorder σ] [DecidableLE σ] (world : PollWorld σ ε) :
    PollAction σ ε → Option (PollWorld σ ε)
  | .advance server => if world.server ≤ server then some { world with server } else none
  | .run =>
      let mine := world.poll.generation + 1
      some { world with
        poll := { world.poll with generation := mine }
        flights := Function.update world.flights mine (some world.server) }
  | .answer mine reading =>
      match world.flights mine with
      | none => none
      | some asked =>
          if asked ≤ reading ∧ reading ≤ world.server then
            if mine = world.poll.generation then some ((world.land mine).present reading)
            else some (world.land mine)
          else none
  | .fail mine error =>
      match world.flights mine with
      | none => none
      | some _ =>
          if mine = world.poll.generation then some ((world.land mine).report error)
          else some (world.land mine)

section Order

variable [Preorder σ]

/-- No reading that was shown is ahead of the one the newest fetch may yet bring. -/
structure PollWorld.Inv (world : PollWorld σ ε) : Prop where
  ascending : world.shown.Pairwise (· ≤ ·)
  past : ∀ reading ∈ world.shown, reading ≤ world.server
  newest : ∀ asked, world.flights world.poll.generation = some asked →
    ∀ reading ∈ world.shown, reading ≤ asked
  last : world.poll.data = world.shown.getLast?

theorem PollWorld.start_inv (server : σ) : (PollWorld.start server : PollWorld σ ε).Inv where
  ascending := List.Pairwise.nil
  past _ none_ := absurd none_ List.not_mem_nil
  newest _ none_ := nomatch none_
  last := rfl

theorem PollWorld.Inv.land {world : PollWorld σ ε} (inv : world.Inv) (mine : Nat) :
    (world.land mine).Inv where
  ascending := inv.ascending
  past := inv.past
  newest asked there := by
    have there : Function.update world.flights mine none world.poll.generation = some asked := there
    by_cases same : world.poll.generation = mine
    · rw [same, Function.update_self] at there
      cases there
    · rw [Function.update_of_ne same] at there
      exact inv.newest asked there
  last := inv.last

theorem PollWorld.Inv.present {world : PollWorld σ ε} (inv : world.Inv) {asked reading : σ}
    (there : world.flights world.poll.generation = some asked) (after : asked ≤ reading)
    (before : reading ≤ world.server) :
    ((world.land world.poll.generation).present reading).Inv where
  ascending := by
    refine List.pairwise_append.mpr ⟨inv.ascending, List.pairwise_singleton _ _, ?_⟩
    intro earlier member later same
    rw [List.mem_singleton.mp same]
    exact (inv.newest asked there earlier member).trans after
  past earlier member := by
    rcases List.mem_append.mp member with shown | new
    · exact inv.past earlier shown
    · rw [List.mem_singleton.mp new]
      exact before
  newest other found := by
    have found : Function.update world.flights world.poll.generation none world.poll.generation =
        some other := found
    rw [Function.update_self] at found
    cases found
  last := List.getLast?_concat.symm

theorem pollStep_inv [DecidableLE σ] {world next : PollWorld σ ε} {action : PollAction σ ε}
    (inv : world.Inv) (stepped : pollStep world action = some next) : next.Inv := by
  cases action with
  | advance server =>
      obtain ⟨grows, ⟨⟩⟩ := Option.ite_none_right_eq_some.mp stepped
      exact { inv with past := fun reading member => (inv.past reading member).trans grows }
  | run =>
      cases stepped
      refine { inv with newest := ?_ }
      intro asked there reading member
      have there : Function.update world.flights (world.poll.generation + 1) (some world.server)
          (world.poll.generation + 1) = some asked := there
      rw [Function.update_self] at there
      cases there
      exact inv.past reading member
  | answer mine reading =>
      rw [pollStep] at stepped
      split at stepped
      · cases stepped
      · rename_i asked there
        obtain ⟨⟨after, before⟩, shown⟩ := Option.ite_none_right_eq_some.mp stepped
        split at shown
        · rename_i same
          cases shown
          subst same
          exact inv.present there after before
        · cases shown
          exact inv.land mine
  | fail mine error =>
      rw [pollStep] at stepped
      split at stepped
      · cases stepped
      · have landed := inv.land mine
        split at stepped
        · cases stepped
          exact { landed with }
        · cases stepped
          exact landed

/-- However late the answers come, and in whatever order, what the panel shows of a server that only
goes forward never goes back, and is the last of what it has shown. -/
theorem poll_never_back [DecidableLE σ] {server : σ} {world : PollWorld σ ε}
    (reached : Reaches pollStep Always (PollWorld.start server) world) :
    world.shown.Pairwise (· ≤ ·) ∧ world.poll.data = world.shown.getLast? := by
  have inv : world.Inv := by
    refine reached.invariant PollWorld.Inv (PollWorld.start_inv server) ?_
    intro before action after _ kept stepped
    exact pollStep_inv kept stepped
  exact ⟨inv.ascending, inv.last⟩

end Order

/-- The first fetch answers behind the second. -/
def overtaken : List (PollAction Nat Unit) :=
  [.run, .advance 3, .run, .answer 2 3, .answer 1 1, .advance 5, .run, .answer 3 5]

theorem poll_never_back_overtaken :
    ∃ world, run pollStep (PollWorld.start 0) overtaken = some world ∧ world.shown = [3, 5] ∧
      world.shown.Pairwise (· ≤ ·) ∧ world.poll.data = world.shown.getLast? := by
  refine ⟨_, rfl, rfl, ?_⟩
  exact poll_never_back (run_reaches (rfl : run pollStep (PollWorld.start 0) overtaken = some _))

/-! ### The use of the processor -/

/-- Ticks since boot. Those spent idle are among them all. -/
structure CpuTimes where
  total : Nat
  idle : Nat
  idle_le : idle ≤ total
deriving DecidableEq

namespace CpuTimes

def busy (times : CpuTimes) : Nat := times.total - times.idle

/-- Both kinds of ticks only grow in number. -/
instance : Preorder CpuTimes where
  le earlier later := earlier.idle ≤ later.idle ∧ earlier.busy ≤ later.busy
  le_refl _ := ⟨le_refl _, le_refl _⟩
  le_trans _ _ _ first second := ⟨first.1.trans second.1, first.2.trans second.2⟩

instance : DecidableLE CpuTimes := fun earlier later =>
  inferInstanceAs (Decidable (earlier.idle ≤ later.idle ∧ earlier.busy ≤ later.busy))

/-- The server's own share, of two readings: a subtraction that would be negative gives none. -/
def utilizationSince (times earlier : CpuTimes) : Option Rat :=
  if times.total < earlier.total ∨ times.busy < earlier.busy then none
  else if times.total = earlier.total then none
  else some (max 0 (min 1 (((times.busy - earlier.busy : Nat) : Rat) /
    ((times.total - earlier.total : Nat) : Rat))))

end CpuTimes

/-- What the hook keeps: the reading before, and what it shows. -/
structure Utilization where
  previous : Option CpuTimes
  utilization : Option Rat

/-- The hook's effect, when there is a new reading. -/
def Utilization.read (state : Utilization) (times : CpuTimes) : Utilization :=
  match state.previous with
  | none => { state with previous := some times }
  | some before =>
      let elapsed : Int := times.total - before.total
      let busy : Int := times.total - times.idle - (before.total - before.idle)
      if elapsed ≤ 0 ∨ busy < 0 then { previous := some times, utilization := none }
      else { previous := some times, utilization := some (min 1 (max 0 ((busy : Rat) / elapsed))) }

def useUtilization (readings : List CpuTimes) : Utilization :=
  readings.foldl Utilization.read { previous := none, utilization := none }

theorem previous_useUtilization (readings : List CpuTimes) :
    (useUtilization readings).previous = readings.getLast? := by
  have step (state : Utilization) (times : CpuTimes) : (state.read times).previous = some times := by
    rw [Utilization.read]
    cases state.previous with
    | none => rfl
    | some before =>
        dsimp only
        split <;> rfl
  rcases List.eq_nil_or_concat readings with rfl | ⟨front, times, rfl⟩
  · rfl
  · rw [List.concat_eq_append, useUtilization, List.foldl_concat, step, List.getLast?_concat]

theorem clamp_comm (share : Rat) : min 1 (max 0 share) = max 0 (min 1 share) := by
  rcases le_total 0 share with low | low
  · rw [max_eq_right low]
    exact (max_eq_right (le_min zero_le_one low)).symm
  · rw [max_eq_left low, min_eq_right zero_le_one]
    exact (max_eq_left ((min_le_right 1 share).trans low)).symm

/-- The panel and the server agree about any two readings. -/
theorem read_utilizationSince {state : Utilization} {before : CpuTimes}
    (previous : state.previous = some before) (times : CpuTimes) :
    (state.read times).utilization = times.utilizationSince before := by
  have idle := times.idle_le
  have idleBefore := before.idle_le
  rw [Utilization.read, previous, CpuTimes.utilizationSince]
  dsimp only
  by_cases back : times.total < before.total ∨ times.busy < before.busy
  · rw [if_pos back, if_pos]
    rw [CpuTimes.busy, CpuTimes.busy] at back
    omega
  · rw [if_neg back]
    rw [CpuTimes.busy, CpuTimes.busy, not_or, not_lt, not_lt] at back
    by_cases same : times.total = before.total
    · rw [if_pos same, if_pos]
      omega
    · rw [if_neg same, if_neg (by omega)]
      have busy : ((times.total : Int) - times.idle - (before.total - before.idle) : Int) =
          ((times.busy - before.busy : Nat) : Int) := by
        rw [CpuTimes.busy, CpuTimes.busy]
        omega
      have elapsed : ((times.total : Int) - before.total : Int) =
          ((times.total - before.total : Nat) : Int) := by omega
      rw [busy, elapsed, Int.cast_natCast, Int.cast_natCast, clamp_comm]

def booted : CpuTimes := ⟨100, 60, by decide⟩

def worked : CpuTimes := ⟨140, 70, by decide⟩

def twoPolls : List (PollAction CpuTimes Unit) :=
  [.run, .answer 1 booted, .advance worked, .run, .answer 2 worked]

end Lightweight.Panel
