import Lightweight.Transition

/-! The two supervisors of the desktop shell, the Router's and the gateway's: their calls side by
side, each as far as it is at its last `await`, and the processes that they have started. -/

namespace Lightweight.Desktop

open Transition

inductive Which where
  | router
  | gateway
deriving DecidableEq, Repr

/-- What is on a port. To the gateway's probe all that is no gateway is nothing. -/
inductive PortHolder where
  | router
  | gateway
  | stranger
  | nothing
deriving DecidableEq, Repr

/-- The kinds of both states; `off` is the gateway's `stopped`. -/
inductive Kind where
  | off
  | needsConfig
  | starting
  | running
  | attached
  | conflict
  | failed
deriving DecidableEq, Repr

structure Options where
  port : Nat
  gatewayPort : Option Nat
deriving DecidableEq, Repr

/-- A process that was to be started. One that could not be has an error in place of an exit. -/
structure Child where
  spawned : Bool
  alive : Bool
  /-- Whether its exit or its error has been handled. -/
  told : Bool
deriving DecidableEq, Repr

def Child.end (child : Child) : Child := { child with alive := false }

def Child.tell (child : Child) : Child := { child with told := true }

/-- Where a call waits. What is to be started again after a stop goes with it. -/
inductive Call where
  | identifying (options : Options)
  | checking
  | waiting (child : Nat)
  | stopping (child : Nat) (again : Option Options)
  | killing (child : Nat) (again : Option Options)
  | stopped (options : Options)
  | looking
  | done
deriving DecidableEq, Repr

/-- A supervisor, the processes it has started, the calls so far, and the processes it has
signalled. -/
structure World where
  child : Option Nat
  owned : Bool
  state : Kind
  lastOptions : Option Options
  children : List Child
  calls : List Call
  signalled : List Nat
deriving DecidableEq, Repr

def World.new : World := ⟨none, false, .off, none, [], [], []⟩

/-- What comes of a spawn: an error at once, which may tell of a conflict, or a process, which runs or
has an error to come. -/
inductive Launch where
  | throws (conflict : Bool)
  | starts (runs : Bool)
deriving DecidableEq, Repr

/-- The calls, what they hear where they wait, and what becomes of the processes. An `event` is the
exit or the error of one, as its handler sees it. -/
inductive Action where
  | start (options : Options)
  | stop
  | restart
  | discover
  | answered (call : Nat) (holder : PortHolder) (launch : Launch)
  | checked (call : Nat) (ok : Bool) (launch : Launch)
  | serving (call : Nat)
  | givesUp (call : Nat) (conflict : Bool)
  | exitSeen (call : Nat)
  | graceOver (call : Nat)
  | resume (call : Nat)
  | dies (child : Nat)
  | event (child : Nat)
deriving DecidableEq, Repr

section Calls

variable (which : Which) (world : World)

def World.at (call : Nat) (place : Call) : World :=
  { world with calls := world.calls.set call place }

def World.change (child : Nat) (change : Child → Child) : World :=
  { world with children := world.children.modify child change }

def World.isTold (child : Nat) : Bool := (world.children[child]?).any Child.told

/-- Whether the exit has been handled. A process that could not be started has none. -/
def World.isExited (child : Nat) : Bool :=
  (world.children[child]?).any fun process => process.spawned && process.told

def World.runs (child : Nat) : Bool := (world.children[child]?).any Child.alive

/-- A signal goes to a process whose end is not known yet. -/
def World.signal (child : Nat) : World :=
  if world.isTold child then world else { world with signalled := child :: world.signalled }

/-- What a process does not survive. -/
def World.kill (child : Nat) : World :=
  (world.signal child).change child Child.end

/-- A start up to where it asks who is on the port. -/
def startEntry (call : Nat) (options : Options) : World :=
  match which with
  | .router =>
      if world.owned && world.child.isSome then world.at call .done
      else
        let world := { world with lastOptions := some options }
        if options.gatewayPort = some options.port then
          { world with state := .conflict }.at call .done
        else world.at call (.identifying options)
  | .gateway => { world with lastOptions := some options }.at call (.identifying options)

/-- The end of a stop, which is the end of its call, or of the first half of a restart. -/
def stopEnd (call : Nat) (again : Option Options) : World :=
  match again with
  | none => world.at call .done
  | some options => world.at call (.stopped options)

/-- What is let go of at the end of a stop. -/
def World.release : World := { world with child := none, owned := false }

def stopEntry (call : Nat) (again : Option Options) : World :=
  let world := { world with state := .off }
  match world.child, world.owned with
  | some child, true =>
      match which with
      | .router =>
          if world.isTold child then stopEnd world.release call again
          else (world.signal child).at call (.stopping child again)
      | .gateway => (world.signal child).at call (.stopping child again)
  -- attached, not owned
  | _, _ => stopEnd { world with child := none } call again

/-- What a start does whose process does not come to serve. -/
def onGiveUp (call : Nat) (conflict : Bool) : World :=
  match which with
  | .router =>
      -- stopped while it was starting, which is no failure
      if world.state ≠ .starting then world.at call .done
      else { world with state := if conflict then .conflict else .failed }.at call .done
  | .gateway => { world with state := .failed }.at call .done

/-- A process is spawned, and held. -/
def World.spawn (runs : Bool) : World :=
  { world with
    state := .starting
    children := world.children ++ [⟨runs, runs, false⟩]
    child := some world.children.length
    owned := true }

def launched (call : Nat) (launch : Launch) : World :=
  match launch with
  | .throws conflict => onGiveUp which { world with state := .starting } call conflict
  | .starts runs => (world.spawn runs).at call (.waiting world.children.length)

/-- What follows from who is on the port. -/
def onAnswer (call : Nat) (holder : PortHolder) (launch : Launch) : World :=
  match which, holder with
  | .router, .router => { world with owned := false, state := .attached }.at call .done
  | .router, .nothing => world.at call .checking
  | .router, _ => { world with state := .conflict }.at call .done
  | .gateway, .gateway => { world with owned := false, state := .attached }.at call .done
  | .gateway, _ => launched which world call launch

def onExit (child : Nat) : World :=
  match which with
  | .router =>
      { world with
        child := if world.child = some child then none else world.child
        owned := false
        state := if world.state = .off ∨ world.state = .starting then world.state else .failed }
  | .gateway =>
      { world with
        child := none
        owned := false
        state := if world.state = .off then world.state else .failed }

def onError (child : Nat) : World :=
  match which with
  | .router =>
      { world with
        child := if world.child = some child then none else world.child
        owned := false
        state := if world.state = .starting then world.state else .failed }
  | .gateway => { world with child := none, owned := false, state := .failed }

/-- A new call, from its entry on. -/
def World.call (entry : World → Nat → World) : World :=
  entry { world with calls := world.calls ++ [.done] } world.calls.length

end Calls

def step (which : Which) (world : World) : Action → Option World
  | .start options => some (world.call fun world call => startEntry which world call options)
  | .stop => some (world.call fun world call => stopEntry which world call none)
  | .restart =>
      match world.owned, world.lastOptions with
      | true, some options =>
          some (world.call fun world call => stopEntry which world call (some options))
      -- not started by this app
      | _, _ => some world
  | .discover =>
      match which with
      | .router =>
          if world.owned || world.state = .starting then some world
          else some (world.call fun world call => world.at call .looking)
      | .gateway => none
  | .answered call holder launch =>
      match world.calls[call]? with
      | some (.identifying _) => some (onAnswer which world call holder launch)
      | some .looking =>
          some ({ world with state := match holder with
            | .router => .attached
            | .nothing => .off
            | _ => .conflict }.at call .done)
      | _ => none
  | .checked call ok launch =>
      match world.calls[call]? with
      | some .checking =>
          if ok then some (launched which world call launch)
          else some ({ world with state := .needsConfig }.at call .done)
      | _ => none
  | .serving call =>
      match world.calls[call]? with
      | some (.waiting child) =>
          if which = .router ∧ world.child ≠ some child then none
          else some ({ world with state := .running }.at call .done)
      | _ => none
  | .givesUp call conflict =>
      match world.calls[call]? with
      | some (.waiting _) => some (onGiveUp which world call conflict)
      | _ => none
  | .exitSeen call =>
      match world.calls[call]? with
      | some (.stopping child again) | some (.killing child again) =>
          if world.isExited child then some (stopEnd world.release call again) else none
      | _ => none
  | .graceOver call =>
      match world.calls[call]? with
      | some (.stopping child again) =>
          match which with
          | .router => some ((world.kill child).at call (.killing child again))
          | .gateway => some (stopEnd (world.kill child).release call again)
      | some (.killing _ again) => some (stopEnd world.release call again)
      | _ => none
  | .resume call =>
      match world.calls[call]? with
      | some (.stopped options) => some (startEntry which world call options)
      | _ => none
  | .dies child => some (world.change child Child.end)
  | .event child =>
      match world.children[child]? with
      | some ⟨spawned, false, false⟩ =>
          let world := world.change child Child.tell
          some (if spawned then onExit which world child else onError which world child)
      | _ => none

/-- Every process that runs is a given one. -/
def World.OnlyRuns (world : World) (spared : Option Nat) : Prop :=
  ∀ child, world.runs child = true → spared = some child

/-- Every process that runs is the one that is held, and owned. -/
def World.Held (world : World) : Prop :=
  ∀ child, world.runs child = true → world.child = some child ∧ world.owned = true

def Launch.isStart : Launch → Bool
  | .throws _ => false
  | .starts _ => true

/-- Whether what is held is given up, or another process put in its place, upon an answer. -/
def Which.letsGo (which : Which) (holder : PortHolder) (launch : Launch) : Bool :=
  match which with
  | .router => holder = .router
  | .gateway => holder = .gateway || launch.isStart

/-- What may run when the time of a stop is over. The gateway's stop ends there with its own process,
which it kills; the Router's only kills. -/
def GraceOrderly (which : Which) (world : World) : Option Call → Prop
  | some (.stopping child _) => which = .gateway → world.OnlyRuns (some child)
  | _ => world.OnlyRuns none

/-- No process runs when a start comes to attach or to spawn one, when the end of a process is handled
or when a stop ends. -/
def Orderly (which : Which) (world : World) : Action → Prop
  | .answered call holder launch =>
      world.calls[call]? ≠ some .looking → which.letsGo holder launch = true → world.OnlyRuns none
  | .checked _ ok launch => ok = true → launch.isStart = true → world.OnlyRuns none
  | .event _ | .exitSeen _ => world.OnlyRuns none
  | .graceOver call => GraceOrderly which world world.calls[call]?
  | _ => True

section Runs

variable {world other : World} {child : Nat}

theorem World.lt_of_runs (running : world.runs child = true) : child < world.children.length := by
  by_contra far
  rw [World.runs, List.getElem?_eq_none (Nat.le_of_not_lt far)] at running
  cases running

theorem World.runs_congr (same : other.children = world.children) : other.runs child = world.runs child := by
  rw [World.runs, World.runs, same]

instance (spared : Option Nat) : Decidable (world.OnlyRuns spared) :=
  decidable_of_iff (∀ child < world.children.length, world.runs child = true → spared = some child)
    ⟨fun bounded child running => bounded child (World.lt_of_runs running) running,
      fun only child _ running => only child running⟩

instance : Decidable world.Held :=
  decidable_of_iff (∀ child < world.children.length, world.runs child = true →
      world.child = some child ∧ world.owned = true)
    ⟨fun bounded child running => bounded child (World.lt_of_runs running) running,
      fun held child _ running => held child running⟩

theorem World.runs_end (child other : Nat) :
    (world.change child Child.end).runs other = (other ≠ child && world.runs other) := by
  rcases eq_or_ne other child with rfl | apart
  · cases there : world.children[other]? with
    | none => simp [World.runs, World.change, there]
    | some process => simp [World.runs, World.change, there, Child.end]
  · simp [World.runs, World.change, apart, apart.symm]

theorem World.isTold_end (child other : Nat) :
    (world.change child Child.end).isTold other = world.isTold other := by
  rcases eq_or_ne other child with rfl | apart
  · cases there : world.children[other]? with
    | none => simp [World.isTold, World.change, there]
    | some process => simp [World.isTold, World.change, there, Child.end]
  · simp [World.isTold, World.change, apart.symm]

theorem World.runs_tell (child other : Nat) :
    (world.change child Child.tell).runs other = world.runs other := by
  rcases eq_or_ne other child with rfl | apart
  · cases there : world.children[other]? with
    | none => simp [World.runs, World.change, there]
    | some process => simp [World.runs, World.change, there, Child.tell]
  · simp [World.runs, World.change, apart.symm]

theorem World.isTold_tell {other : Nat} (apart : other ≠ child) :
    (world.change child Child.tell).isTold other = world.isTold other := by
  simp [World.isTold, World.change, apart.symm]

theorem World.runs_spawn (runs : Bool) (child : Nat) :
    (world.spawn runs).runs child = if child = world.children.length then runs else world.runs child := by
  unfold World.runs World.spawn
  split
  · rename_i last
    simp [last]
  · rename_i other
    rw [List.getElem?_append]
    split
    · rfl
    · rename_i far
      rw [List.getElem?_eq_none (Nat.le_of_not_lt far), List.getElem?_eq_none (by
        simp only [List.length_singleton]
        omega)]

theorem World.isTold_spawn (runs : Bool) (child : Nat) :
    (world.spawn runs).isTold child = world.isTold child := by
  unfold World.isTold World.spawn
  rw [List.getElem?_append]
  split
  · rfl
  · rename_i far
    rw [List.getElem?_eq_none (Nat.le_of_not_lt far), List.getElem?_singleton]
    split
    · rfl
    · rfl

/-- A signal tells nothing of what runs. -/
theorem World.signal_children : (world.signal child).children = world.children := by
  unfold World.signal
  split
  · rfl
  · rfl

theorem World.runs_kill (child other : Nat) :
    (world.kill child).runs other = (other ≠ child && world.runs other) := by
  rw [World.kill, World.runs_end, World.runs_congr World.signal_children]

theorem World.length_kill (child : Nat) : (world.kill child).children.length = world.children.length := by
  rw [World.kill, World.change, List.length_modify, World.signal_children]

/-- What does not own a process holds none. -/
theorem World.held_iff_of_disowned (disowned : other.owned = false) (same : other.children = world.children) :
    other.Held ↔ world.OnlyRuns none := by
  constructor
  · intro held child running
    rw [← World.runs_congr same] at running
    have owned := (held child running).2
    rw [disowned] at owned
    cases owned
  · intro only child running
    rw [World.runs_congr same] at running
    cases only child running

end Runs

section Orderly

variable (which : Which) (world : World)

instance : (waiting : Option Call) → Decidable (GraceOrderly which world waiting)
  | some (.stopping child _) =>
      inferInstanceAs (Decidable (which = .gateway → world.OnlyRuns (some child)))
  | none | some (.identifying _) | some .checking | some (.waiting _) | some (.killing ..)
  | some (.stopped _) | some .looking | some .done => inferInstanceAs (Decidable (world.OnlyRuns none))

instance : (action : Action) → Decidable (Orderly which world action)
  | .answered .. | .checked .. => inferInstanceAs (Decidable (_ → _ → _))
  | .event _ | .exitSeen _ => inferInstanceAs (Decidable (world.OnlyRuns none))
  | .graceOver call => inferInstanceAs (Decidable (GraceOrderly which world world.calls[call]?))
  | .start _ | .stop | .restart | .discover | .serving _ | .givesUp .. | .resume _ | .dies _ =>
      inferInstanceAs (Decidable True)

end Orderly

end Lightweight.Desktop
