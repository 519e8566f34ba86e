import Lightweight.Desktop.Supervisor

/-! Which processes of the desktop shell run, and which of them its supervisors still hold. -/

namespace Lightweight.Desktop

open Transition

/-! ### What no step breaks -/

/-- What a waiting call knows of its process: it was started here, and one that was killed does not
run. -/
def Call.Fits (world : World) : Call → Prop
  | .stopping child _ => child < world.children.length
  | .killing child _ => child < world.children.length ∧ world.runs child = false
  | _ => True

structure Sound (world : World) : Prop where
  told : ∀ child, world.isTold child = true → world.runs child = false
  known : ∀ child, world.child = some child → child < world.children.length
  fits : ∀ call ∈ world.calls, call.Fits world
  signals : ∀ child ∈ world.signalled, child < world.children.length

theorem Sound.new : Sound World.new := by
  constructor
  · exact fun child told => by cases told
  · exact fun child held => by cases held
  · exact fun call member => by cases member
  · exact fun child member => by cases member

section Sound

variable {which : Which} {world other next : World} {call child : Nat} {again : Option Options}

/-- Nothing comes to run, and what is told of does not run. -/
theorem Sound.of_quieter (sound : Sound world) (many : other.children.length = world.children.length)
    (quieter : ∀ child, world.runs child = false → other.runs child = false)
    (told : ∀ child, other.isTold child = true → other.runs child = false)
    (held : ∀ child, other.child = some child → world.child = some child)
    (calls : other.calls = world.calls) (signals : other.signalled = world.signalled) : Sound other := by
  constructor
  · exact told
  · intro child is_held
    rw [many]
    exact sound.known child (held child is_held)
  · intro call member
    rw [calls] at member
    have fits := sound.fits call member
    cases call with
    | stopping child again => exact lt_of_lt_of_eq fits many.symm
    | killing child again => exact ⟨lt_of_lt_of_eq fits.1 many.symm, quieter child fits.2⟩
    | _ => exact trivial
  · rw [signals, many]
    exact sound.signals

theorem Sound.congr (sound : Sound world) (same : other.children = world.children)
    (held : ∀ child, other.child = some child → world.child = some child)
    (calls : other.calls = world.calls) (signals : other.signalled = world.signalled) : Sound other := by
  refine sound.of_quieter (congrArg List.length same) ?_ ?_ held calls signals
  · intro child quiet
    exact (World.runs_congr same).trans quiet
  · intro child told
    rw [World.isTold, same] at told
    exact (World.runs_congr same).trans (sound.told child told)

/-- Who owns it, the state and the options play no part. -/
theorem Sound.relabel {owned : Bool} {state : Kind} {lastOptions : Option Options}
    (sound : Sound world) :
    Sound { world with owned := owned, state := state, lastOptions := lastOptions } :=
  sound.congr rfl (fun _ held => held) rfl rfl

theorem Sound.at {place : Call} (sound : Sound world) (fits : place.Fits world) :
    Sound (world.at call place) := by
  refine ⟨sound.told, sound.known, ?_, sound.signals⟩
  intro other member
  rcases List.mem_or_eq_of_mem_set member with old | rfl
  · exact sound.fits other old
  · exact fits

theorem Sound.release (sound : Sound world) : Sound world.release :=
  sound.congr rfl (fun _ held => by cases held) rfl rfl

theorem Sound.stopEnd (sound : Sound world) : Sound (stopEnd world call again) := by
  cases again with
  | none => exact sound.at trivial
  | some options => exact sound.at trivial

theorem Sound.signal (sound : Sound world) (known : child < world.children.length) :
    Sound (world.signal child) := by
  unfold World.signal
  split
  · exact sound
  · exact ⟨sound.told, sound.known, sound.fits, List.forall_mem_cons.mpr ⟨known, sound.signals⟩⟩

theorem Sound.end (sound : Sound world) : Sound (world.change child Child.end) := by
  refine sound.of_quieter (List.length_modify _ _ _) ?_ ?_ (fun _ held => held) rfl rfl
  · intro other quiet
    rw [World.runs_end, quiet, Bool.and_false]
  · intro other told
    rw [World.isTold_end] at told
    rw [World.runs_end, sound.told other told, Bool.and_false]

theorem Sound.tell (sound : Sound world) (ended : world.runs child = false) :
    Sound (world.change child Child.tell) := by
  refine sound.of_quieter (List.length_modify _ _ _) ?_ ?_ (fun _ held => held) rfl rfl
  · intro other quiet
    rw [World.runs_tell, quiet]
  · intro other told
    rw [World.runs_tell]
    rcases eq_or_ne other child with rfl | apart
    · exact ended
    · rw [World.isTold_tell apart] at told
      exact sound.told other told

theorem Sound.kill (sound : Sound world) (known : child < world.children.length) :
    Sound (world.kill child) :=
  (sound.signal known).end

theorem Sound.onGiveUp {conflict : Bool} (sound : Sound world) :
    Sound (onGiveUp which world call conflict) := by
  cases which with
  | router =>
      simp only [Desktop.onGiveUp]
      split
      · exact sound.at trivial
      · exact sound.relabel.at trivial
  | gateway => exact sound.relabel.at trivial

theorem Sound.startEntry {options : Options} (sound : Sound world) :
    Sound (startEntry which world call options) := by
  cases which with
  | router =>
      simp only [Desktop.startEntry]
      split
      · exact sound.at trivial
      · split
        · exact sound.relabel.at trivial
        · exact sound.relabel.at trivial
  | gateway => exact sound.relabel.at trivial

theorem Sound.stopEntry (sound : Sound world) : Sound (stopEntry which world call again) := by
  have off : Sound { world with state := .off } := sound.relabel
  have stopping (child : Nat) (known : child < world.children.length) :
      Sound ((World.signal { world with state := .off } child).at call (.stopping child again)) := by
    apply (off.signal known).at
    rw [Call.Fits, World.signal_children]
    exact known
  unfold Desktop.stopEntry
  dsimp only
  split
  · rename_i child is_held is_owned
    have known := sound.known child is_held
    split
    · split
      · exact off.release.stopEnd
      · exact stopping child known
    · exact stopping child known
  · apply Sound.stopEnd
    exact off.congr rfl (fun _ held => by cases held) rfl rfl

theorem Sound.spawn {runs : Bool} (sound : Sound world) : Sound (world.spawn runs) := by
  have longer : (world.spawn runs).children.length = world.children.length + 1 := List.length_append
  constructor
  · intro child told
    rw [World.isTold_spawn] at told
    have known : child ≠ world.children.length := by
      rintro rfl
      rw [World.isTold, List.getElem?_eq_none (Nat.le_refl _)] at told
      cases told
    rw [World.runs_spawn, if_neg known]
    exact sound.told child told
  · intro child is_held
    cases is_held
    rw [longer]
    exact Nat.lt_succ_self _
  · intro call member
    have fits := sound.fits call member
    cases call with
    | stopping child again => exact Nat.lt_of_lt_of_le fits (by omega)
    | killing child again =>
        refine ⟨Nat.lt_of_lt_of_le fits.1 (by omega), ?_⟩
        rw [World.runs_spawn, if_neg (Nat.ne_of_lt fits.1)]
        exact fits.2
    | _ => exact trivial
  · intro child member
    rw [longer]
    exact Nat.lt_succ_of_lt (sound.signals child member)

theorem Sound.launched {launch : Launch} (sound : Sound world) :
    Sound (launched which world call launch) := by
  cases launch with
  | throws conflict => exact sound.relabel.onGiveUp
  | starts runs => exact sound.spawn.at trivial

theorem Sound.onAnswer {holder : PortHolder} {launch : Launch} (sound : Sound world) :
    Sound (onAnswer which world call holder launch) := by
  unfold Desktop.onAnswer
  split
  · exact sound.relabel.at trivial
  · exact sound.at trivial
  · exact sound.relabel.at trivial
  · exact sound.relabel.at trivial
  · exact sound.launched

theorem Sound.forget {owned : Bool} {state : Kind} (sound : Sound world) :
    Sound { world with
      child := if world.child = some child then none else world.child
      owned := owned
      state := state } := by
  refine sound.congr rfl ?_ rfl rfl
  intro other is_held
  dsimp only at is_held
  split at is_held
  · cases is_held
  · exact is_held

theorem Sound.onExit (sound : Sound world) : Sound (onExit which world child) := by
  cases which with
  | router => exact sound.forget
  | gateway => exact sound.congr rfl (fun _ held => by cases held) rfl rfl

theorem Sound.onError (sound : Sound world) : Sound (onError which world child) := by
  cases which with
  | router => exact sound.forget
  | gateway => exact sound.congr rfl (fun _ held => by cases held) rfl rfl

/-- The world that a new call enters. -/
theorem Sound.entered (sound : Sound world) : Sound { world with calls := world.calls ++ [.done] } := by
  refine ⟨sound.told, sound.known, ?_, sound.signals⟩
  intro call member
  rcases List.mem_append.mp member with old | new
  · exact sound.fits call old
  · rw [List.mem_singleton.mp new]
    exact trivial

theorem Sound.step {action : Action} (sound : Sound world)
    (stepped : step which world action = some next) : Sound next := by
  cases action with
  | start options =>
      cases stepped
      exact sound.entered.startEntry
  | stop =>
      cases stepped
      exact sound.entered.stopEntry
  | restart =>
      simp only [Desktop.step] at stepped
      split at stepped
      · cases stepped
        exact sound.entered.stopEntry
      · cases stepped
        exact sound
  | discover =>
      simp only [Desktop.step] at stepped
      split at stepped
      · split at stepped
        · cases stepped
          exact sound
        · cases stepped
          exact sound.entered.at trivial
      · cases stepped
  | answered call holder launch =>
      simp only [Desktop.step] at stepped
      split at stepped
      · cases stepped
        exact sound.onAnswer
      · cases stepped
        exact sound.relabel.at trivial
      · cases stepped
  | checked call ok launch =>
      simp only [Desktop.step] at stepped
      split at stepped
      · split at stepped
        · cases stepped
          exact sound.launched
        · cases stepped
          exact sound.relabel.at trivial
      · cases stepped
  | serving call =>
      simp only [Desktop.step] at stepped
      split at stepped
      · split at stepped
        · cases stepped
        · cases stepped
          exact sound.relabel.at trivial
      · cases stepped
  | givesUp call conflict =>
      simp only [Desktop.step] at stepped
      split at stepped
      · cases stepped
        exact sound.onGiveUp
      · cases stepped
  | exitSeen call =>
      simp only [Desktop.step] at stepped
      split at stepped
      · split at stepped
        · cases stepped
          exact sound.release.stopEnd
        · cases stepped
      · split at stepped
        · cases stepped
          exact sound.release.stopEnd
        · cases stepped
      · cases stepped
  | graceOver call =>
      simp only [Desktop.step] at stepped
      split at stepped
      · rename_i child again waits
        have known : child < world.children.length := sound.fits _ (List.mem_of_getElem? waits)
        split at stepped
        · cases stepped
          apply (sound.kill known).at
          rw [Call.Fits, World.length_kill, World.runs_kill]
          exact ⟨known, by simp⟩
        · cases stepped
          exact (sound.kill known).release.stopEnd
      · cases stepped
        exact sound.release.stopEnd
      · cases stepped
  | resume call =>
      simp only [Desktop.step] at stepped
      split at stepped
      · cases stepped
        exact sound.startEntry
      · cases stepped
  | dies child =>
      cases stepped
      exact sound.end
  | event child =>
      simp only [Desktop.step] at stepped
      split at stepped
      · rename_i spawned there
        have ended : world.runs child = false := by
          rw [World.runs, there]
          rfl
        cases stepped
        split
        · exact (sound.tell ended).onExit
        · exact (sound.tell ended).onError
      · cases stepped

end Sound

/-! ### What breaks the link to the process that runs -/

section Held

variable {which : Which} {world next : World} {call child : Nat} {again : Option Options}

theorem held_release : world.release.Held ↔ world.OnlyRuns none :=
  World.held_iff_of_disowned rfl rfl

theorem held_stopEnd : (stopEnd world call again).Held ↔ world.Held := by
  cases again with
  | none => exact Iff.rfl
  | some options => exact Iff.rfl

theorem held_startEntry {options : Options} :
    (startEntry which world call options).Held ↔ world.Held := by
  cases which with
  | router =>
      simp only [startEntry]
      split
      · exact Iff.rfl
      · split
        · exact Iff.rfl
        · exact Iff.rfl
  | gateway => exact Iff.rfl

theorem held_onGiveUp {conflict : Bool} : (onGiveUp which world call conflict).Held ↔ world.Held := by
  cases which with
  | router =>
      simp only [onGiveUp]
      split
      · exact Iff.rfl
      · exact Iff.rfl
  | gateway => exact Iff.rfl

theorem held_signal : (world.signal child).Held ↔ world.Held := by
  unfold World.signal
  split
  · exact Iff.rfl
  · exact Iff.rfl

theorem World.Held.end (held : world.Held) : (world.change child Child.end).Held := by
  intro other running
  rw [World.runs_end, Bool.and_eq_true] at running
  exact held other running.2

theorem World.Held.kill (held : world.Held) : (world.kill child).Held :=
  World.Held.end (held_signal.mpr held)

theorem World.onlyRuns_kill : (world.kill child).OnlyRuns none ↔ world.OnlyRuns (some child) := by
  constructor
  · intro only other running
    by_contra apart
    have still : (world.kill child).runs other = true := by
      rw [World.runs_kill, running, Bool.and_true]
      exact decide_eq_true fun same => apart (congrArg some same.symm)
    cases only other still
  · intro only other running
    rw [World.runs_kill, Bool.and_eq_true] at running
    have same : child = other := Option.some.inj (only other running.2)
    exact (of_decide_eq_true running.1 same.symm).elim

/-- A stop lets go at once of what does not run, or is not there. -/
theorem World.Held.stopEntry (sound : Sound world) (held : world.Held) :
    (stopEntry which world call again).Held := by
  have off : World.Held { world with state := .off } := held
  unfold Desktop.stopEntry
  dsimp only
  split
  · rename_i child is_held is_owned
    split
    · split
      · rename_i told
        apply held_stopEnd.mpr
        apply held_release.mpr
        intro other running
        have same : child = other := Option.some.inj (is_held.symm.trans (held other running).1)
        rw [same] at told
        exact (Bool.false_ne_true ((sound.told other told).symm.trans running)).elim
      · exact held_signal.mpr off
    · exact held_signal.mpr off
  · rename_i none_held
    apply held_stopEnd.mpr
    intro other running
    obtain ⟨is_held, is_owned⟩ := held other running
    exact (none_held other is_held is_owned).elim

theorem held_spawn {runs : Bool} : (world.spawn runs).Held ↔ world.OnlyRuns none := by
  constructor
  · intro held other running
    have before : other ≠ world.children.length := Nat.ne_of_lt (World.lt_of_runs running)
    have new := held other
    rw [World.runs_spawn, if_neg before] at new
    exact (before (Option.some.inj (new running).1).symm).elim
  · intro only other running
    rw [World.runs_spawn] at running
    split at running
    · rename_i last
      exact ⟨congrArg some last.symm, rfl⟩
    · cases only other running

theorem held_launched {launch : Launch} (held : world.Held) :
    (launched which world call launch).Held ↔ (launch.isStart = true → world.OnlyRuns none) := by
  cases launch with
  | throws conflict =>
      have kept : World.Held { world with state := .starting } := held
      refine iff_of_true (held_onGiveUp.mpr kept) ?_
      intro spawns
      cases spawns
  | starts runs =>
      calc
        _ ↔ (world.spawn runs).Held := Iff.rfl
        _ ↔ world.OnlyRuns none := held_spawn
        _ ↔ ((Launch.starts runs).isStart = true → world.OnlyRuns none) := (imp_iff_right rfl).symm

/-- To attach is to own nothing. -/
theorem held_attached {state : Kind} :
    (World.at { world with owned := false, state := state } call .done).Held ↔ world.OnlyRuns none :=
  World.held_iff_of_disowned rfl rfl

theorem held_onAnswer {holder : PortHolder} {launch : Launch} (held : world.Held) :
    (onAnswer which world call holder launch).Held ↔
      (which.letsGo holder launch = true → world.OnlyRuns none) := by
  unfold onAnswer
  split
  · exact held_attached.trans (imp_iff_right rfl).symm
  · exact iff_of_true held fun lets => by cases lets
  · rename_i not_router not_nothing
    refine iff_of_true held ?_
    intro lets
    exact (not_router (of_decide_eq_true lets)).elim
  · exact held_attached.trans (imp_iff_right rfl).symm
  · rename_i not_gateway
    have passes : Which.letsGo .gateway holder launch = launch.isStart := by
      rw [Which.letsGo, decide_eq_false not_gateway, Bool.false_or]
    rw [passes]
    exact held_launched held

theorem held_onExit : (onExit which world child).Held ↔ world.OnlyRuns none := by
  unfold onExit
  split
  · exact World.held_iff_of_disowned rfl rfl
  · exact World.held_iff_of_disowned rfl rfl

theorem held_onError : (onError which world child).Held ↔ world.OnlyRuns none := by
  unfold onError
  split
  · exact World.held_iff_of_disowned rfl rfl
  · exact World.held_iff_of_disowned rfl rfl

/-- The steps that are in order are just those that keep every process that runs held and owned. -/
theorem held_step_iff {action : Action} (sound : Sound world) (held : world.Held)
    (stepped : step which world action = some next) : next.Held ↔ Orderly which world action := by
  cases action with
  | start options =>
      cases stepped
      exact iff_of_true (held_startEntry.mpr held) trivial
  | stop =>
      cases stepped
      exact iff_of_true (World.Held.stopEntry sound.entered held) trivial
  | restart =>
      refine iff_of_true ?_ trivial
      simp only [step] at stepped
      split at stepped
      · cases stepped
        exact World.Held.stopEntry sound.entered held
      · cases stepped
        exact held
  | discover =>
      refine iff_of_true ?_ trivial
      simp only [step] at stepped
      split at stepped
      · split at stepped
        · cases stepped
          exact held
        · cases stepped
          exact held
      · cases stepped
  | answered call holder launch =>
      simp only [step] at stepped
      split at stepped
      · rename_i options waits
        cases stepped
        rw [held_onAnswer held, Orderly, waits]
        simp
      · rename_i waits
        cases stepped
        rw [Orderly, waits]
        exact iff_of_true held fun other => (other rfl).elim
      · cases stepped
  | checked call ok launch =>
      simp only [step] at stepped
      split at stepped
      · split at stepped
        · rename_i passed
          cases stepped
          rw [held_launched held, Orderly, imp_iff_right passed]
        · rename_i refused
          cases stepped
          exact iff_of_true held fun passed => (refused passed).elim
      · cases stepped
  | serving call =>
      refine iff_of_true ?_ trivial
      simp only [step] at stepped
      split at stepped
      · split at stepped
        · cases stepped
        · cases stepped
          exact held
      · cases stepped
  | givesUp call conflict =>
      refine iff_of_true ?_ trivial
      simp only [step] at stepped
      split at stepped
      · cases stepped
        exact held_onGiveUp.mpr held
      · cases stepped
  | exitSeen call =>
      simp only [step] at stepped
      split at stepped
      · split at stepped
        · cases stepped
          exact held_stopEnd.trans held_release
        · cases stepped
      · split at stepped
        · cases stepped
          exact held_stopEnd.trans held_release
        · cases stepped
      · cases stepped
  | graceOver call =>
      simp only [step] at stepped
      split at stepped
      · rename_i child again waits
        rw [Orderly, waits, GraceOrderly]
        split at stepped
        · cases stepped
          exact iff_of_true held.kill fun gateway => by cases gateway
        · cases stepped
          rw [held_stopEnd, held_release, World.onlyRuns_kill]
          exact (imp_iff_right rfl).symm
      · rename_i child again waits
        cases stepped
        rw [Orderly, waits]
        exact held_stopEnd.trans held_release
      · cases stepped
  | resume call =>
      refine iff_of_true ?_ trivial
      simp only [step] at stepped
      split at stepped
      · cases stepped
        exact held_startEntry.mpr held
      · cases stepped
  | dies child =>
      cases stepped
      exact iff_of_true held.end trivial
  | event child =>
      simp only [step] at stepped
      split at stepped
      · cases stepped
        have same : World.OnlyRuns (world.change child Child.tell) none ↔ world.OnlyRuns none :=
          forall_congr' fun other => by rw [World.runs_tell]
        split
        · exact held_onExit.trans same
        · exact held_onError.trans same
      · cases stepped

theorem World.mem_signal (untold : world.isTold child = false) : child ∈ (world.signal child).signalled := by
  rw [World.signal, untold]
  exact List.mem_cons_self

theorem stopEntry_signals (is_held : world.child = some child) (is_owned : world.owned = true)
    (untold : world.isTold child = false) : child ∈ (stopEntry which world call again).signalled := by
  unfold stopEntry
  simp only [is_held, is_owned]
  split
  · split
    · rename_i told
      exact (Bool.false_ne_true (untold.symm.trans told)).elim
    · exact World.mem_signal untold
  · exact World.mem_signal untold

/-- A stop signals whatever runs. -/
theorem stop_signals (sound : Sound world) (held : world.Held)
    (stepped : step which world .stop = some next) (running : world.runs child = true) :
    child ∈ next.signalled := by
  obtain ⟨is_held, is_owned⟩ := held child running
  have untold : world.isTold child = false := by
    by_contra told
    rw [Bool.not_eq_false] at told
    exact Bool.false_ne_true ((sound.told child told).symm.trans running)
  cases stepped
  exact stopEntry_signals is_held is_owned untold

end Held

/-! ### Runs -/

/-- In every run a supervisor signals only what it has started. Where every step is in order, each
process that runs is the one held and owned, and is signalled by a stop. -/
theorem started_processes_kept (which : Which) :
    (∀ world, Reaches (step which) Always World.new world →
      ∀ child ∈ world.signalled, child < world.children.length) ∧
    (∀ world, Reaches (step which) (Orderly which) World.new world →
      world.Held ∧ ∀ next, step which world .stop = some next →
        ∀ child, world.runs child = true → child ∈ next.signalled) := by
  have base : World.new.Held := by decide
  constructor
  · intro world reached
    have sound : Sound world := by
      refine reached.invariant Sound Sound.new ?_
      exact fun before action after met sound stepped => sound.step stepped
    exact sound.signals
  · intro world reached
    have kept : Sound world ∧ world.Held := by
      refine reached.invariant (fun world => Sound world ∧ world.Held) ⟨Sound.new, base⟩ ?_
      intro before action after met both stepped
      obtain ⟨sound, held⟩ := both
      exact ⟨sound.step stepped, (held_step_iff sound held stepped).mpr met⟩
    obtain ⟨sound, held⟩ := kept
    exact ⟨held, fun next stepped child running => stop_signals sound held stepped running⟩

def sampleOptions : Options := ⟨4000, none⟩

/-- A restart of a gateway that heeds the signal. -/
def restarted : List Action :=
  [.start sampleOptions, .answered 0 .nothing (.starts true), .serving 0, .restart, .dies 0, .event 0,
    .exitSeen 1, .resume 1, .answered 1 .nothing (.starts true), .serving 1]

def afterRestart : World :=
  { child := some 1
    owned := true
    state := .running
    lastOptions := some sampleOptions
    children := [⟨true, false, true⟩, ⟨true, true, false⟩]
    calls := [.done, .done]
    signalled := [0] }

theorem started_processes_kept_restart :
    (∀ child ∈ afterRestart.signalled, child < 2) ∧ afterRestart.Held := by
  have ran : runMeeting (step .gateway) (Orderly .gateway) World.new restarted = some afterRestart := by
    decide
  have plain : run (step .gateway) World.new restarted = some afterRestart := by decide
  exact ⟨(started_processes_kept .gateway).1 _ (run_reaches plain),
    ((started_processes_kept .gateway).2 _ (runMeeting_reaches ran)).1⟩

/-- Two starts of a Router, clicked before either comes to spawn. The first gets the port. -/
def doubleStart : List Action :=
  [.start sampleOptions, .start sampleOptions, .answered 0 .nothing (.throws false),
    .answered 1 .nothing (.throws false), .checked 0 true (.starts true), .checked 1 true (.starts true),
    .dies 1, .event 1, .givesUp 0 false, .givesUp 1 false]

def afterDoubleStart : World :=
  { child := none
    owned := false
    state := .failed
    lastOptions := some sampleOptions
    children := [⟨true, true, false⟩, ⟨true, false, true⟩]
    calls := [.done, .done]
    signalled := [] }

/-- A restart of a gateway that has to be killed, and whose exit is told of after the next one is
spawned. -/
def lateExit : List Action :=
  [.start sampleOptions, .answered 0 .nothing (.starts true), .serving 0, .restart, .graceOver 1,
    .resume 1, .answered 1 .nothing (.starts true), .event 0, .givesUp 1 false]

def afterLateExit : World :=
  { child := none
    owned := false
    state := .failed
    lastOptions := some sampleOptions
    children := [⟨true, false, true⟩, ⟨true, true, false⟩]
    calls := [.done, .done]
    signalled := [0, 0] }

theorem started_process_lost :
    (¬∀ world, Reaches (step .router) Always World.new world → (∀ call ∈ world.calls, call = .done) →
      world.Held) ∧
    ¬∀ world, Reaches (step .gateway) Always World.new world → (∀ call ∈ world.calls, call = .done) →
      world.Held := by
  constructor
  · intro kept
    have ran : run (step .router) World.new doubleStart = some afterDoubleStart := by decide
    have lost : ¬afterDoubleStart.Held := by decide
    exact lost (kept _ (run_reaches ran) (by decide))
  · intro kept
    have ran : run (step .gateway) World.new lateExit = some afterLateExit := by decide
    have lost : ¬afterLateExit.Held := by decide
    exact lost (kept _ (run_reaches ran) (by decide))

end Lightweight.Desktop
