import Lightweight.Broadcast
import Lightweight.Transition
import Mathlib.Data.List.Basic
import Mathlib.Logic.Function.Basic

/-! Background jobs and the event streams that watch them. `Job::set` writes the state and then
sends it, in two steps that anything may fall between; a watcher has the state it joined at and a
receiver of the updates; `prune` reads the jobs one at a time while they go on. -/

namespace Lightweight.Gateway.JobWatch

open Broadcast

/-- How many updates a slow subscriber may fall behind before it starts missing them. -/
def updateBacklog : ℕ := 64

/-- How many finished jobs are kept. -/
def keepFinished : ℕ := 32

/-- Where a job has got to. -/
inductive JobState (Stage ErrorReport : Type) where
  | running (stage : Stage)
  | succeeded (model : Option String)
  | failed (error : ErrorReport)
  | cancelled
deriving DecidableEq, Repr

variable {Stage ErrorReport : Type}

def JobState.isTerminal : JobState Stage ErrorReport → Bool
  | .running _ => false
  | _ => true

/-- Where a job is in the registry's life of it. -/
inductive Place where
  /-- `Job::new` has returned, and it is not inserted yet. -/
  | created
  | registered
  | pruned
deriving DecidableEq, Repr

structure Job (Stage ErrorReport : Type) where
  state : JobState Stage ErrorReport
  /-- Written by a call of `set` that has not sent it yet. -/
  sending : Option (JobState Stage ErrorReport)
  /-- Every update so far. One that no receiver was there for is lost to all of them, as a receiver
  starts after what was sent before it. -/
  sent : List (JobState Stage ErrorReport)
  place : Place
  /-- The last reference is gone, and with it the sender. -/
  dropped : Bool

def Job.new (queued : Stage) : Job Stage ErrorReport :=
  { state := .running queued, sending := none, sent := [], place := .created, dropped := false }

/-- The first statement of `set`. -/
def Job.write (job : Job Stage ErrorReport) (state : JobState Stage ErrorReport) :
    Job Stage ErrorReport :=
  { job with state := state, sending := some state }

/-- The second. -/
def Job.send (job : Job Stage ErrorReport) (state : JobState Stage ErrorReport) :
    Job Stage ErrorReport :=
  { job with sending := none, sent := job.sent ++ [state] }

/-- Where a job's event stream has got to. -/
inductive Phase (Stage ErrorReport : Type) where
  /-- The state the watcher joined at, not yet sent. -/
  | initial (state : JobState Stage ErrorReport)
  | live
  | closing
  | done
deriving DecidableEq, Repr

def nextPhase (terminal : Bool) : Phase Stage ErrorReport := if terminal then .closing else .live

inductive Frame (Stage ErrorReport : Type) where
  | state (state : JobState Stage ErrorReport)
  /-- The text `[DONE]`. -/
  | done
deriving DecidableEq, Repr

/-- An event stream: its job, its receiver's cursor, and what the client was sent. -/
structure Watcher (Stage ErrorReport : Type) where
  job : ℕ
  phase : Phase Stage ErrorReport
  next : ℕ
  frames : List (Frame Stage ErrorReport)

def Watcher.emit (watcher : Watcher Stage ErrorReport) (frame : Frame Stage ErrorReport)
    (phase : Phase Stage ErrorReport) : Watcher Stage ErrorReport :=
  { watcher with frames := watcher.frames ++ [frame], phase := phase }

/-- One turn of the stream's loop, with the branch of its `select!` that waits for an update. -/
def Watcher.read (channel : Channel (JobState Stage ErrorReport)) (job : Job Stage ErrorReport)
    (watcher : Watcher Stage ErrorReport) : Option (Watcher Stage ErrorReport) :=
  match watcher.phase with
  | .done => some watcher
  | .initial state => some (watcher.emit (.state state) (nextPhase state.isTerminal))
  | .live =>
      match channel.recv job.sent job.dropped watcher.next with
      | none => none
      | some (.value state, next) =>
          some ({ watcher with next := next }.emit (.state state) (nextPhase state.isTerminal))
      | some (.lagged, next) => some { watcher with next := next }
      | some (.closed, _) => some { watcher with phase := .closing }
  | .closing => some (watcher.emit .done .done)

/-- A call of `prune`, which holds the registry's lock: the jobs it has yet to look at, and those
it found finished. -/
structure Pruning where
  unread : List ℕ
  finished : List ℕ
deriving DecidableEq, Repr

/-- The jobs, by the numbers they are given in turn, and their watchers. -/
structure World (Stage ErrorReport : Type) where
  jobs : ℕ → Job Stage ErrorReport
  started : ℕ
  pruning : Option Pruning
  watchers : ℕ → Watcher Stage ErrorReport
  watching : ℕ
  shutdown : Bool

def World.new (queued : Stage) : World Stage ErrorReport :=
  { jobs := fun _ => Job.new queued
    started := 0
    pruning := none
    watchers := fun _ => { job := 0, phase := .done, next := 0, frames := [] }
    watching := 0
    shutdown := false }

inductive Action (Stage ErrorReport : Type) where
  /-- `Job::new`. -/
  | create
  /-- The insertion of `Jobs::start`; `prune` follows it under the same lock. -/
  | insert (id : ℕ)
  /-- `prune` reads the state of one job. -/
  | scan
  /-- `prune` removes what it found and the lock is let go. -/
  | remove
  | write (id : ℕ) (state : JobState Stage ErrorReport)
  | send (id : ℕ)
  | drop (id : ℕ)
  /-- `Job::watch`. -/
  | watch (id : ℕ)
  | read (index : ℕ)
  /-- The branch of the `select!` that the gateway's shutdown takes. -/
  | stop (index : ℕ)
  | shutDown
deriving DecidableEq, Repr

/-- Whether an action is a turn of a watcher's loop. -/
def Action.isRead (index : ℕ) : Action Stage ErrorReport → Bool
  | .read reader => reader = index
  | _ => false

def World.setJob (world : World Stage ErrorReport) (id : ℕ) (job : Job Stage ErrorReport) :
    World Stage ErrorReport :=
  { world with jobs := Function.update world.jobs id job }

def World.setWatcher (world : World Stage ErrorReport) (index : ℕ)
    (watcher : Watcher Stage ErrorReport) : World Stage ErrorReport :=
  { world with watchers := Function.update world.watchers index watcher }

@[simp] theorem setWatcher_self (world : World Stage ErrorReport) (index : ℕ)
    (watcher : Watcher Stage ErrorReport) :
    (world.setWatcher index watcher).watchers index = watcher :=
  Function.update_self ..

@[simp] theorem setWatcher_other (world : World Stage ErrorReport) {index other : ℕ}
    (watcher : Watcher Stage ErrorReport) (different : other ≠ index) :
    (world.setWatcher index watcher).watchers other = world.watchers other :=
  Function.update_of_ne different ..

/-- The keys of the registry, in their order. -/
def World.registered (world : World Stage ErrorReport) : List ℕ :=
  (List.range world.started).filter fun id => (world.jobs id).place = .registered

/-- What a call of `prune` removes, once it has looked at every job. -/
def Pruning.removed (pruning : Pruning) : List ℕ :=
  pruning.finished.take (pruning.finished.length - keepFinished)

def step (channel : Channel (JobState Stage ErrorReport)) (world : World Stage ErrorReport) :
    Action Stage ErrorReport → Option (World Stage ErrorReport)
  | .create => some { world with started := world.started + 1 }
  | .insert id =>
      let job := world.jobs id
      if world.pruning = none ∧ id < world.started ∧ job.place = .created then
        let inserted := world.setJob id { job with place := .registered }
        some { inserted with pruning := some { unread := inserted.registered, finished := [] } }
      else none
  | .scan =>
      match world.pruning with
      | some { unread := id :: unread, finished := finished } =>
          let found := if (world.jobs id).state.isTerminal then finished ++ [id] else finished
          some { world with pruning := some { unread := unread, finished := found } }
      | _ => none
  | .remove =>
      match world.pruning with
      | some { unread := [], finished := finished } =>
          let removed := Pruning.removed { unread := [], finished := finished }
          some { world with
            pruning := none
            jobs := fun id =>
              if id ∈ removed then { world.jobs id with place := .pruned } else world.jobs id }
      | _ => none
  -- A job is set by one call at a time, and by none after the one that ends it.
  | .write id state =>
      let job := world.jobs id
      if id < world.started ∧ job.sending = none ∧ job.state.isTerminal = false then
        some (world.setJob id (job.write state))
      else none
  | .send id =>
      match (world.jobs id).sending with
      | some state => some (world.setJob id ((world.jobs id).send state))
      | none => none
  -- The registry refers to a job until it is pruned, and whoever sets it for as long as it does.
  | .drop id =>
      let job := world.jobs id
      if job.place = .pruned ∧ job.sending = none then
        some (world.setJob id { job with dropped := true })
      else none
  | .watch id =>
      let job := world.jobs id
      if id < world.started ∧ job.dropped = false then
        let joined := world.setWatcher world.watching
          { job := id, phase := .initial job.state, next := job.sent.length, frames := [] }
        some { joined with watching := world.watching + 1 }
      else none
  | .read index =>
      let watcher := world.watchers index
      if index < world.watching then
        (watcher.read channel (world.jobs watcher.job)).map (world.setWatcher index)
      else none
  | .stop index =>
      match (world.watchers index).phase with
      | .live =>
          if index < world.watching ∧ world.shutdown = true then
            some (world.setWatcher index { world.watchers index with phase := .closing })
          else none
      | _ => none
  | .shutDown => some { world with shutdown := true }

/-! What a step can do, and what that is to one job and to one watcher. -/

def World.inserted (world : World Stage ErrorReport) (id : ℕ) : World Stage ErrorReport :=
  world.setJob id { world.jobs id with place := .registered }

inductive Effect (channel : Channel (JobState Stage ErrorReport))
    (world : World Stage ErrorReport) : Action Stage ErrorReport → World Stage ErrorReport → Prop where
  | create : Effect channel world .create { world with started := world.started + 1 }
  | insert (id : ℕ) : (world.jobs id).place = .created →
      Effect channel world (.insert id) { world.inserted id with
        pruning := some { unread := (world.inserted id).registered, finished := [] } }
  | scan {id : ℕ} {unread finished : List ℕ} :
      world.pruning = some { unread := id :: unread, finished := finished } →
      Effect channel world .scan { world with
        pruning := some
          { unread := unread
            finished := if (world.jobs id).state.isTerminal then finished ++ [id] else finished } }
  | remove {finished : List ℕ} : world.pruning = some { unread := [], finished := finished } →
      Effect channel world .remove { world with
        pruning := none
        jobs := fun id =>
          if id ∈ Pruning.removed { unread := [], finished := finished } then
            { world.jobs id with place := .pruned }
          else world.jobs id }
  | write (id : ℕ) (state : JobState Stage ErrorReport) : (world.jobs id).sending = none →
      (world.jobs id).state.isTerminal = false →
      Effect channel world (.write id state) (world.setJob id ((world.jobs id).write state))
  | send (id : ℕ) (state : JobState Stage ErrorReport) : (world.jobs id).sending = some state →
      Effect channel world (.send id) (world.setJob id ((world.jobs id).send state))
  | drop (id : ℕ) : (world.jobs id).place = .pruned → (world.jobs id).sending = none →
      Effect channel world (.drop id) (world.setJob id { world.jobs id with dropped := true })
  | watch (id : ℕ) : Effect channel world (.watch id)
      { world.setWatcher world.watching
          { job := id, phase := .initial (world.jobs id).state, next := (world.jobs id).sent.length,
            frames := [] } with
        watching := world.watching + 1 }
  | read (index : ℕ) (watcher : Watcher Stage ErrorReport) :
      (world.watchers index).read channel (world.jobs (world.watchers index).job) = some watcher →
      Effect channel world (.read index) (world.setWatcher index watcher)
  | stop (index : ℕ) : world.shutdown = true → (world.watchers index).phase = .live →
      Effect channel world (.stop index)
        (world.setWatcher index { world.watchers index with phase := .closing })
  | shutDown : Effect channel world .shutDown { world with shutdown := true }

theorem step_effect {channel : Channel (JobState Stage ErrorReport)}
    {world after : World Stage ErrorReport} {action : Action Stage ErrorReport}
    (stepped : step channel world action = some after) : Effect channel world action after := by
  cases action with
  | create =>
      cases stepped
      exact .create
  | insert id =>
      obtain ⟨⟨-, -, place⟩, ⟨⟩⟩ := Option.ite_none_right_eq_some.mp stepped
      exact .insert id place
  | scan =>
      simp only [step] at stepped
      split at stepped
      case h_1 found =>
          cases stepped
          exact .scan found
      case h_2 => cases stepped
  | remove =>
      simp only [step] at stepped
      split at stepped
      case h_1 found =>
          cases stepped
          exact .remove found
      case h_2 => cases stepped
  | write id state =>
      obtain ⟨⟨-, idle, running⟩, ⟨⟩⟩ := Option.ite_none_right_eq_some.mp stepped
      exact .write id state idle running
  | send id =>
      simp only [step] at stepped
      split at stepped
      case h_1 state sending =>
          cases stepped
          exact .send id state sending
      case h_2 => cases stepped
  | drop id =>
      obtain ⟨⟨pruned, idle⟩, ⟨⟩⟩ := Option.ite_none_right_eq_some.mp stepped
      exact .drop id pruned idle
  | watch id =>
      obtain ⟨-, ⟨⟩⟩ := Option.ite_none_right_eq_some.mp stepped
      exact .watch id
  | read index =>
      obtain ⟨-, reads⟩ := Option.ite_none_right_eq_some.mp stepped
      obtain ⟨watcher, received, rfl⟩ := Option.map_eq_some_iff.mp reads
      exact .read index watcher received
  | stop index =>
      simp only [step] at stepped
      split at stepped
      case h_1 live =>
          obtain ⟨⟨-, stops⟩, ⟨⟩⟩ := Option.ite_none_right_eq_some.mp stepped
          exact .stop index stops live
      case h_2 => cases stepped
  | shutDown =>
      cases stepped
      exact .shutDown

inductive JobStep (job : Job Stage ErrorReport) : Job Stage ErrorReport → Prop where
  | stays : JobStep job job
  | registers : job.place = .created → JobStep job { job with place := .registered }
  | prunes : job.state.isTerminal = true → JobStep job { job with place := .pruned }
  | writes (state : JobState Stage ErrorReport) : job.sending = none →
      job.state.isTerminal = false → JobStep job (job.write state)
  | sends (state : JobState Stage ErrorReport) : job.sending = some state →
      JobStep job (job.send state)
  | drops : job.place = .pruned → job.sending = none → JobStep job { job with dropped := true }

inductive WatcherStep (channel : Channel (JobState Stage ErrorReport))
    (world : World Stage ErrorReport) (action : Action Stage ErrorReport) (index : ℕ) :
    Watcher Stage ErrorReport → Prop where
  | stays : action ≠ .read index → WatcherStep channel world action index (world.watchers index)
  | reads {watcher : Watcher Stage ErrorReport} : action = .read index →
      (world.watchers index).read channel (world.jobs (world.watchers index).job) = some watcher →
      WatcherStep channel world action index watcher
  | stops : action ≠ .read index → world.shutdown = true → (world.watchers index).phase = .live →
      WatcherStep channel world action index { world.watchers index with phase := .closing }

/-- What a call of `prune` found finished has finished. -/
def World.PrunesFinished (world : World Stage ErrorReport) : Prop :=
  ∀ pruning, world.pruning = some pruning → ∀ id ∈ pruning.finished,
    (world.jobs id).state.isTerminal = true

section Steps

variable {channel : Channel (JobState Stage ErrorReport)} {world after : World Stage ErrorReport}
  {action : Action Stage ErrorReport}

theorem WatcherStep.of_eq {index : ℕ} {watcher : Watcher Stage ErrorReport}
    (other : action ≠ .read index) (same : watcher = world.watchers index) :
    WatcherStep channel world action index watcher := by
  subst same
  exact .stays other

theorem setJob_step {id : ℕ} {job : Job Stage ErrorReport} (changed : JobStep (world.jobs id) job)
    (other : ℕ) : JobStep (world.jobs other) ((world.setJob id job).jobs other) := by
  by_cases same : other = id
  · subst same
    simpa [World.setJob] using changed
  · simpa [World.setJob, same] using JobStep.stays

theorem Effect.jobs (pruned : world.PrunesFinished) (effect : Effect channel world action after)
    (id : ℕ) : JobStep (world.jobs id) (after.jobs id) := by
  cases effect with
  | insert inserted place => exact setJob_step (.registers place) id
  | remove found =>
      dsimp only
      split
      · rename_i member
        exact .prunes (pruned _ found id (List.mem_of_mem_take member))
      · exact .stays
  | write written state idle running => exact setJob_step (.writes state idle running) id
  | send sent state sending => exact setJob_step (.sends state sending) id
  | drop dropped place idle => exact setJob_step (.drops place idle) id
  | _ => exact .stays

/-- What a step does to a watcher that is there. -/
theorem Effect.watchers (effect : Effect channel world action after) {index : ℕ}
    (there : index < world.watching) :
    WatcherStep channel world action index (after.watchers index) := by
  cases effect with
  | watch id => exact .of_eq nofun (setWatcher_other world _ (Nat.ne_of_lt there))
  | read reader watcher received =>
      by_cases same : index = reader
      · subst same
        rw [setWatcher_self]
        exact .reads rfl received
      · refine .of_eq ?_ (setWatcher_other world _ same)
        rintro ⟨⟩
        exact same rfl
  | stop stopped stops live =>
      by_cases same : index = stopped
      · subst same
        rw [setWatcher_self]
        exact .stops nofun stops live
      · exact .of_eq nofun (setWatcher_other world _ same)
  | _ => exact .stays nofun

theorem Effect.shutdown (effect : Effect channel world action after)
    (stops : world.shutdown = true) : after.shutdown = true := by
  cases effect with
  | shutDown => rfl
  | _ => exact stops

theorem Effect.watching (effect : Effect channel world action after) {index : ℕ}
    (there : index < world.watching) : index < after.watching := by
  cases effect with
  | watch id => exact Nat.lt_succ_of_lt there
  | _ => exact there

/-- The watchers after a step are those before it, and the one that a call of `watch` adds. -/
theorem Effect.joins (effect : Effect channel world action after) {index : ℕ}
    (there : index < after.watching) :
    index < world.watching ∨ ∃ id, after.watchers index =
      { job := id, phase := .initial (after.jobs id).state, next := (after.jobs id).sent.length,
        frames := [] } := by
  cases effect with
  | watch id =>
      rcases Nat.lt_succ_iff_lt_or_eq.mp there with older | new
      · exact .inl older
      · subst new
        exact .inr ⟨id, setWatcher_self ..⟩
  | _ => exact .inl there

end Steps

/-! The ending of a job: it is sent once, as the last update, and the state stays. -/

/-- The state is terminal and was sent. -/
def Job.Ended (job : Job Stage ErrorReport) : Prop :=
  job.state.isTerminal = true ∧ job.sending = none

def Running (states : List (JobState Stage ErrorReport)) : Prop :=
  ∀ state ∈ states, state.isTerminal = false

theorem Running.concat {states : List (JobState Stage ErrorReport)}
    {state : JobState Stage ErrorReport} (running : Running states)
    (last : state.isTerminal = false) : Running (states ++ [state]) := by
  intro other member
  rcases List.mem_append.mp member with earlier | new
  · exact running other earlier
  · rw [List.mem_singleton.mp new]
    exact last

structure Job.Sound (job : Job Stage ErrorReport) : Prop where
  sending_state : ∀ state, job.sending = some state → job.state = state
  sent_running : ¬ job.Ended → Running job.sent
  sent_ended : job.Ended → ∃ earlier, Running earlier ∧ job.sent = earlier ++ [job.state]
  pruned_terminal : job.place = .pruned → job.state.isTerminal = true
  dropped_ended : job.dropped = true → job.Ended

theorem Job.new_sound (queued : Stage) : (Job.new queued : Job Stage ErrorReport).Sound where
  sending_state := nofun
  sent_running := fun _ => nofun
  sent_ended := fun ended => nomatch ended.1
  pruned_terminal := nofun
  dropped_ended := nofun

theorem JobStep.sound {job next : Job Stage ErrorReport} (sound : job.Sound)
    (stepped : JobStep job next) : next.Sound := by
  cases stepped with
  | stays => exact sound
  | registers created => exact { sound with pruned_terminal := nofun }
  | prunes terminal => exact { sound with pruned_terminal := fun _ => terminal }
  | writes state idle running =>
      have unfinished : ¬ job.Ended := fun ended => by simp [ended.1] at running
      refine ⟨fun other sending => Option.some.inj sending, fun _ => sound.sent_running unfinished,
        fun ended => (nomatch ended.2), fun pruned => ?_, fun dropped => ?_⟩
      · exact absurd (sound.pruned_terminal pruned) (by simp [running])
      · exact absurd (sound.dropped_ended dropped) unfinished
  | sends state sending =>
      have unfinished : ¬ job.Ended := fun ended => by simp [ended.2] at sending
      have written := sound.sending_state state sending
      have running := sound.sent_running unfinished
      refine ⟨nofun, fun open_ => ?_, fun ended => ⟨job.sent, running, by rw [← written]; rfl⟩,
        sound.pruned_terminal, fun dropped => absurd (sound.dropped_ended dropped) unfinished⟩
      refine running.concat ?_
      rw [← written]
      exact Bool.eq_false_iff.mpr fun terminal => open_ ⟨terminal, rfl⟩
  | drops pruned idle =>
      exact { sound with dropped_ended := fun _ => ⟨sound.pruned_terminal pruned, idle⟩ }

/-- A terminal state stays. -/
theorem JobStep.terminal_kept {job next : Job Stage ErrorReport} (stepped : JobStep job next)
    (terminal : job.state.isTerminal = true) : next.state = job.state := by
  cases stepped with
  | writes state idle running => simp [terminal] at running
  | _ => rfl

/-- An ending that was not there before the step is sent by it. -/
theorem JobStep.ended_sent {job next : Job Stage ErrorReport} (stepped : JobStep job next)
    (ended : next.Ended) : job.Ended ∨ job.sent.length < next.sent.length := by
  cases stepped with
  | writes state idle running => exact nomatch ended.2
  | sends state sending =>
      right
      simp [Job.send]
  | _ => exact .inl ended

theorem JobStep.sent_grows {job next : Job Stage ErrorReport} (stepped : JobStep job next) :
    job.sent.length ≤ next.sent.length := by
  cases stepped with
  | sends state sending => simp [Job.send]
  | _ => exact Nat.le_refl _

/-- After the ending nothing more is sent. -/
theorem JobStep.ended_kept {job next : Job Stage ErrorReport} (stepped : JobStep job next)
    (ended : job.Ended) : next.Ended ∧ next.sent = job.sent := by
  cases stepped with
  | writes state idle running => simp [ended.1] at running
  | sends state sending => simp [ended.2] at sending
  | _ => exact ⟨ended, rfl⟩

/-- What is found among the updates: the ending, or a running state that is not the last of them
if there is an ending. -/
theorem Job.Sound.value_at {job : Job Stage ErrorReport} (sound : job.Sound) {next : ℕ}
    {value : JobState Stage ErrorReport} (found : job.sent[next]? = some value) :
    (value.isTerminal = true ∧ value = job.state) ∨
      (value.isTerminal = false ∧ (job.Ended → next + 1 < job.sent.length)) := by
  by_cases ended : job.Ended
  · obtain ⟨earlier, running, sent⟩ := sound.sent_ended ended
    rw [sent] at found ⊢
    rcases Nat.lt_or_ge next earlier.length with before | last
    · right
      rw [List.getElem?_append_left before] at found
      refine ⟨running value (List.mem_of_getElem? found), fun _ => ?_⟩
      rw [List.length_append, List.length_singleton]
      omega
    · left
      rw [List.getElem?_append_right last, List.getElem?_singleton] at found
      obtain ⟨-, ⟨⟩⟩ := Option.ite_none_right_eq_some.mp found
      exact ⟨ended.1, rfl⟩
  · right
    exact ⟨sound.sent_running ended value (List.mem_of_getElem? found), fun other => absurd other ended⟩

/-! What a watcher was told, and how far it is from its end. -/

/-- Frames of running states and then of the job's ending. -/
def Job.Told (job : Job Stage ErrorReport) (frames : List (Frame Stage ErrorReport)) : Prop :=
  job.state.isTerminal = true ∧
    ∃ earlier, Running earlier ∧ frames = earlier.map .state ++ [.state job.state]

/-- The stream told of the ending and closed after it. -/
def Watcher.SawEnding (job : Job Stage ErrorReport) (watcher : Watcher Stage ErrorReport) : Prop :=
  ∃ told, job.Told told ∧ watcher.frames = told ++ [.done]

def Watcher.Fits (shutdown : Bool) (job : Job Stage ErrorReport)
    (watcher : Watcher Stage ErrorReport) : Prop :=
  match watcher.phase with
  | .initial state =>
      watcher.frames = [] ∧ (state.isTerminal = true → state = job.state) ∧
        (state.isTerminal = false → job.Ended → watcher.next < job.sent.length)
  | .live =>
      (∃ states, Running states ∧ watcher.frames = states.map .state) ∧
        (job.Ended → watcher.next < job.sent.length)
  | .closing => shutdown = true ∨ job.Told watcher.frames
  | .done => shutdown = true ∨ watcher.SawEnding job

structure Watcher.Sound (shutdown : Bool) (job : Job Stage ErrorReport)
    (watcher : Watcher Stage ErrorReport) : Prop where
  within : watcher.next ≤ job.sent.length
  fits : watcher.Fits shutdown job

theorem Job.told_kept {job next : Job Stage ErrorReport} {frames : List (Frame Stage ErrorReport)}
    (stepped : JobStep job next) (told : job.Told frames) : next.Told frames := by
  have same := stepped.terminal_kept told.1
  exact ⟨same ▸ told.1, same ▸ told.2⟩

/-- A watcher stays in order when its job goes on. -/
theorem Watcher.Sound.job_step {shutdown later : Bool} {job next : Job Stage ErrorReport}
    {watcher : Watcher Stage ErrorReport} (sound : watcher.Sound shutdown job)
    (stepped : JobStep job next) (stops : shutdown = true → later = true) :
    watcher.Sound later next := by
  have grows := stepped.sent_grows
  have within := sound.within
  have fits := sound.fits
  have behind : (job.Ended → watcher.next < job.sent.length) → next.Ended →
      watcher.next < next.sent.length := by
    intro before ended
    rcases stepped.ended_sent ended with already | sent
    · exact Nat.lt_of_lt_of_le (before already) grows
    · exact Nat.lt_of_le_of_lt within sent
  refine ⟨Nat.le_trans within grows, ?_⟩
  unfold Watcher.Fits at fits ⊢
  cases phase : watcher.phase with
  | initial state =>
      simp only [phase] at fits ⊢
      refine ⟨fits.1, fun terminal => ?_, fun running => behind (fits.2.2 running)⟩
      have same := fits.2.1 terminal
      rw [same] at terminal ⊢
      exact (stepped.terminal_kept terminal).symm
  | live =>
      simp only [phase] at fits ⊢
      exact ⟨fits.1, behind fits.2⟩
  | closing =>
      simp only [phase] at fits ⊢
      exact fits.imp stops (Job.told_kept stepped)
  | done =>
      simp only [phase] at fits ⊢
      refine fits.imp stops ?_
      rintro ⟨told, seen, frames⟩
      exact ⟨told, Job.told_kept stepped seen, frames⟩

section Reads

variable {channel : Channel (JobState Stage ErrorReport)} {job : Job Stage ErrorReport}
  {watcher after : Watcher Stage ErrorReport}

/-- What one turn of the loop does. A receiver that is behind gets an update or is moved on. -/
inductive Reading (job : Job Stage ErrorReport) (watcher : Watcher Stage ErrorReport) :
    Watcher Stage ErrorReport → Prop where
  | done : watcher.phase = .done → Reading job watcher watcher
  | joins (state : JobState Stage ErrorReport) : watcher.phase = .initial state →
      Reading job watcher (watcher.emit (.state state) (nextPhase state.isTerminal))
  | updates (state : JobState Stage ErrorReport) : watcher.phase = .live →
      job.sent[watcher.next]? = some state →
      Reading job watcher
        ({ watcher with next := watcher.next + 1 }.emit (.state state) (nextPhase state.isTerminal))
  | lags (later : ℕ) : watcher.phase = .live → watcher.next < later → later < job.sent.length →
      Reading job watcher { watcher with next := later, phase := .live }
  | ends : watcher.phase = .live → job.sent.length ≤ watcher.next → job.dropped = true →
      Reading job watcher { watcher with phase := .closing }
  | closes : watcher.phase = .closing → Reading job watcher (watcher.emit .done .done)

theorem read_cases (received : watcher.read channel job = some after) :
    Reading job watcher after := by
  unfold Watcher.read at received
  cases phase : watcher.phase with
  | initial state =>
      simp only [phase, Option.some.injEq] at received
      exact received ▸ .joins state phase
  | live =>
      simp only [phase] at received
      rcases Nat.lt_or_ge watcher.next job.sent.length with behind | caughtUp
      · rcases channel.recv_behind job.sent job.dropped watcher.next behind with
          ⟨value, found, gives⟩ | ⟨later, further, held, gives⟩
        · simp only [gives, Option.some.injEq] at received
          exact received ▸ .updates value phase found
        · simp only [gives, Option.some.injEq] at received
          exact received ▸ .lags later phase further held
      · rw [channel.recv_caught_up _ _ _ caughtUp] at received
        cases dropped : job.dropped with
        | true =>
            simp only [dropped, if_true, Option.some.injEq] at received
            exact received ▸ .ends phase caughtUp dropped
        | false => simp [dropped] at received
  | closing =>
      simp only [phase, Option.some.injEq] at received
      exact received ▸ .closes phase
  | done =>
      simp only [phase, Option.some.injEq] at received
      exact received ▸ .done phase

/-- A watcher of a job that has ended is never left waiting. -/
theorem read_ready {shutdown : Bool} (sound : watcher.Sound shutdown job) (ended : job.Ended) :
    (watcher.read channel job).isSome := by
  have fits := sound.fits
  unfold Watcher.Fits at fits
  unfold Watcher.read
  cases phase : watcher.phase with
  | live =>
      simp only [phase] at fits ⊢
      obtain ⟨⟨received, next⟩, gives⟩ :=
        Option.isSome_iff_exists.mp (channel.recv_ready job.dropped (fits.2 ended))
      rw [gives]
      cases received <;> rfl
  | _ => rfl

theorem Reading.sound {shutdown : Bool} (valid : job.Sound) (sound : watcher.Sound shutdown job)
    (reading : Reading job watcher after) : after.Sound shutdown job := by
  have within := sound.within
  have fits := sound.fits
  unfold Watcher.Fits at fits
  cases reading with
  | done => exact sound
  | joins state phase =>
      simp only [phase] at fits
      refine ⟨within, ?_⟩
      cases terminal : state.isTerminal with
      | true =>
          have same := fits.2.1 terminal
          exact .inr ⟨same ▸ terminal, [], nofun, by simp [Watcher.emit, fits.1, same]⟩
      | false =>
          have alone : Running [state] := fun other member => List.mem_singleton.mp member ▸ terminal
          exact ⟨⟨[state], alone, by simp [Watcher.emit, fits.1]⟩, fits.2.2 terminal⟩
  | updates state phase found =>
      simp only [phase] at fits
      obtain ⟨⟨states, running, frames⟩, -⟩ := fits
      refine ⟨(List.getElem?_eq_some_iff.mp found).1, ?_⟩
      rcases valid.value_at found with ⟨terminal, same⟩ | ⟨goes, ahead⟩
      · rw [terminal]
        exact .inr ⟨same ▸ terminal, states, running, by simp [Watcher.emit, frames, same]⟩
      · rw [goes]
        exact ⟨⟨states ++ [state], running.concat goes, by simp [Watcher.emit, frames]⟩, ahead⟩
  | lags later phase further held =>
      simp only [phase] at fits
      exact ⟨Nat.le_of_lt held, fits.1, fun _ => held⟩
  | ends phase caughtUp dropped =>
      -- A sender goes only after the ending, which the receiver has then yet to get.
      simp only [phase] at fits
      exact absurd (fits.2 (valid.dropped_ended dropped)) (Nat.not_lt.mpr caughtUp)
  | closes phase =>
      simp only [phase] at fits
      exact ⟨within, fits.imp id fun told => ⟨watcher.frames, told, rfl⟩⟩

/-- How many more turns of the loop end the stream, once its job has ended. -/
def Watcher.left (job : Job Stage ErrorReport) (watcher : Watcher Stage ErrorReport) : ℕ :=
  match watcher.phase with
  | .initial state => (if state.isTerminal then 0 else job.sent.length - watcher.next) + 2
  | .live => job.sent.length - watcher.next + 1
  | .closing => 1
  | .done => 0

theorem left_sent {job next : Job Stage ErrorReport} (same : next.sent = job.sent)
    (watcher : Watcher Stage ErrorReport) : watcher.left next = watcher.left job := by
  unfold Watcher.left
  rw [same]

theorem left_nextPhase (job : Job Stage ErrorReport) (watcher : Watcher Stage ErrorReport)
    (frame : Frame Stage ErrorReport) (terminal : Bool) :
    (watcher.emit frame (nextPhase terminal)).left job =
      (if terminal then 0 else job.sent.length - watcher.next) + 1 := by
  cases terminal
  · rfl
  · rfl

theorem Reading.left_falls {shutdown : Bool} (sound : watcher.Sound shutdown job)
    (ended : job.Ended) (reading : Reading job watcher after) :
    after.left job ≤ watcher.left job - 1 := by
  have fits := sound.fits
  unfold Watcher.Fits at fits
  cases reading with
  | done phase => simp [Watcher.left, phase]
  | joins state phase =>
      rw [left_nextPhase]
      simp [Watcher.left, phase]
  | updates state phase found =>
      simp only [phase] at fits
      have behind := fits.2 ended
      rw [left_nextPhase, Watcher.left, phase]
      dsimp only
      split
      · omega
      · omega
  | lags later phase further held =>
      simp only [Watcher.left, phase]
      omega
  | ends phase caughtUp dropped =>
      simp only [phase] at fits
      exact absurd (fits.2 ended) (Nat.not_lt.mpr caughtUp)
  | closes phase => simp [Watcher.left, Watcher.emit]

end Reads

/-! Whole runs. -/

structure World.Sound (world : World Stage ErrorReport) : Prop where
  jobs : ∀ id, (world.jobs id).Sound
  watchers : ∀ index < world.watching,
    (world.watchers index).Sound world.shutdown (world.jobs (world.watchers index).job)
  prunes : world.PrunesFinished

theorem new_sound (queued : Stage) : (World.new queued : World Stage ErrorReport).Sound where
  jobs _ := Job.new_sound queued
  watchers _ there := absurd there (Nat.not_lt_zero _)
  prunes := nofun

theorem isRead_other {action : Action Stage ErrorReport} {index : ℕ}
    (other : action ≠ .read index) : action.isRead index = false := by
  cases action with
  | read reader =>
      refine decide_eq_false ?_
      rintro rfl
      exact other rfl
  | _ => rfl

section Runs

variable {channel : Channel (JobState Stage ErrorReport)} {world after : World Stage ErrorReport}
  {action : Action Stage ErrorReport}

theorem Reading.job_kept {job : Job Stage ErrorReport} {watcher next : Watcher Stage ErrorReport}
    (reading : Reading job watcher next) : next.job = watcher.job := by
  cases reading <;> rfl

theorem WatcherStep.job_kept {index : ℕ} {watcher : Watcher Stage ErrorReport}
    (stepped : WatcherStep channel world action index watcher) :
    watcher.job = (world.watchers index).job := by
  cases stepped with
  | reads _ received => exact (read_cases received).job_kept
  | _ => rfl

theorem WatcherStep.sound {index : ℕ} {watcher : Watcher Stage ErrorReport} (sound : world.Sound)
    (there : index < world.watching) (stepped : WatcherStep channel world action index watcher) :
    watcher.Sound world.shutdown (world.jobs (world.watchers index).job) := by
  have before := sound.watchers index there
  cases stepped with
  | stays => exact before
  | reads _ received => exact (read_cases received).sound (sound.jobs _) before
  | stops _ stops _ => exact ⟨before.within, .inl stops⟩

/-- The turns that are left do not grow, and each turn takes one. -/
theorem WatcherStep.left_falls {index : ℕ} {watcher : Watcher Stage ErrorReport}
    (sound : world.Sound) (there : index < world.watching)
    (ended : (world.jobs (world.watchers index).job).Ended)
    (stepped : WatcherStep channel world action index watcher) :
    watcher.left (world.jobs (world.watchers index).job) ≤
      (world.watchers index).left (world.jobs (world.watchers index).job) -
        (if action.isRead index then 1 else 0) := by
  cases stepped with
  | stays other =>
      rw [isRead_other other]
      exact Nat.le_refl _
  | reads same received =>
      subst same
      simpa [Action.isRead] using (read_cases received).left_falls (sound.watchers index there) ended
  | stops other _ live =>
      rw [isRead_other other]
      simp [Watcher.left, live]

theorem Effect.prunes (sound : world.Sound) (effect : Effect channel world action after) :
    after.PrunesFinished := by
  have kept : ∀ id, (world.jobs id).state.isTerminal = true →
      (after.jobs id).state.isTerminal = true := by
    intro id terminal
    rw [(effect.jobs sound.prunes id).terminal_kept terminal]
    exact terminal
  intro pruning goes id member
  cases effect with
  | insert inserted place =>
      cases goes
      exact nomatch member
  | scan found =>
      cases goes
      dsimp only at member
      split at member
      · rename_i terminal
        rcases List.mem_append.mp member with before | new
        · exact sound.prunes _ found id before
        · rw [List.mem_singleton.mp new]
          exact terminal
      · exact sound.prunes _ found id member
  | remove found => cases goes
  | _ => exact kept id (sound.prunes pruning goes id member)

theorem Effect.sound (sound : world.Sound) (effect : Effect channel world action after) :
    after.Sound where
  jobs id := (effect.jobs sound.prunes id).sound (sound.jobs id)
  prunes := effect.prunes sound
  watchers := by
    intro index there
    rcases effect.joins there with old | ⟨id, joined⟩
    · have stepped := effect.watchers old
      rw [stepped.job_kept]
      exact (stepped.sound sound old).job_step (effect.jobs sound.prunes _) effect.shutdown
    · rw [joined]
      refine ⟨Nat.le_refl _, rfl, fun _ => rfl, fun running ended => ?_⟩
      exact absurd ended.1 (by simp [running])

/-- The job that a watcher watches. -/
def World.watched (world : World Stage ErrorReport) (index : ℕ) : Job Stage ErrorReport :=
  world.jobs (world.watchers index).job

def World.left (world : World Stage ErrorReport) (index : ℕ) : ℕ :=
  (world.watchers index).left (world.watched index)

/-- What a step leaves of a watcher whose job has ended. -/
theorem Effect.ended_left {index : ℕ} (sound : world.Sound) (there : index < world.watching)
    (ended : (world.watched index).Ended) (effect : Effect channel world action after) :
    (after.watched index).Ended ∧ (after.watched index).state = (world.watched index).state ∧
      after.left index ≤ world.left index - (if action.isRead index then 1 else 0) := by
  have moved := effect.watchers there
  have job := effect.jobs sound.prunes (world.watchers index).job
  have same : after.watched index = after.jobs (world.watchers index).job := by
    rw [World.watched, moved.job_kept]
  have kept := job.ended_kept ended
  rw [World.left, same]
  refine ⟨kept.1, job.terminal_kept ended.1, ?_⟩
  rw [left_sent kept.2]
  exact moved.left_falls sound there ended

/-- After the ending of its job, as many turns as are left end a stream, whatever falls between
them. -/
theorem run_left {later : List (Action Stage ErrorReport)} {index : ℕ} (sound : world.Sound)
    (there : index < world.watching) (ended : (world.watched index).Ended)
    (ran : Transition.run (step channel) world later = some after) :
    index < after.watching ∧ (after.watched index).state = (world.watched index).state ∧
      after.left index ≤ world.left index - later.countP (Action.isRead index) := by
  induction later generalizing world with
  | nil =>
      cases ran
      exact ⟨there, rfl, Nat.le_refl _⟩
  | cons action rest ih =>
      obtain ⟨next, stepped, tail⟩ := Option.bind_eq_some_iff.mp ran
      have effect := step_effect stepped
      obtain ⟨endedNext, stateNext, falls⟩ := effect.ended_left sound there ended
      obtain ⟨thereAfter, stateAfter, goes⟩ :=
        ih (effect.sound sound) (effect.watching there) endedNext tail
      refine ⟨thereAfter, stateAfter.trans stateNext, ?_⟩
      rw [List.countP_cons]
      omega

theorem run_sound {actions : List (Action Stage ErrorReport)} (sound : world.Sound)
    (ran : Transition.run (step channel) world actions = some after) : after.Sound :=
  (Transition.run_reaches ran).invariant World.Sound sound fun _ _ _ _ before stepped =>
    (step_effect stepped).sound before

theorem World.Sound.done_told {index : ℕ} (sound : world.Sound) (there : index < world.watching)
    (done : (world.watchers index).phase = .done) :
    world.shutdown = true ∨ (world.watchers index).SawEnding (world.watched index) := by
  have fits := (sound.watchers index there).fits
  unfold Watcher.Fits at fits
  simpa only [done, World.watched] using fits

theorem left_zero {index : ℕ} (none : world.left index = 0) :
    (world.watchers index).phase = .done := by
  unfold World.left Watcher.left at none
  cases phase : (world.watchers index).phase with
  | done => rfl
  | _ => simp [phase] at none

end Runs

/-- In every run: a job that is removed has ended. A stream that has ended told its client of the
ending of its job as the last of the states, unless the gateway was shut down. Once the job has
ended the stream is never left waiting, and as many turns as it has left end it, whatever else is
done between them. -/
theorem watchers_see_ending (channel : Channel (JobState Stage ErrorReport)) (queued : Stage)
    {actions : List (Action Stage ErrorReport)} {world : World Stage ErrorReport}
    (ran : Transition.run (step channel) (World.new queued) actions = some world) :
    (∀ id, (world.jobs id).place = .pruned → (world.jobs id).state.isTerminal = true) ∧
    (∀ id, (world.jobs id).state.isTerminal = true →
      (world.jobs id).Ended ∨ (step channel world (.send id)).isSome) ∧
    ∀ index < world.watching,
      ((world.watchers index).phase = .done →
        world.shutdown = true ∨ (world.watchers index).SawEnding (world.watched index)) ∧
      ((world.watched index).Ended →
        (step channel world (.read index)).isSome ∧
        ∀ later after, Transition.run (step channel) world later = some after →
          world.left index ≤ later.countP (Action.isRead index) →
            (after.watchers index).phase = .done ∧
            (after.watched index).state = (world.watched index).state ∧
            (after.shutdown = true ∨ (after.watchers index).SawEnding (after.watched index))) := by
  have sound : world.Sound := run_sound (new_sound queued) ran
  refine ⟨fun id => (sound.jobs id).pruned_terminal, ?_, ?_⟩
  · intro id terminal
    cases sending : (world.jobs id).sending with
    | none => exact .inl ⟨terminal, sending⟩
    | some state =>
        right
        simp [step, sending]
  · intro index there
    refine ⟨sound.done_told there, fun ended => ⟨?_, ?_⟩⟩
    · have ready : ((world.watchers index).read channel (world.watched index)).isSome :=
        read_ready (sound.watchers index there) ended
      simpa [step, there, World.watched] using ready
    · intro later after goes enough
      obtain ⟨thereAfter, state, falls⟩ := run_left sound there ended goes
      have done := left_zero (Nat.le_zero.mp (Nat.sub_eq_zero_of_le enough ▸ falls))
      exact ⟨done, state, (run_sound sound goes).done_told thereAfter done⟩

/-- The channel of a job. -/
def updates : Channel (JobState Stage ErrorReport) := bounded updateBacklog (by decide)

/-- A watcher joins between the two statements of the call that ends its job. -/
def joinedMidway : List (Action Unit Unit) :=
  [.create, .insert 0, .scan, .remove, .write 0 (.succeeded none), .watch 0, .send 0]

theorem joined_midway_sees_ending :
    ∃ world after : World Unit Unit,
      Transition.run (step updates) (World.new ()) joinedMidway = some world ∧
      Transition.run (step updates) world [.read 0, .read 0] = some after ∧
      (after.watchers 0).phase = .done ∧
      (after.shutdown = true ∨ (after.watchers 0).SawEnding (after.watched 0)) := by
  have ends : ∀ {world after : World Unit Unit},
      Transition.run (step updates) (World.new ()) joinedMidway = some world →
      Transition.run (step updates) world [.read 0, .read 0] = some after →
      0 < world.watching → (world.watched 0).Ended → world.left 0 ≤ 2 →
      (after.watchers 0).phase = .done ∧
        (after.shutdown = true ∨ (after.watchers 0).SawEnding (after.watched 0)) := by
    intro world after ran goes there ended enough
    have ending := ((watchers_see_ending updates () ran).2.2 0 there).2 ended
    obtain ⟨done, -, told⟩ := ending.2 [.read 0, .read 0] after goes enough
    exact ⟨done, told⟩
  refine ⟨_, _, rfl, rfl, ends rfl rfl ?_ ⟨?_, ?_⟩ ?_⟩
  · decide
  · decide
  · rfl
  · decide

/-- A gateway that shuts down ends the streams itself: a watcher of a job that is then cancelled is
not told. -/
theorem shutdown_hides_ending :
    ¬ ∀ (actions : List (Action Unit Unit)) (world : World Unit Unit),
      Transition.run (step updates) (World.new ()) actions = some world →
      ∀ index < world.watching, (world.watched index).Ended →
        (world.watchers index).phase = .done →
        (world.watchers index).SawEnding (world.watched index) := by
  intro all
  obtain ⟨told, ⟨-, earlier, -, frames⟩, ending⟩ :=
    all [.create, .insert 0, .scan, .remove, .watch 0, .read 0, .shutDown, .write 0 .cancelled,
      .send 0, .stop 0, .read 0] _ rfl 0 (by decide) ⟨rfl, rfl⟩ rfl
  have told_eq : told = earlier.map .state ++ [.state .cancelled] := frames
  have sent : [Frame.state (.running ()), .done] = told ++ [.done] := ending
  rw [told_eq] at sent
  cases earlier with
  | nil => exact absurd sent (by decide)
  | cons state rest => cases rest <;> simp at sent

end Lightweight.Gateway.JobWatch
