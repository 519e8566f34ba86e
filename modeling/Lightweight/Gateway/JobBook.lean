import Lightweight.Gateway.JobWatch

/-! What is left of the jobs of a gateway that goes on (`lightweight-gateway/src/jobs.rs`), and a panel
that asks for one again and again until it has ended (`followJob` in `frontend/src/api/client.ts`). -/

namespace Lightweight.Gateway.JobWatch

open Broadcast

variable {Stage ErrorReport : Type} {channel : Channel (JobState Stage ErrorReport)}
  {world after : World Stage ErrorReport} {action : Action Stage ErrorReport}

/-- `Jobs::get`, and the answer to a request for a job. -/
def World.get (world : World Stage ErrorReport) (id : ℕ) : Option (JobState Stage ErrorReport) :=
  if (world.jobs id).place = .registered then some (world.jobs id).state else none

/-- How following a job ends. -/
inductive FollowEnd (ErrorReport : Type) where
  | succeeded
  | cancelled
  | failed (error : ErrorReport)
  | unknown
deriving DecidableEq, Repr

/-- The loop of `followJob`, by the answers it gets; none while it waits for the next one. -/
def followJob : List (Option (JobState Stage ErrorReport)) → Option (FollowEnd ErrorReport)
  | [] => none
  | none :: _ => some .unknown
  | some (.running _) :: rest => followJob rest
  | some (.succeeded _) :: _ => some .succeeded
  | some (.failed error) :: _ => some (.failed error)
  | some .cancelled :: _ => some .cancelled

/-- The answers for a job, each after some more of the run, and where the run is in the end. -/
def polled (channel : Channel (JobState Stage ErrorReport)) (id : ℕ) :
    World Stage ErrorReport → List (List (Action Stage ErrorReport)) →
      Option (List (Option (JobState Stage ErrorReport)) × World Stage ErrorReport)
  | world, [] => some ([], world)
  | world, actions :: rest =>
      (Transition.run (step channel) world actions).bind fun next =>
        (polled channel id next rest).map fun (answers, last) => (next.get id :: answers, last)

/-- As many newer jobs have ended as are kept. -/
def World.Outnumbered (world : World Stage ErrorReport) (id : ℕ) : Prop :=
  ∃ newer : List ℕ, newer.Nodup ∧ keepFinished ≤ newer.length ∧
    ∀ other ∈ newer, id < other ∧ (world.jobs other).state.isTerminal = true

structure World.Retains (world : World Stage ErrorReport) : Prop where
  pruned : ∀ id, (world.jobs id).place = .pruned → world.Outnumbered id
  sorted : ∀ pruning, world.pruning = some pruning →
    (pruning.finished ++ pruning.unread).Pairwise (· < ·)

theorem new_retains (queued : Stage) : (World.new queued : World Stage ErrorReport).Retains where
  pruned _ none_ := nomatch none_
  sorted _ none_ := nomatch none_

theorem registered_sorted (world : World Stage ErrorReport) :
    world.registered.Pairwise (· < ·) :=
  List.pairwise_lt_range.sublist List.filter_sublist

theorem Effect.terminal_kept (sound : world.Sound) (effect : Effect channel world action after)
    {id : ℕ} (terminal : (world.jobs id).state.isTerminal = true) :
    (after.jobs id).state.isTerminal = true := by
  rw [(effect.jobs sound.prunes id).terminal_kept terminal]
  exact terminal

theorem Effect.outnumbered (sound : world.Sound) (effect : Effect channel world action after) {id : ℕ}
    (outnumbered : world.Outnumbered id) : after.Outnumbered id := by
  obtain ⟨newer, once, enough, ended⟩ := outnumbered
  refine ⟨newer, once, enough, ?_⟩
  intro other member
  exact ⟨(ended other member).1, effect.terminal_kept sound (ended other member).2⟩

/-- What is removed was found finished, with as many behind it as are kept. -/
theorem removed_outnumbered {finished : List ℕ} (sorted : finished.Pairwise (· < ·))
    (ended : ∀ id ∈ finished, (world.jobs id).state.isTerminal = true) {id : ℕ}
    (removed : id ∈ Pruning.removed { unread := [], finished := finished }) :
    world.Outnumbered id := by
  have removed : id ∈ finished.take (finished.length - keepFinished) := removed
  have long : 0 < (finished.take (finished.length - keepFinished)).length :=
    List.length_pos_of_mem removed
  rw [List.length_take] at long
  refine ⟨finished.drop (finished.length - keepFinished), ?_, ?_, ?_⟩
  · exact (sorted.imp fun less => Nat.ne_of_lt less).sublist (List.drop_sublist _ _)
  · rw [List.length_drop]
    omega
  · intro other member
    rw [← List.take_append_drop (finished.length - keepFinished) finished] at sorted
    exact ⟨(List.pairwise_append.mp sorted).2.2 id removed other member,
      ended other (List.mem_of_mem_drop member)⟩

theorem setJob_pruned {id other : ℕ} {job : Job Stage ErrorReport}
    (kept : job.place = .pruned → (world.jobs id).place = .pruned)
    (pruned : ((world.setJob id job).jobs other).place = .pruned) :
    (world.jobs other).place = .pruned := by
  have pruned : (Function.update world.jobs id job other).place = .pruned := pruned
  by_cases same : other = id
  · subst same
    rw [Function.update_self] at pruned
    exact kept pruned
  · rw [Function.update_of_ne same] at pruned
    exact pruned

theorem Effect.retains (sound : world.Sound) (retains : world.Retains)
    (effect : Effect channel world action after) : after.Retains := by
  have later {id : ℕ} (outnumbered : world.Outnumbered id) : after.Outnumbered id :=
    effect.outnumbered sound outnumbered
  have earlier {id : ℕ} (pruned : (world.jobs id).place = .pruned) : after.Outnumbered id :=
    later (retains.pruned id pruned)
  cases effect with
  | insert id place =>
      constructor
      · intro other pruned
        have inserted : { world.jobs id with place := .registered }.place = .pruned →
            (world.jobs id).place = .pruned := by
          intro none_
          cases none_
        exact earlier (setJob_pruned inserted pruned)
      · intro pruning goes
        cases goes
        exact registered_sorted _
  | @scan id unread finished found =>
      refine ⟨fun other pruned => earlier pruned, ?_⟩
      intro pruning goes
      cases goes
      have sorted : (finished ++ id :: unread).Pairwise (· < ·) := retains.sorted _ found
      dsimp only
      split
      · rw [List.append_assoc]
        exact sorted
      · exact sorted.sublist ((List.sublist_cons_self id unread).append_left finished)
  | @remove finished found =>
      constructor
      · intro id pruned
        by_cases removed : id ∈ Pruning.removed { unread := [], finished := finished }
        · have sorted : (finished ++ []).Pairwise (· < ·) := retains.sorted _ found
          rw [List.append_nil] at sorted
          exact later (removed_outnumbered sorted (sound.prunes _ found) removed)
        · have pruned : (if id ∈ Pruning.removed { unread := [], finished := finished } then
              { world.jobs id with place := .pruned } else world.jobs id).place = .pruned := pruned
          rw [if_neg removed] at pruned
          exact earlier pruned
      · intro pruning none_
        cases none_
  | write id state idle running =>
      have kept (same : ((world.jobs id).write state).place = .pruned) : (world.jobs id).place = .pruned := same
      exact ⟨fun other pruned => earlier (setJob_pruned kept pruned), retains.sorted⟩
  | send id state sending =>
      have kept (same : ((world.jobs id).send state).place = .pruned) : (world.jobs id).place = .pruned := same
      exact ⟨fun other pruned => earlier (setJob_pruned kept pruned), retains.sorted⟩
  | drop id place idle =>
      have kept (same : { world.jobs id with dropped := true }.place = .pruned) : (world.jobs id).place = .pruned := same
      exact ⟨fun other pruned => earlier (setJob_pruned kept pruned), retains.sorted⟩
  | create => exact ⟨fun other pruned => earlier pruned, retains.sorted⟩
  | watch id => exact ⟨fun other pruned => earlier pruned, retains.sorted⟩
  | read index watcher received => exact ⟨fun other pruned => earlier pruned, retains.sorted⟩
  | stop index stops live => exact ⟨fun other pruned => earlier pruned, retains.sorted⟩
  | shutDown => exact ⟨fun other pruned => earlier pruned, retains.sorted⟩

/-- What holds of every state that is reached. -/
structure World.Orderly (world : World Stage ErrorReport) : Prop where
  sound : world.Sound
  retains : world.Retains

theorem Effect.orderly (orderly : world.Orderly) (effect : Effect channel world action after) :
    after.Orderly where
  sound := effect.sound orderly.sound
  retains := effect.retains orderly.sound orderly.retains

theorem run_orderly {actions : List (Action Stage ErrorReport)} (orderly : world.Orderly)
    (ran : Transition.run (step channel) world actions = some after) : after.Orderly :=
  (Transition.run_reaches ran).invariant World.Orderly orderly fun _ _ _ _ before stepped =>
    (step_effect stepped).orderly before

theorem JobStep.inserted {job next : Job Stage ErrorReport} (stepped : JobStep job next)
    (there : job.place ≠ .created) : next.place ≠ .created := by
  cases stepped with
  | registers place => exact absurd place there
  | prunes terminal => exact fun none_ => nomatch none_
  | _ => exact there

/-- What a run keeps of one job: that it is in the registry or was, and the state it has ended in. -/
theorem run_kept {actions : List (Action Stage ErrorReport)} (orderly : world.Orderly)
    (ran : Transition.run (step channel) world actions = some after) (id : ℕ) :
    ((world.jobs id).place ≠ .created → (after.jobs id).place ≠ .created) ∧
      ((world.jobs id).state.isTerminal = true → (after.jobs id).state = (world.jobs id).state) ∧
      (world.Outnumbered id → after.Outnumbered id) := by
  have kept := (Transition.run_reaches ran).invariant
    (fun later : World Stage ErrorReport => later.Orderly ∧
      ((world.jobs id).place ≠ .created → (later.jobs id).place ≠ .created) ∧
      ((world.jobs id).state.isTerminal = true → (later.jobs id).state = (world.jobs id).state) ∧
      (world.Outnumbered id → later.Outnumbered id))
    ⟨orderly, fun same => same, fun _ => rfl, fun same => same⟩ ?_
  · exact kept.2
  · intro before action next _ held stepped
    have effect := step_effect stepped
    have job := effect.jobs held.1.sound.prunes id
    refine ⟨effect.orderly held.1, ?_, ?_, ?_⟩
    · exact fun there => job.inserted (held.2.1 there)
    · intro terminal
      have same := held.2.2.1 terminal
      rw [← same] at terminal
      rw [job.terminal_kept terminal, same]
    · intro outnumbered
      exact effect.outnumbered held.1.sound (held.2.2.2 outnumbered)

theorem run_append {first last : List (Action Stage ErrorReport)} {middle : World Stage ErrorReport}
    (begun : Transition.run (step channel) world first = some middle)
    (rest : Transition.run (step channel) middle last = some after) :
    Transition.run (step channel) world (first ++ last) = some after := by
  induction first generalizing world with
  | nil =>
      cases begun
      exact rest
  | cons action first ih =>
      obtain ⟨next, stepped, tail⟩ := Option.bind_eq_some_iff.mp begun
      exact Option.bind_eq_some_iff.mpr ⟨next, stepped, ih tail⟩

theorem polled_run {id : ℕ} {chunks : List (List (Action Stage ErrorReport))}
    {answers : List (Option (JobState Stage ErrorReport))}
    (asked : polled channel id world chunks = some (answers, after)) :
    Transition.run (step channel) world chunks.flatten = some after := by
  induction chunks generalizing world answers with
  | nil =>
      cases asked
      rfl
  | cons actions chunks ih =>
      obtain ⟨next, ran, rest⟩ := Option.bind_eq_some_iff.mp asked
      obtain ⟨⟨others, last⟩, polls, same⟩ := Option.map_eq_some_iff.mp rest
      cases same
      exact run_append ran (ih polls)

/-- What the end of following a job says is so. -/
def World.Confirms (world : World Stage ErrorReport) (id : ℕ) : FollowEnd ErrorReport → Prop
  | .succeeded => ∃ model, (world.jobs id).state = .succeeded model
  | .cancelled => (world.jobs id).state = .cancelled
  | .failed error => (world.jobs id).state = .failed error
  | .unknown => (world.jobs id).state.isTerminal = true ∧ world.Outnumbered id

theorem run_confirms {actions : List (Action Stage ErrorReport)} (orderly : world.Orderly)
    (ran : Transition.run (step channel) world actions = some after) {id : ℕ}
    {ending : FollowEnd ErrorReport} (confirmed : world.Confirms id ending) :
    after.Confirms id ending := by
  have kept := run_kept orderly ran id
  cases ending with
  | succeeded =>
      obtain ⟨model, state⟩ := confirmed
      exact ⟨model, by rw [kept.2.1 (by rw [state]; rfl), state]⟩
  | cancelled =>
      have state : (world.jobs id).state = .cancelled := confirmed
      exact (kept.2.1 (by rw [state]; rfl)).trans state
  | failed error =>
      have state : (world.jobs id).state = .failed error := confirmed
      exact (kept.2.1 (by rw [state]; rfl)).trans state
  | unknown =>
      refine ⟨?_, kept.2.2 confirmed.2⟩
      rw [kept.2.1 confirmed.1]
      exact confirmed.1

/-- A job that is asked for is in the registry as it is, or has ended and was outnumbered. -/
theorem World.Orderly.get (orderly : world.Orderly) {id : ℕ}
    (there : (world.jobs id).place ≠ .created) :
    world.get id = some (world.jobs id).state ∨
      world.get id = none ∧ world.Confirms id .unknown := by
  rw [World.get]
  cases place : (world.jobs id).place with
  | created => exact absurd place there
  | registered => exact Or.inl rfl
  | pruned =>
      right
      exact ⟨rfl, (orderly.sound.jobs id).pruned_terminal place, orderly.retains.pruned id place⟩

theorem followed {id : ℕ} {chunks : List (List (Action Stage ErrorReport))}
    {answers : List (Option (JobState Stage ErrorReport))} (orderly : world.Orderly)
    (there : (world.jobs id).place ≠ .created)
    (asked : polled channel id world chunks = some (answers, after)) :
    (∀ ending, followJob answers = some ending → after.Confirms id ending) ∧
      ((world.jobs id).state.isTerminal = true → chunks ≠ [] → followJob answers ≠ none) := by
  induction chunks generalizing world answers with
  | nil =>
      cases asked
      exact ⟨fun _ none_ => (nomatch none_), fun _ none_ => absurd rfl none_⟩
  | cons actions chunks ih =>
      obtain ⟨next, ran, rest⟩ := Option.bind_eq_some_iff.mp asked
      obtain ⟨⟨others, last⟩, polls, same⟩ := Option.map_eq_some_iff.mp rest
      cases same
      have kept := run_kept orderly ran id
      have ordered := run_orderly orderly ran
      have rest := ih ordered (kept.1 there) polls
      rcases ordered.get (kept.1 there) with found | gone
      · rw [found]
        cases state : (next.jobs id).state with
        | running stage =>
            refine ⟨rest.1, ?_⟩
            intro ended
            have same := kept.2.1 ended
            rw [state] at same
            rw [← same] at ended
            cases ended
        | succeeded model =>
            refine ⟨?_, fun _ _ none_ => nomatch none_⟩
            intro ending same
            cases same
            have confirmed : next.Confirms id .succeeded := ⟨model, state⟩
            exact run_confirms ordered (polled_run polls) confirmed
        | failed error =>
            refine ⟨?_, fun _ _ none_ => nomatch none_⟩
            intro ending same
            cases same
            have confirmed : next.Confirms id (.failed error) := state
            exact run_confirms ordered (polled_run polls) confirmed
        | cancelled =>
            refine ⟨?_, fun _ _ none_ => nomatch none_⟩
            intro ending same
            cases same
            have confirmed : next.Confirms id .cancelled := state
            exact run_confirms ordered (polled_run polls) confirmed
      · rw [gone.1]
        refine ⟨?_, fun _ _ none_ => nomatch none_⟩
        intro ending same
        cases same
        exact run_confirms ordered (polled_run polls) gone.2

/-- Whatever else goes on, a panel that follows a job it has started ends with how the job did, for
good; it is told that there is no such job only when the job has ended and as many newer ones as are
kept have too. After the job has ended, the next answer ends it. -/
theorem follow_told (channel : Channel (JobState Stage ErrorReport)) (queued : Stage)
    {actions : List (Action Stage ErrorReport)}
    (ran : Transition.run (step channel) (World.new queued) actions = some world) {id : ℕ}
    (started : (world.jobs id).place ≠ .created)
    {chunks : List (List (Action Stage ErrorReport))}
    {answers : List (Option (JobState Stage ErrorReport))}
    (asked : polled channel id world chunks = some (answers, after)) :
    (∀ ending, followJob answers = some ending → after.Confirms id ending) ∧
      ((world.jobs id).state.isTerminal = true → chunks ≠ [] → followJob answers ≠ none) :=
  followed (run_orderly ⟨new_sound queued, new_retains queued⟩ ran) started asked

/-- A job is started, goes on, and fails between two answers. -/
theorem follow_told_failed :
    ∃ world after answers,
      Transition.run (step updates) (World.new ()) [.create, .insert 0, .scan, .remove] =
        some world ∧
      polled updates 0 world [[.write 0 (.running ()), .send 0], [.write 0 (.failed ())]] =
        some (answers, after) ∧
      followJob answers = some (.failed ()) ∧ after.Confirms 0 (.failed ()) := by
  refine ⟨_, _, _, rfl, rfl, rfl, ?_⟩
  have told := follow_told updates () (rfl : Transition.run (step updates) (World.new ())
    [.create, .insert 0, .scan, .remove] = some _) (by decide)
    (rfl : polled updates 0 _ [[.write 0 (.running ()), .send 0], [.write 0 (.failed ())]] =
      some (_, _))
  exact told.1 (.failed ()) rfl

end Lightweight.Gateway.JobWatch
