import Mathlib.Data.List.Infix
import Lightweight.Newest
import Lightweight.Transition
import Lightweight.Backend.Supervisor

/-! The start of an engine: up to three launches, each polled until something answers on its port,
the engine ends or the time is up; what is left of an engine that did not start; and what the
report of it says. Other processes, the engine and its log readers go on at any point between. -/

namespace Lightweight.Backend.EngineStart

open Lightweight.Backend

/-- stderr lines kept for crash reports. -/
def stderrTailLines : Nat := 64

/-- How often readiness is polled while the engine loads, in milliseconds. -/
def readyPollInterval : Nat := 200

/-- How many times a launch is attempted before giving up. -/
def maxStartAttempts : Nat := 3

inductive Pipe where
  | stderr
  | stdout
deriving DecidableEq, Repr

/-- How a process ended. -/
inductive Status where
  | exited (code : Int)
  | signalled (signal : Nat)
deriving DecidableEq, Repr

/-- How the engine process ended. -/
inductive ExitClassification where
  | clean
  | failed (code : Int)
  | signalled (signal : Nat)
  | running
deriving DecidableEq, Repr

def classify : Status → ExitClassification
  | .signalled signal => .signalled signal
  | .exited code => if code = 0 then .clean else .failed code

inductive StartError where
  | runtimeMissing (path : String)
  | modelNotFound (path : String)
  | io (context : String)
  | runtimeDownloadFailed (reason : String)
  | cancelled
  | startTimeout (seconds : Nat)
  | engineUnavailable
  | engineCrashed (detail : String) (exitCode : Option Int) (signal : Option Nat)
      (tail : List String)
  | engineOom (tail : List String)
  | unsupportedCpuInstruction (detected : String)
deriving DecidableEq, Repr

/-- What is read off the machine for a report: its instruction sets, and whether hardly any memory
was free. -/
structure Machine where
  detected : String
  starved : Bool

def sigill : Nat := 4
def sigkill : Nat := 9
def sigsegv : Nat := 11

/-- Turn an exit into the most specific error available. -/
def ExitClassification.intoError (machine : Machine) (tail : List String) :
    ExitClassification → StartError
  | .clean | .running => .engineUnavailable
  | .failed code => .engineCrashed ("exited with status " ++ toString code) (some code) none tail
  | .signalled signal =>
      if signal = sigill then .unsupportedCpuInstruction machine.detected
      else if signal = sigkill then
        if machine.starved then .engineOom tail
        else .engineCrashed "killed (signal 9)" none (some sigkill) tail
      else
        .engineCrashed
          (if signal = sigsegv then "crashed with a segmentation fault"
            else "killed by signal " ++ toString signal)
          none (some signal) tail

/-- What to launch, and how. -/
structure StartConfig where
  serverPath : String
  engine : EngineConfig
  /-- In milliseconds. -/
  startTimeout : Nat

/-- An engine process and the handle on it. -/
structure Engine where
  port : UInt16
  apiKey : String
  args : List String
  status : Option Status
  /-- The operating system once would not say how it is doing. -/
  unwaitable : Bool
  /-- What it has written, by lines; nothing for a line that is not UTF-8. -/
  written : Pipe → List (Option String)
  /-- Which lines its log readers have taken, in their order. -/
  heard : List (Pipe × String)
  stderrTail : Ring String
  pumping : Pipe → Bool
  probes : Nat

/-- The lines that readers have taken from a pipe. -/
def heardOf (heard : List (Pipe × String)) (pipe : Pipe) : List String :=
  (heard.filter (·.1 = pipe)).map (·.2)

/-- The lines that a reader can take, which stops at one that is not UTF-8. -/
def readable : List (Option String) → List String
  | some line :: rest => line :: readable rest
  | _ => []

/-- What happens to a running engine from outside. -/
inductive EngineEvent where
  | ends (status : Status)
  | writes (pipe : Pipe) (line : Option String)
  /-- A log reader takes the next line, or stops at it. -/
  | takes (pipe : Pipe)
  /-- A log reader finds the end of its pipe. -/
  | atEnd (pipe : Pipe)

def Engine.happens (engine : Engine) : EngineEvent → Option Engine
  | .ends status =>
      if engine.status = none then some { engine with status := some status } else none
  | .writes pipe line =>
      if engine.status = none then
        some { engine with
          written := Function.update engine.written pipe (engine.written pipe ++ [line]) }
      else none
  | .takes pipe =>
      if engine.pumping pipe then
        match (engine.written pipe)[(heardOf engine.heard pipe).length]? with
        | some (some line) =>
            some { engine with
              heard := engine.heard ++ [(pipe, line)]
              stderrTail := engine.stderrTail.push stderrTailLines line }
        | some none => some { engine with pumping := Function.update engine.pumping pipe false }
        | none => none
      else none
  | .atEnd pipe =>
      if engine.pumping pipe = true ∧ engine.status ≠ none ∧
          (engine.written pipe).length ≤ (heardOf engine.heard pipe).length then
        some { engine with pumping := Function.update engine.pumping pipe false }
      else none

/-- Whether the process has ended, and how. -/
def Engine.pollExit (engine : Engine) (waitable : Bool) : ExitClassification × Engine :=
  if waitable then (engine.status.elim .running classify, engine)
  else (.failed (-1), { engine with unwaitable := true })

/-- The process is gone, by a kill where it was not before. -/
def Engine.killed (engine : Engine) : Engine :=
  { engine with status := some (engine.status.getD (.signalled sigkill)) }

/-- What the outside answers to one launch. -/
structure Launch where
  serverIsFile : Bool
  modelIsFile : Bool
  port : Except String UInt16
  apiKey : Except String String
  spawned : Bool
  client : Except String Unit

/-- Where a call of `start` is. -/
inductive Phase where
  | launching
  /-- At the head of the readiness loop. -/
  | polling
  | probing
  | probed
  | asleep (wakes : Nat)
  | readingTail (exit : ExitClassification)
  | draining (error : StartError)
  | stopping (error : StartError)
  | done (result : Except StartError Unit)
  /-- The caller has given up on the call. -/
  | dropped

structure World where
  /-- The engines that this call is done with. -/
  before : List Engine
  child : Option Engine
  attempt : Nat
  phase : Phase
  cancelled : Bool
  now : Nat
  deadline : Nat
  /-- Both log readers had finished when the tail was read for the report. -/
  whole : Bool

def World.start (now : Nat) : World := ⟨[], none, 1, .launching, false, now, now, false⟩

/-- All engines of a call, in the order of their launches. -/
def World.launched (world : World) : List Engine := world.before ++ world.child.toList

/-- Whether a startup failure is the transient port race worth another attempt. -/
def isRetryableStartup : StartError → Bool
  | .engineCrashed _ (some _) none _ => true
  | _ => false

/-- Attach captured stderr to an error that does not already carry it. -/
def enrich (captured : List String) : StartError → StartError
  | .engineCrashed detail exitCode signal tail =>
      .engineCrashed detail exitCode signal (if tail = [] then captured else tail)
  | .engineOom tail => .engineOom (if tail = [] then captured else tail)
  | other => other

/-- An attempt has failed: there is another, or the call returns. -/
def World.settle (world : World) (error : StartError) : World :=
  if world.attempt < maxStartAttempts ∧ isRetryableStartup error = true then
    { world with phase := .launching, attempt := world.attempt + 1 }
  else { world with phase := .done (.error error) }

/-- An engine with nothing written yet and both log readers at work. -/
def Engine.new (config : StartConfig) (port : UInt16) (apiKey : String) : Engine where
  port := port
  apiKey := apiKey
  args := buildArgs config.engine port
  status := none
  unwaitable := false
  written _ := []
  heard := []
  stderrTail := Ring.empty
  pumping _ := true
  probes := 0

/-- The head of `start_attempt`, up to its first poll. -/
def World.launch (world : World) (config : StartConfig) (answers : Launch) : World :=
  if answers.serverIsFile = false then world.settle (.runtimeMissing config.serverPath)
  else if answers.modelIsFile = false then world.settle (.modelNotFound config.engine.modelPath)
  else match answers.port with
  | .error context => world.settle (.io context)
  | .ok port =>
      match answers.apiKey with
      | .error context => world.settle (.io context)
      | .ok apiKey =>
          if answers.spawned = false then world.settle (.io ("launching " ++ config.serverPath))
          else
            { world with
              child := some (Engine.new config port apiKey)
              deadline := world.now + config.startTimeout
              phase :=
                match answers.client with
                | .error reason => .draining (.runtimeDownloadFailed reason)
                | .ok _ => .polling }

inductive Act where
  | engine (event : EngineEvent)
  | cancel
  | passes (time : Nat)
  | launch (answers : Launch)
  | poll (waitable : Bool)
  /-- The health probe comes back. Whatever listens on the port answers it. -/
  | probe (success : Bool)
  | pollAgain (waitable : Bool)
  | wake
  | readTail (machine : Machine)
  | drain
  /-- `shutdown` sees the engine end in time. -/
  | ended
  /-- `shutdown` kills it. -/
  | kill
  | drop

def Phase.inProgress : Phase → Bool
  | .done _ | .dropped => false
  | _ => true

/-- What the call does with the engine it has: its readiness loop, its report and its shutdown. -/
def World.attend (config : StartConfig) (world : World) (engine : Engine) : Act → Option World
  | .poll waitable =>
      match world.phase with
      | .polling =>
          if world.cancelled then some { world with phase := .draining .cancelled }
          else
            let polled := engine.pollExit waitable
            some { world with
              child := some polled.2
              phase := if polled.1 = .running then .probing else .readingTail polled.1 }
      | _ => none
  | .probe success =>
      match world.phase with
      | .probing =>
          some { world with
            child := some { engine with probes := engine.probes + 1 }
            phase := if success then .done (.ok ()) else .probed }
      | _ => none
  | .pollAgain waitable =>
      match world.phase with
      | .probed =>
          let polled := engine.pollExit waitable
          some { world with
            child := some polled.2
            phase :=
              if polled.1 = .running then
                if world.deadline ≤ world.now then
                  .draining (.startTimeout (config.startTimeout / 1000))
                else .asleep (world.now + readyPollInterval)
              else .readingTail polled.1 }
      | _ => none
  | .wake =>
      match world.phase with
      | .asleep time => if time ≤ world.now then some { world with phase := .polling } else none
      | _ => none
  | .readTail machine =>
      match world.phase with
      | .readingTail exit =>
          some { world with
            phase := .draining (exit.intoError machine engine.stderrTail.kept)
            whole := !engine.pumping .stderr && !engine.pumping .stdout }
      | _ => none
  | .drain =>
      match world.phase with
      | .draining error =>
          some { world with phase := .stopping (enrich engine.stderrTail.kept error) }
      | _ => none
  | .ended =>
      match world.phase with
      | .stopping error =>
          if engine.status = none then none
          else
            some (World.settle
              { world with before := world.before ++ [engine], child := none } error)
      | _ => none
  | .kill =>
      match world.phase with
      | .stopping error =>
          some (World.settle
            { world with before := world.before ++ [engine.killed], child := none } error)
      | _ => none
  | _ => none

def step (config : StartConfig) (world : World) : Act → Option World
  | .engine event =>
      (world.child.bind (·.happens event)).map fun engine => { world with child := some engine }
  | .cancel => some { world with cancelled := true }
  | .passes time => some { world with now := world.now + time }
  | .launch answers =>
      match world.phase with
      | .launching => some (world.launch config answers)
      | _ => none
  | .drop =>
      if world.phase.inProgress = false then none
      else
        some { world with
          before := world.before ++ world.child.toList.map Engine.killed
          child := none
          phase := .dropped }
  | act => world.child.bind fun engine => world.attend config engine act

/-! ### What the log readers have taken -/

section Lines

variable {taken : List String} {lines more : List (Option String)}

theorem length_readable_le (lines : List (Option String)) :
    (readable lines).length ≤ lines.length := by
  induction lines with
  | nil => exact le_rfl
  | cons first rest ih =>
      cases first with
      | none => exact Nat.zero_le _
      | some line => simpa [readable] using ih

theorem readable_grows (lines more : List (Option String)) :
    readable lines <+: readable (lines ++ more) := by
  induction lines with
  | nil => exact List.nil_prefix
  | cons first rest ih =>
      cases first with
      | none => exact List.nil_prefix
      | some line => exact List.cons_prefix_cons.mpr ⟨rfl, ih⟩

theorem readable_stopped (stops : none ∈ lines) : readable (lines ++ more) = readable lines := by
  induction lines with
  | nil => cases stops
  | cons first rest ih =>
      cases first with
      | none => rfl
      | some line =>
          have later : none ∈ rest := by simpa using stops
          simp [readable, ih later]

/-- A reader takes the next line. -/
theorem taken_next (ordered : taken <+: readable lines) {line : String}
    (next : lines[taken.length]? = some (some line)) : taken ++ [line] <+: readable lines := by
  induction taken generalizing lines with
  | nil =>
      cases lines with
      | nil => cases next
      | cons first rest =>
          cases next
          exact List.cons_prefix_cons.mpr ⟨rfl, List.nil_prefix⟩
  | cons head taken ih =>
      cases lines with
      | nil => cases next
      | cons first rest =>
          cases first with
          | none => simp [readable] at ordered
          | some line =>
              rcases List.cons_prefix_cons.mp ordered with ⟨same, onward⟩
              have further := ih onward (by simpa using next)
              exact List.cons_prefix_cons.mpr ⟨same, further⟩

/-- A reader that comes to a line that is not UTF-8 has taken all that it can. -/
theorem taken_stop (ordered : taken <+: readable lines)
    (next : lines[taken.length]? = some none) : taken = readable lines ∧ none ∈ lines := by
  induction taken generalizing lines with
  | nil =>
      cases lines with
      | nil => cases next
      | cons first rest =>
          cases next
          exact ⟨rfl, List.mem_cons_self⟩
  | cons head taken ih =>
      cases lines with
      | nil => cases next
      | cons first rest =>
          cases first with
          | none => simp [readable] at ordered
          | some line =>
              rcases List.cons_prefix_cons.mp ordered with ⟨same, onward⟩
              have further := ih onward (by simpa using next)
              exact ⟨by rw [readable, same, further.1], List.mem_cons_of_mem _ further.2⟩

/-- A reader that has taken as many lines as there are has taken them all. -/
theorem taken_end (ordered : taken <+: readable lines) (all : lines.length ≤ taken.length) :
    taken = readable lines := by
  have short := length_readable_le lines
  exact ordered.eq_of_length_le (by omega)

theorem heardOf_concat (heard : List (Pipe × String)) (pipe from_ : Pipe) (line : String) :
    heardOf (heard ++ [(from_, line)]) pipe =
      if from_ = pipe then heardOf heard pipe ++ [line] else heardOf heard pipe := by
  by_cases same : from_ = pipe <;> simp [heardOf, same]

end Lines

/-! ### One engine -/

namespace Engine

/-- What the readers of an engine have taken, and what is kept of it. -/
structure Sound (engine : Engine) : Prop where
  tail : engine.stderrTail = Ring.ofRun stderrTailLines (engine.heard.map (·.2))
  inOrder : ∀ pipe, heardOf engine.heard pipe <+: readable (engine.written pipe)
  stopped : ∀ pipe, engine.pumping pipe = false →
    heardOf engine.heard pipe = readable (engine.written pipe) ∧
      (engine.status ≠ none ∨ none ∈ engine.written pipe)

/-- What an engine becomes: nothing that was known of it changes. -/
structure Grows (engine later : Engine) : Prop where
  args : later.port = engine.port ∧ later.args = engine.args
  status : ∀ status, engine.status = some status → later.status = some status
  unwaitable : engine.unwaitable = true → later.unwaitable = true
  heard : engine.heard <+: later.heard
  stopped : (∀ pipe, engine.pumping pipe = false) →
    (∀ pipe, later.pumping pipe = false) ∧ later.stderrTail = engine.stderrTail

/-- An engine is said to have ended so: it has, or the operating system would not say. -/
def Told (engine : Engine) (exit : ExitClassification) : Prop :=
  (∃ status, engine.status = some status ∧ exit = classify status) ∨
    engine.unwaitable = true ∧ exit = .failed (-1)

/-- It ended by itself with a status other than zero, or the operating system would not say. -/
def Lost (engine : Engine) : Prop :=
  engine.unwaitable = true ∨ ∃ code, code ≠ 0 ∧ engine.status = some (.exited code)

/-- A tail as some reading of it found it, and as it stays where both readers had finished. -/
def Reported (engine : Engine) (whole : Bool) (tail : List String) : Prop :=
  (∃ earlier, earlier <+: engine.heard ∧ tail = (earlier.map (·.2)).rtake stderrTailLines) ∧
    (whole = true → (∀ pipe, engine.pumping pipe = false) ∧ tail = engine.stderrTail.kept)

variable {engine later : Engine}

theorem Grows.refl (engine : Engine) : Grows engine engine where
  args := ⟨rfl, rfl⟩
  status _ known := known
  unwaitable known := known
  heard := List.prefix_refl _
  stopped off := ⟨off, rfl⟩

theorem Told.grows {exit : ExitClassification} (told : Told engine exit)
    (grows : Grows engine later) : Told later exit := by
  rcases told with ⟨status, known, same⟩ | ⟨refused, same⟩
  · exact .inl ⟨status, grows.status status known, same⟩
  · exact .inr ⟨grows.unwaitable refused, same⟩

theorem Reported.grows {whole : Bool} {tail : List String} (reported : Reported engine whole tail)
    (grows : Grows engine later) : Reported later whole tail := by
  rcases reported with ⟨⟨earlier, begins, kept⟩, finished⟩
  refine ⟨⟨earlier, begins.trans grows.heard, kept⟩, ?_⟩
  intro isWhole
  have off := finished isWhole
  have stays := grows.stopped off.1
  exact ⟨stays.1, by rw [stays.2]; exact off.2⟩

theorem Sound.reported (sound : Sound engine) (whole : Bool)
    (off : whole = true → ∀ pipe, engine.pumping pipe = false) :
    Reported engine whole engine.stderrTail.kept := by
  refine ⟨⟨engine.heard, List.prefix_refl _, ?_⟩, fun isWhole => ⟨off isWhole, rfl⟩⟩
  rw [sound.tail]
  rfl

/-- What happens to an engine from outside takes nothing back. -/
theorem happens_grows {event : EngineEvent} (happened : engine.happens event = some later) :
    Grows engine later ∧ later.probes = engine.probes := by
  cases event with
  | ends status =>
      simp only [happens, Option.ite_none_right_eq_some, Option.some.injEq] at happened
      rcases happened with ⟨runs, rfl⟩
      refine ⟨⟨⟨rfl, rfl⟩, ?_, id, List.prefix_refl _, fun off => ⟨off, rfl⟩⟩, rfl⟩
      intro known was
      rw [runs] at was
      cases was
  | writes pipe line =>
      simp only [happens, Option.ite_none_right_eq_some, Option.some.injEq] at happened
      rcases happened with ⟨_, rfl⟩
      exact ⟨⟨⟨rfl, rfl⟩, fun _ known => known, id, List.prefix_refl _, fun off => ⟨off, rfl⟩⟩, rfl⟩
  | takes pipe =>
      simp only [happens, Option.ite_none_right_eq_some] at happened
      rcases happened with ⟨on, happened⟩
      split at happened
      · cases happened
        refine ⟨⟨⟨rfl, rfl⟩, fun _ known => known, id, List.prefix_append _ _, ?_⟩, rfl⟩
        intro off
        rw [off pipe] at on
        cases on
      · cases happened
        refine ⟨⟨⟨rfl, rfl⟩, fun _ known => known, id, List.prefix_refl _, ?_⟩, rfl⟩
        intro off
        rw [off pipe] at on
        cases on
      · cases happened
  | atEnd pipe =>
      simp only [happens, Option.ite_none_right_eq_some, Option.some.injEq] at happened
      rcases happened with ⟨⟨on, _⟩, rfl⟩
      refine ⟨⟨⟨rfl, rfl⟩, fun _ known => known, id, List.prefix_refl _, ?_⟩, rfl⟩
      intro off
      rw [off pipe] at on
      cases on

theorem Sound.new (config : StartConfig) (port : UInt16) (apiKey : String) :
    Sound (Engine.new config port apiKey) where
  tail := rfl
  inOrder _ := List.nil_prefix
  stopped _ off := nomatch off

theorem Sound.happens {event : EngineEvent} (sound : Sound engine)
    (happened : engine.happens event = some later) : Sound later := by
  cases event with
  | ends status =>
      simp only [Engine.happens, Option.ite_none_right_eq_some, Option.some.injEq] at happened
      rcases happened with ⟨_, rfl⟩
      exact ⟨sound.tail, sound.inOrder, fun pipe off => ⟨(sound.stopped pipe off).1, .inl nofun⟩⟩
  | writes from_ line =>
      simp only [Engine.happens, Option.ite_none_right_eq_some, Option.some.injEq] at happened
      rcases happened with ⟨runs, rfl⟩
      refine ⟨sound.tail, ?_, ?_⟩
      · intro pipe
        by_cases here : pipe = from_
        · subst here
          simpa using (sound.inOrder pipe).trans (readable_grows _ [line])
        · simpa [here] using sound.inOrder pipe
      · intro pipe off
        have before := sound.stopped pipe off
        by_cases here : pipe = from_
        · subst here
          have stops : none ∈ engine.written pipe := before.2.resolve_left (not_not.mpr runs)
          simp [readable_stopped stops, before.1, stops]
        · simpa [here] using before
  | takes from_ =>
      simp only [Engine.happens, Option.ite_none_right_eq_some] at happened
      rcases happened with ⟨on, happened⟩
      split at happened
      · rename_i line next
        cases happened
        refine ⟨?_, ?_, ?_⟩
        · have room : 0 < stderrTailLines := by decide
          rw [sound.tail, Ring.push_ofRun room]
          simp
        · intro pipe
          rw [heardOf_concat]
          by_cases here : from_ = pipe
          · subst here
            simpa using taken_next (sound.inOrder from_) next
          · simpa [here] using sound.inOrder pipe
        · intro pipe off
          have other : from_ ≠ pipe := by
            intro same
            rw [same, off] at on
            cases on
          rw [heardOf_concat, if_neg other]
          exact sound.stopped pipe off
      · rename_i next
        cases happened
        have end_ := taken_stop (sound.inOrder from_) next
        refine ⟨sound.tail, sound.inOrder, ?_⟩
        intro pipe off
        by_cases here : pipe = from_
        · subst here
          exact ⟨end_.1, .inr end_.2⟩
        · exact sound.stopped pipe (by simpa [here] using off)
      · cases happened
  | atEnd from_ =>
      simp only [Engine.happens, Option.ite_none_right_eq_some, Option.some.injEq] at happened
      rcases happened with ⟨⟨_, ended, all⟩, rfl⟩
      refine ⟨sound.tail, sound.inOrder, ?_⟩
      intro pipe off
      by_cases here : pipe = from_
      · subst here
        exact ⟨taken_end (sound.inOrder pipe) all, .inl ended⟩
      · exact sound.stopped pipe (by simpa [here] using off)

theorem killed_grows (engine : Engine) : Grows engine engine.killed where
  args := ⟨rfl, rfl⟩
  status status known := by rw [killed, known, Option.getD_some]
  unwaitable known := known
  heard := List.prefix_refl _
  stopped off := ⟨off, rfl⟩

theorem Sound.killed (sound : Sound engine) : Sound engine.killed where
  tail := sound.tail
  inOrder := sound.inOrder
  stopped pipe off := ⟨(sound.stopped pipe off).1, .inl nofun⟩

/-- A poll takes nothing back, and what it says has been told. -/
theorem pollExit_spec (waitable : Bool) (sound : Sound engine) :
    Grows engine (engine.pollExit waitable).2 ∧ Sound (engine.pollExit waitable).2 ∧
      (engine.pollExit waitable).2.probes = engine.probes ∧
      ((engine.pollExit waitable).1 ≠ .running →
        Told (engine.pollExit waitable).2 (engine.pollExit waitable).1) := by
  cases waitable with
  | true =>
      refine ⟨Grows.refl engine, sound, rfl, ?_⟩
      intro ended
      cases status : engine.status with
      | none => exact absurd (by simp [pollExit, status]) ended
      | some status_ => exact .inl ⟨status_, status, by simp [pollExit, status]⟩
  | false =>
      have grows : Grows engine (engine.pollExit false).2 :=
        ⟨⟨rfl, rfl⟩, fun _ known => known, fun _ => rfl, List.prefix_refl _, fun off => ⟨off, rfl⟩⟩
      exact ⟨grows, ⟨sound.tail, sound.inOrder, sound.stopped⟩, rfl, fun _ => .inr ⟨rfl, rfl⟩⟩

end Engine

/-! ### What a report says -/

/-- A report of how an engine ended. -/
def StartError.isCrash : StartError → Bool
  | .engineUnavailable | .engineCrashed _ _ _ _ | .engineOom _ | .unsupportedCpuInstruction _ => true
  | _ => false

/-- A report of how this engine ended: what it was said to have done, with a tail of its lines. -/
def Blames (engine : Engine) (whole : Bool) (error : StartError) : Prop :=
  error.isCrash = true → ∃ exit machine tail, engine.Told exit ∧ error = exit.intoError machine tail ∧
    engine.Reported whole tail

section Reports

variable {engine later : Engine} {whole : Bool} {error : StartError}

theorem Blames.grows (blames : Blames engine whole error) (grows : engine.Grows later) :
    Blames later whole error := by
  intro crash
  rcases blames crash with ⟨exit, machine, tail, told, same, reported⟩
  exact ⟨exit, machine, tail, told.grows grows, same, reported.grows grows⟩

theorem enrich_intoError (captured tail : List String) (machine : Machine)
    (exit : ExitClassification) : enrich captured (exit.intoError machine tail) =
      exit.intoError machine (if tail = [] then captured else tail) := by
  cases exit with
  | clean => rfl
  | running => rfl
  | failed code => rfl
  | signalled signal =>
      by_cases empty : tail = []
      · simp only [ExitClassification.intoError, if_pos empty]
        split_ifs <;> simp [enrich, empty]
      · simp only [ExitClassification.intoError, if_neg empty]
        split_ifs <;> simp [enrich, empty]

theorem isCrash_enrich (captured : List String) (error : StartError) :
    (enrich captured error).isCrash = error.isCrash := by
  cases error <;> rfl

theorem Blames.enriched (blames : Blames engine whole error) (sound : engine.Sound) :
    Blames engine whole (enrich engine.stderrTail.kept error) := by
  intro crash
  rw [isCrash_enrich] at crash
  rcases blames crash with ⟨exit, machine, tail, told, rfl, reported⟩
  refine ⟨exit, machine, _, told, enrich_intoError _ tail machine exit, ?_⟩
  by_cases empty : tail = []
  · rw [if_pos empty]
    exact sound.reported whole fun isWhole => (reported.2 isWhole).1
  · rwa [if_neg empty]

theorem isCrash_of_retryable (retryable : isRetryableStartup error = true) :
    error.isCrash = true := by
  unfold isRetryableStartup at retryable
  split at retryable
  · rfl
  · cases retryable

/-- Another attempt is made only for an engine that lost. -/
theorem Blames.lost (blames : Blames engine whole error)
    (retryable : isRetryableStartup error = true) : engine.Lost := by
  rcases blames (isCrash_of_retryable retryable) with ⟨exit, machine, tail, told, rfl, _⟩
  have failed : ∃ code, exit = .failed code := by
    cases exit with
    | clean => cases retryable
    | running => cases retryable
    | failed code => exact ⟨code, rfl⟩
    | signalled signal =>
        simp only [ExitClassification.intoError] at retryable
        split_ifs at retryable <;> cases retryable
  rcases failed with ⟨code, rfl⟩
  rcases told with ⟨status, known, same⟩ | ⟨refused, _⟩
  · cases status with
    | signalled signal => cases same
    | exited value =>
        by_cases zero : value = 0
        · simp [classify, zero] at same
        · exact .inr ⟨value, zero, known⟩
  · exact .inl refused

end Reports

/-! ### Every run -/

/-- What holds of every engine that was launched. -/
structure Launched (config : StartConfig) (engine : Engine) : Prop where
  args : engine.args = buildArgs config.engine engine.port
  sound : engine.Sound

/-- An engine is asked so often at most. -/
def Bounded (config : StartConfig) (engine : Engine) : Prop :=
  readyPollInterval * engine.probes < config.startTimeout + 2 * readyPollInterval

/-- What holds of an engine that the call is done with. -/
structure Past (config : StartConfig) (engine : Engine) : Prop extends Launched config engine where
  ended : engine.status ≠ none
  bounded : Bounded config engine

/-- Where in its time the readiness loop is. -/
def Timed (config : StartConfig) (deadline probes reached : Nat) : Prop :=
  readyPollInterval * probes + deadline ≤ reached + config.startTimeout ∧
    readyPollInterval * probes < config.startTimeout + readyPollInterval

/-- What each phase knows. -/
def Phased (config : StartConfig) (world : World) : Prop :=
  match world.phase, world.child with
  | .launching, none =>
      world.before.length < world.attempt ∧ ∀ engine ∈ world.before, engine.Lost
  | .polling, some engine => Timed config world.deadline engine.probes world.now
  | .probing, some engine => Timed config world.deadline engine.probes world.now
  | .probed, some engine =>
      ∃ probes, engine.probes = probes + 1 ∧ Timed config world.deadline probes world.now
  | .asleep wakes, some engine => Timed config world.deadline engine.probes wakes
  | .readingTail exit, some engine => Bounded config engine ∧ engine.Told exit
  | .draining error, some engine => Bounded config engine ∧ Blames engine world.whole error
  | .stopping error, some engine => Bounded config engine ∧ Blames engine world.whole error
  | .done (.ok _), some engine => Bounded config engine
  | .done (.error error), none =>
      error.isCrash = true → ∃ front last, world.before = front ++ [last] ∧
        Blames last world.whole error
  | .dropped, none => True
  | _, _ => False

structure Inv (config : StartConfig) (world : World) : Prop where
  attempts : world.attempt ≤ maxStartAttempts
  count : world.launched.length ≤ world.attempt
  before : ∀ engine ∈ world.before, Past config engine
  child : ∀ engine ∈ world.child, Launched config engine
  lost : ∀ engine ∈ world.launched.dropLast, engine.Lost
  phased : Phased config world

section Kept

variable {config : StartConfig} {world : World} {engine later : Engine} {error : StartError}

theorem inv_start (config : StartConfig) (now : Nat) : Inv config (World.start now) where
  attempts := show 1 ≤ 3 by decide
  count := show 0 ≤ 1 by decide
  before _ member := nomatch member
  child _ held := nomatch held
  lost _ member := nomatch member
  phased := ⟨show 0 < 1 by decide, fun _ member => nomatch member⟩

theorem Launched.grows (launched : Launched config engine) (grows : engine.Grows later)
    (sound : later.Sound) : Launched config later :=
  ⟨by rw [grows.args.1, grows.args.2, launched.args], sound⟩

theorem launched_child (held : world.child = some engine) :
    world.launched = world.before ++ [engine] := by
  rw [World.launched, held]
  rfl

theorem launched_none (free : world.child = none) : world.launched = world.before := by
  rw [World.launched, free]
  exact List.append_nil _

/-- Something has come of the engine at hand, and nothing else has changed. -/
theorem Inv.becomes (inv : Inv config world) (held : world.child = some engine) {after : World}
    (same : after.before = world.before ∧ after.attempt = world.attempt)
    (held_ : after.child = some later) (launched : Launched config later)
    (phased : Phased config after) : Inv config after where
  attempts := same.2 ▸ inv.attempts
  count := by
    have count := inv.count
    rw [launched_child held] at count
    rw [launched_child held_, same.1, same.2]
    simpa using count
  before := same.1 ▸ inv.before
  child other held' := by
    rw [held_] at held'
    cases held'
    exact launched
  lost := by
    have lost := inv.lost
    rw [launched_child held, List.dropLast_concat] at lost
    rw [launched_child held_, List.dropLast_concat, same.1]
    exact lost
  phased := phased

/-- An attempt that has failed, its engine among those that are done with. -/
theorem settle_inv (attempts : world.attempt ≤ maxStartAttempts)
    (count : world.before.length ≤ world.attempt) (free : world.child = none)
    (past : ∀ engine ∈ world.before, Past config engine)
    (lost : ∀ engine ∈ world.before.dropLast, engine.Lost)
    (blames : error.isCrash = true → ∃ front last, world.before = front ++ [last] ∧
      Blames last world.whole error) : Inv config (world.settle error) := by
  have launched := launched_none free
  by_cases again : world.attempt < maxStartAttempts ∧ isRetryableStartup error = true
  · rw [World.settle, if_pos again]
    rcases blames (isCrash_of_retryable again.2) with ⟨front, last, split, blamed⟩
    have everyLost : ∀ engine ∈ world.before, engine.Lost := by
      intro engine member
      rw [split] at member lost
      rw [List.dropLast_concat] at lost
      rcases List.mem_append.mp member with earlier | at_end
      · exact lost engine earlier
      · rw [List.mem_singleton.mp at_end]
        exact blamed.lost again.2
    refine ⟨by have := again.1; simp only; omega, ?_, past, ?_, ?_, ?_⟩
    · have more : world.launched.length ≤ world.attempt + 1 := by
        rw [launched]
        omega
      exact more
    · intro engine held
      have none_ : engine ∈ world.child := held
      rw [free] at none_
      cases none_
    · have few : ∀ engine ∈ world.launched.dropLast, engine.Lost := by
        rw [launched]
        exact lost
      exact few
    · have known : world.before.length < world.attempt + 1 ∧
          ∀ engine ∈ world.before, engine.Lost := ⟨by omega, everyLost⟩
      simpa only [Phased, free] using known
  · rw [World.settle, if_neg again]
    refine ⟨attempts, ?_, past, ?_, ?_, ?_⟩
    · have more : world.launched.length ≤ world.attempt := by rwa [launched]
      exact more
    · intro engine held
      have none_ : engine ∈ world.child := held
      rw [free] at none_
      cases none_
    · have few : ∀ engine ∈ world.launched.dropLast, engine.Lost := by
        rw [launched]
        exact lost
      exact few
    · simpa only [Phased, free] using blames

theorem Timed.goesOn {deadline probes reached further : Nat}
    (timed : Timed config deadline probes reached) (onward : reached ≤ further) :
    Timed config deadline probes further :=
  ⟨by have := timed.1; omega, timed.2⟩

theorem Timed.bounded {deadline reached : Nat}
    (timed : Timed config deadline engine.probes reached) :
    Bounded config engine := by
  have := timed.2
  simp only [Bounded, readyPollInterval] at this ⊢
  omega

/-- Time goes on, and someone may cancel. -/
theorem Phased.goesOn (phased : Phased config world) {after : World}
    (same : after.phase = world.phase ∧ after.child = world.child ∧ after.before = world.before ∧
      after.attempt = world.attempt ∧ after.whole = world.whole ∧ after.deadline = world.deadline)
    (onward : world.now ≤ after.now) : Phased config after := by
  rcases same with ⟨phase, child, before, attempt, whole, deadline⟩
  simp only [Phased, phase, child, before, attempt, whole, deadline] at phased ⊢
  split at phased
  · exact phased
  · exact phased.goesOn onward
  · exact phased.goesOn onward
  · rcases phased with ⟨probes, count, timed⟩
    exact ⟨probes, count, timed.goesOn onward⟩
  · exact phased
  · exact phased
  · exact phased
  · exact phased
  · exact phased
  · exact phased
  · exact phased
  · exact phased

/-- Whatever happens to the engine from outside, what the phase knows of it stays true. -/
theorem Phased.grows (phased : Phased config world) (held : world.child = some engine)
    (grows : engine.Grows later) (probes : later.probes = engine.probes) :
    Phased config { world with child := some later } := by
  have bounded : Bounded config engine → Bounded config later := by
    rw [Bounded, Bounded, probes]
    exact id
  simp only [Phased, held] at phased ⊢
  split at phased <;> rename_i phase child
  · cases child
  · cases child
    simpa only [phase, probes] using phased
  · cases child
    simpa only [phase, probes] using phased
  · cases child
    simpa only [phase, probes] using phased
  · cases child
    simpa only [phase, probes] using phased
  · cases child
    simpa only [phase] using And.intro (bounded phased.1) (phased.2.grows grows)
  · cases child
    simpa only [phase] using And.intro (bounded phased.1) (phased.2.grows grows)
  · cases child
    simpa only [phase] using And.intro (bounded phased.1) (phased.2.grows grows)
  · cases child
    simpa only [phase] using bounded phased
  · cases child
  · cases child
  · exact phased.elim

/-- An attempt that fails before there is an engine. -/
theorem Inv.unlaunched (inv : Inv config world) (free : world.child = none)
    (lost : ∀ engine ∈ world.before, engine.Lost) (plain : error.isCrash = false) :
    Inv config (world.settle error) := by
  have count := inv.count
  rw [launched_none free] at count
  apply settle_inv inv.attempts count free inv.before
  · intro engine member
    exact lost engine (List.mem_of_mem_dropLast member)
  · intro crash
    rw [plain] at crash
    cases crash

theorem Inv.launch (inv : Inv config world) (phase : world.phase = .launching)
    (answers : Launch) : Inv config (world.launch config answers) := by
  have phased := inv.phased
  rw [Phased, phase] at phased
  cases child : world.child with
  | some engine =>
      rw [child] at phased
      exact phased.elim
  | none =>
      rw [child] at phased
      rcases phased with ⟨few, lost⟩
      have refused : ∀ {error : StartError}, error.isCrash = false →
          Inv config (world.settle error) := inv.unlaunched child lost
      rw [World.launch]
      by_cases noServer : answers.serverIsFile = false
      · rw [if_pos noServer]
        exact refused rfl
      by_cases noModel : answers.modelIsFile = false
      · rw [if_neg noServer, if_pos noModel]
        exact refused rfl
      rw [if_neg noServer, if_neg noModel]
      cases answers.port with
      | error context => exact refused rfl
      | ok port =>
          cases answers.apiKey with
          | error context => exact refused rfl
          | ok apiKey =>
              by_cases unspawned : answers.spawned = false
              · simp only [if_pos unspawned]
                exact refused rfl
              · simp only [if_neg unspawned]
                refine ⟨inv.attempts, ?_, inv.before, ?_, ?_, ?_⟩
                · simpa [World.launched] using few
                · intro engine held
                  cases held
                  exact ⟨rfl, .new config port apiKey⟩
                · simpa [World.launched] using lost
                · cases answers.client with
                  | error reason =>
                      have bounded : Bounded config (Engine.new config port apiKey) := by
                        simp [Bounded, Engine.new, readyPollInterval]
                      exact ⟨bounded, nofun⟩
                  | ok _ =>
                      have timed : Timed config (world.now + config.startTimeout) 0 world.now := by
                        simp [Timed, readyPollInterval]
                      exact timed

/-- The engine at hand is gone. -/
theorem Inv.gone (inv : Inv config world) (held : world.child = some engine)
    (past : Past config later) (blames : Blames later world.whole error) :
    Inv config (World.settle
      { world with before := world.before ++ [later], child := none } error) := by
  have count := inv.count
  have lost := inv.lost
  rw [launched_child held] at count lost
  rw [List.dropLast_concat] at lost
  have attempts : World.attempt { world with before := world.before ++ [later], child := none } ≤
      maxStartAttempts := inv.attempts
  apply settle_inv attempts (by simpa using count) rfl
  · intro other member
    rcases List.mem_append.mp member with earlier | last
    · exact inv.before other earlier
    · rwa [List.mem_singleton.mp last]
  · simpa using lost
  · intro crash
    exact ⟨world.before, later, rfl, fun _ => blames crash⟩

/-- What the readiness loop, the report and the shutdown keep. -/
theorem Inv.attend (inv : Inv config world) (held : world.child = some engine) {act : Act}
    {after : World} (attended : world.attend config engine act = some after) :
    Inv config after := by
  have launched := inv.child engine held
  have phased := inv.phased
  cases act with
  | engine event => cases attended
  | cancel => cases attended
  | passes time => cases attended
  | launch answers => cases attended
  | drop => cases attended
  | poll waitable =>
      simp only [World.attend] at attended
      split at attended
      · rename_i phase
        rw [Phased, phase, held] at phased
        split at attended
        · cases attended
          have blames : Blames engine world.whole .cancelled := nofun
          refine inv.becomes held ⟨rfl, rfl⟩ held launched ?_
          simpa only [Phased, held] using And.intro (Timed.bounded phased) blames
        · cases attended
          have polled := Engine.pollExit_spec waitable launched.sound
          have bounded : Bounded config (engine.pollExit waitable).2 := by
            have before := Timed.bounded phased
            rwa [Bounded, ← polled.2.2.1] at before
          refine inv.becomes held ⟨rfl, rfl⟩ rfl (launched.grows polled.1 polled.2.1) ?_
          by_cases running : (engine.pollExit waitable).1 = .running
          · rw [Phased, if_pos running]
            simpa only [polled.2.2.1] using phased
          · rw [Phased, if_neg running]
            exact ⟨bounded, polled.2.2.2 running⟩
      · cases attended
  | probe success =>
      simp only [World.attend] at attended
      split at attended
      · rename_i phase
        rw [Phased, phase, held] at phased
        cases attended
        have grows : engine.Grows { engine with probes := engine.probes + 1 } :=
          ⟨⟨rfl, rfl⟩, fun _ known => known, id, List.prefix_refl _, fun off => ⟨off, rfl⟩⟩
        have sound : Engine.Sound { engine with probes := engine.probes + 1 } :=
          ⟨launched.sound.tail, launched.sound.inOrder, launched.sound.stopped⟩
        refine inv.becomes held ⟨rfl, rfl⟩ rfl (launched.grows grows sound) ?_
        cases success with
        | false => exact ⟨engine.probes, rfl, phased⟩
        | true =>
            have bounded : Bounded config { engine with probes := engine.probes + 1 } := by
              have := phased.2
              simp only [Bounded, readyPollInterval] at this ⊢
              omega
            exact bounded
      · cases attended
  | pollAgain waitable =>
      simp only [World.attend] at attended
      split at attended
      · rename_i phase
        rw [Phased, phase, held] at phased
        rcases phased with ⟨probes, count, timed⟩
        cases attended
        have polled := Engine.pollExit_spec waitable launched.sound
        have bounded : Bounded config (engine.pollExit waitable).2 := by
          have := timed.2
          simp only [Bounded, polled.2.2.1, count, readyPollInterval] at this ⊢
          omega
        refine inv.becomes held ⟨rfl, rfl⟩ rfl (launched.grows polled.1 polled.2.1) ?_
        by_cases running : (engine.pollExit waitable).1 = .running
        · rw [Phased, if_pos running]
          by_cases late : world.deadline ≤ world.now
          · rw [if_pos late]
            exact ⟨bounded, nofun⟩
          · rw [if_neg late]
            have next : Timed config world.deadline (engine.pollExit waitable).2.probes
                (world.now + readyPollInterval) := by
              have := timed.1
              simp only [Timed, polled.2.2.1, count, readyPollInterval] at this ⊢
              omega
            exact next
        · rw [Phased, if_neg running]
          exact ⟨bounded, polled.2.2.2 running⟩
      · cases attended
  | wake =>
      simp only [World.attend] at attended
      split at attended
      · rename_i wakes phase
        rw [Phased, phase, held] at phased
        simp only [Option.ite_none_right_eq_some, Option.some.injEq] at attended
        rcases attended with ⟨due, rfl⟩
        refine inv.becomes held ⟨rfl, rfl⟩ held launched ?_
        have timed : Timed config world.deadline engine.probes world.now := phased.goesOn due
        simpa only [Phased, held] using timed
      · cases attended
  | readTail machine =>
      simp only [World.attend] at attended
      split at attended
      · rename_i exit phase
        rw [Phased, phase, held] at phased
        cases attended
        refine inv.becomes held ⟨rfl, rfl⟩ held launched ?_
        have reported : engine.Reported (!engine.pumping .stderr && !engine.pumping .stdout)
            engine.stderrTail.kept := by
          apply launched.sound.reported
          intro off pipe
          have both : engine.pumping .stderr = false ∧ engine.pumping .stdout = false := by
            simpa using off
          cases pipe with
          | stderr => exact both.1
          | stdout => exact both.2
        have blames : Blames engine (!engine.pumping .stderr && !engine.pumping .stdout)
            (exit.intoError machine engine.stderrTail.kept) :=
          fun _ => ⟨exit, machine, _, phased.2, rfl, reported⟩
        simpa only [Phased, held] using And.intro phased.1 blames
      · cases attended
  | drain =>
      simp only [World.attend] at attended
      split at attended
      · rename_i error phase
        rw [Phased, phase, held] at phased
        cases attended
        refine inv.becomes held ⟨rfl, rfl⟩ held launched ?_
        simpa only [Phased, held] using And.intro phased.1 (phased.2.enriched launched.sound)
      · cases attended
  | ended =>
      simp only [World.attend] at attended
      split at attended
      · rename_i error phase
        rw [Phased, phase, held] at phased
        split at attended
        · cases attended
        · rename_i ended
          cases attended
          exact inv.gone held ⟨launched, ended, phased.1⟩ phased.2
      · cases attended
  | kill =>
      simp only [World.attend] at attended
      split at attended
      · rename_i error phase
        rw [Phased, phase, held] at phased
        cases attended
        have grows := engine.killed_grows
        exact inv.gone held ⟨launched.grows grows launched.sound.killed, nofun, phased.1⟩
          (phased.2.grows grows)
      · cases attended

theorem Phased.bounded (phased : Phased config world) (held : world.child = some engine) :
    Bounded config engine := by
  simp only [Phased, held] at phased
  split at phased <;> rename_i phase child
  · cases child
  · cases child
    exact phased.bounded
  · cases child
    exact phased.bounded
  · cases child
    rcases phased with ⟨probes, count, timed⟩
    have := timed.2
    simp only [Bounded, count, readyPollInterval] at this ⊢
    omega
  · cases child
    exact phased.bounded
  · cases child
    exact phased.1
  · cases child
    exact phased.1
  · cases child
    exact phased.1
  · cases child
    exact phased
  · cases child
  · cases child
  · exact phased.elim

/-- The caller gives up on the call. -/
theorem Inv.drop (inv : Inv config world) : Inv config
    { world with
      before := world.before ++ world.child.toList.map Engine.killed
      child := none
      phase := .dropped } := by
  have count := inv.count
  have lost := inv.lost
  cases held : world.child with
  | none =>
      rw [launched_none held] at count lost
      refine ⟨inv.attempts, ?_, ?_, nofun, ?_, trivial⟩
      · simpa [World.launched] using count
      · simpa using inv.before
      · simpa [World.launched] using lost
  | some engine =>
      rw [launched_child held] at count lost
      rw [List.dropLast_concat] at lost
      have launched := inv.child engine held
      have bounded : Bounded config engine := inv.phased.bounded held
      have past : Past config engine.killed :=
        ⟨launched.grows engine.killed_grows launched.sound.killed, nofun, bounded⟩
      refine ⟨inv.attempts, ?_, ?_, nofun, ?_, trivial⟩
      · simpa [World.launched] using count
      · intro other member
        rcases List.mem_append.mp member with earlier | last
        · exact inv.before other earlier
        · have same : other = engine.killed := by simpa using last
          rwa [same]
      · simpa [World.launched] using lost

theorem Inv.step {act : Act} {after : World} (inv : Inv config world)
    (stepped : step config world act = some after) : Inv config after := by
  have attended : ∀ {act : Act},
      (world.child.bind fun engine => world.attend config engine act) = some after →
      Inv config after := by
    intro act bound
    rcases Option.bind_eq_some_iff.mp bound with ⟨engine, held, attended⟩
    exact inv.attend held attended
  cases act with
  | engine event =>
      rcases Option.map_eq_some_iff.mp stepped with ⟨later, bound, rfl⟩
      rcases Option.bind_eq_some_iff.mp bound with ⟨engine, held, happened⟩
      have launched := inv.child engine held
      have grows := Engine.happens_grows happened
      exact inv.becomes held ⟨rfl, rfl⟩ rfl
        (launched.grows grows.1 (launched.sound.happens happened))
        (inv.phased.grows held grows.1 grows.2)
  | cancel =>
      cases stepped
      exact ⟨inv.attempts, inv.count, inv.before, inv.child, inv.lost,
        inv.phased.goesOn ⟨rfl, rfl, rfl, rfl, rfl, rfl⟩ le_rfl⟩
  | passes time =>
      cases stepped
      exact ⟨inv.attempts, inv.count, inv.before, inv.child, inv.lost,
        inv.phased.goesOn ⟨rfl, rfl, rfl, rfl, rfl, rfl⟩ (Nat.le_add_right _ _)⟩
  | launch answers =>
      simp only [EngineStart.step] at stepped
      split at stepped
      · rename_i phase
        cases stepped
        exact inv.launch phase answers
      · cases stepped
  | drop =>
      simp only [EngineStart.step] at stepped
      split at stepped
      · cases stepped
      · cases stepped
        exact inv.drop
  | poll waitable => exact attended stepped
  | probe success => exact attended stepped
  | pollAgain waitable => exact attended stepped
  | wake => exact attended stepped
  | readTail machine => exact attended stepped
  | drain => exact attended stepped
  | ended => exact attended stepped
  | kill => exact attended stepped

theorem reached_inv {now : Nat} (reached : Transition.Reaches (step config) Transition.Always
    (World.start now) world) : Inv config world :=
  reached.invariant (Inv config) (inv_start config now) fun _ _ _ _ inv stepped => inv.step stepped

end Kept

/-- Whatever engines, readers, the clock and the caller do meanwhile: a start launches three engines
at most, each with the command line of its own port and asked for a bounded number of times; one is
launched only after every one before it has ended, and has ended by itself with a status other than
zero as far as the operating system would say; and when the start has failed, or its caller has
given up on it, none of them runs. -/
theorem start_leaves_none {config : StartConfig} {now : Nat} {world : World}
    (reached : Transition.Reaches (step config) Transition.Always (World.start now) world) :
    world.launched.length ≤ maxStartAttempts ∧
      (∀ engine ∈ world.launched, engine.args = buildArgs config.engine engine.port ∧
        readyPollInterval * engine.probes < config.startTimeout + 2 * readyPollInterval) ∧
      (∀ engine ∈ world.launched.dropLast, engine.status ≠ none ∧
        (engine.unwaitable = true ∨ ∃ code, code ≠ 0 ∧ engine.status = some (.exited code))) ∧
      ((∃ error, world.phase = .done (.error error)) ∨ world.phase = .dropped →
        ∀ engine ∈ world.launched, engine.status ≠ none) := by
  have inv := reached_inv reached
  refine ⟨inv.count.trans inv.attempts, ?_, ?_, ?_⟩
  · intro engine member
    rcases List.mem_append.mp member with earlier | last
    · have past := inv.before engine earlier
      exact ⟨past.args, past.bounded⟩
    · have held : world.child = some engine := by simpa using last
      exact ⟨(inv.child engine held).args, inv.phased.bounded held⟩
  · intro engine member
    have earlier : engine ∈ world.before := by
      cases held : world.child with
      | none =>
          rw [launched_none held] at member
          exact List.mem_of_mem_dropLast member
      | some last =>
          rwa [launched_child held, List.dropLast_concat] at member
    exact ⟨(inv.before engine earlier).ended, inv.lost engine member⟩
  · intro over_ engine member
    have free : world.child = none := by
      have phased := inv.phased
      cases held : world.child with
      | none => rfl
      | some last =>
          rcases over_ with ⟨error, phase⟩ | phase
          · rw [Phased, phase, held] at phased
            exact phased.elim
          · rw [Phased, phase, held] at phased
            exact phased.elim
    rw [launched_none free] at member
    exact (inv.before engine member).ended

def sampleConfig : StartConfig :=
  ⟨"llama-server", ⟨"model.gguf", Core.RuntimeParams.default, 4⟩, 60000⟩

/-- One launch whose port something else has taken meanwhile. -/
def lostRace (port : UInt16) : List Act :=
  [.launch ⟨true, true, .ok port, .ok "key", true, .ok ()⟩,
    .engine (.writes .stderr (some "bind failed")), .engine (.takes .stderr),
    .engine (.ends (.exited 1)), .engine (.atEnd .stderr), .engine (.atEnd .stdout),
    .poll true, .readTail ⟨"AVX2", false⟩, .drain, .ended]

def racesLost : World :=
  (Transition.run (step sampleConfig) (World.start 0)
    (lostRace 40001 ++ lostRace 40002 ++ lostRace 40003)).getD (World.start 0)

theorem racesLost_reached : Transition.Reaches (step sampleConfig) Transition.Always
    (World.start 0) racesLost := by
  have ran : Transition.run (step sampleConfig) (World.start 0)
      (lostRace 40001 ++ lostRace 40002 ++ lostRace 40003) = some racesLost := rfl
  exact Transition.run_reaches ran

theorem start_leaves_none_races :
    racesLost.launched.length = 3 ∧ ∀ engine ∈ racesLost.launched, engine.status ≠ none :=
  ⟨rfl, (start_leaves_none racesLost_reached).2.2.2 (.inl ⟨_, rfl⟩)⟩

end Lightweight.Backend.EngineStart
