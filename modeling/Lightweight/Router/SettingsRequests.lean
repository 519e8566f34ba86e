import Mathlib.Data.List.Permutation
import Lightweight.Transition
import Lightweight.Router.ClassifierSettings

/-! Removing the Jev key, and the requests to save and to remove as the router serves them
(`lightweight-router/src/classifier_settings.rs`): a handler takes the write lock and starts a worker
that it waits for; a client that disconnects drops the handler and with it the lock, and not the
worker. Workers take their steps in any order. -/

namespace Lightweight.Router.Settings

open Lightweight.Core Lightweight.Catalog Binary64 Classifier Auto Reading Transition

/-! The summary of a section, and the removal of a key. -/

/-- The section of a text, for comparison. -/
def sectionOf (texts : Texts) (text : List Char) : Option Value := do
  let document ← texts.fromStr text
  let auto ← document.get autoRouteKey
  match auto.get classifierKey with
  | some (.object members) => some (.object members)
  | _ => none

structure JevSummary where
  baseUrl : List Char
  model : Option (List Char)
  apiKeyEnv : List Char
  timeoutMs : Option Nat
  minConfidence : Option Exact

/-- What the panel shows of a section. -/
structure Summary where
  provider : Option (List Char)
  candidates : Value
  fallbackRoute : Option Value
  jev : Option JevSummary

def jevSummary : Value → Option JevSummary
  | .object block => some
      { baseUrl := ((Map.get baseUrlKey block).bind asStr).getD defaultBaseUrl
        model := (Map.get Reading.modelKey block).bind asStr
        apiKeyEnv := ((Map.get apiKeyEnvKey block).bind asStr).getD defaultApiKeyEnv
        timeoutMs := (Map.get timeoutKey block).bind Value.asU64
        minConfidence := (Map.get minConfidenceKey block).bind asF64 }
  | _ => none

def summary : Option Value → Summary
  | none => { provider := none, candidates := .array [], fallbackRoute := none, jev := none }
  | some written =>
      { provider := some (((written.get providerKey).bind asStr).getD lightweightKey)
        candidates := (written.get routesKey).getD (.array [])
        fallbackRoute := written.get fallbackRouteKey
        jev := (written.get jevKey).bind jevSummary }

/-- The variable of the key that a removal removes. -/
def Summary.apiKeyEnv (saved : Summary) : List Char :=
  (saved.jev.map JevSummary.apiKeyEnv).getD defaultApiKeyEnv

/-- The account whose key may be removed. -/
def removable (texts : Texts) (env : Env) (text expected : List Char) :
    Except Failure (List Char) :=
  if texts.revision text ≠ expected then .error (.conflict (texts.revision text))
  else
    let saved := summary (sectionOf texts text)
    if saved.provider = some jevKey ∧ inEnvironment env saved.apiKeyEnv = false then
      .error .keyInUse
    else .ok (jevAccount saved.apiKeyEnv)

inductive RemovePhase where
  | reading
  | deleting (account : List Char)
  | returned (result : Except Failure Unit)

/-- One step of a removal. -/
def removeStep (texts : Texts) (env : Env) (expected : List Char) (fault : Option Fault)
    (machine : Machine) : RemovePhase → Machine × RemovePhase
  | .reading =>
      match refusal fault .readFile with
      | some _ => (machine, .returned (.error .configUnreadable))
      | none =>
          match removable texts env machine.file expected with
          | .error failure => (machine, .returned (.error failure))
          | .ok account => (machine, .deleting account)
  | .deleting account =>
      match refusal fault .deleteKey with
      | some kind => (machine, .returned (.error (.store kind)))
      | none => (machine.put account none, .returned (.ok ()))
  | .returned result => (machine, .returned result)

/-- A removal from its first step to its last. -/
def removeKey (texts : Texts) (env : Env) (expected : List Char) (fault : Option Fault)
    (machine : Machine) : Machine × Except Failure Unit :=
  match refusal fault .readFile with
  | some _ => (machine, .error .configUnreadable)
  | none =>
      match removable texts env machine.file expected with
      | .error failure => (machine, .error failure)
      | .ok account =>
          match refusal fault .deleteKey with
          | some kind => (machine, .error (.store kind))
          | none => (machine.put account none, .ok ())

/-! Requests and their workers. -/

/-- A request with the revision its `If-Match` names, and with what goes wrong while it is served. -/
inductive Request where
  | save (expected : List Char) (request : SaveRequest) (fault : Option Fault)
  | removeKey (expected : List Char) (fault : Option Fault)
deriving DecidableEq

def Request.expected : Request → List Char
  | .save expected _ _ => expected
  | .removeKey expected _ => expected

inductive Worker where
  | save (expected : List Char) (request : SaveRequest) (fault : Option Fault) (phase : SavePhase)
  | removeKey (expected : List Char) (fault : Option Fault) (phase : RemovePhase)

/-- The worker that is started for a request. -/
def Request.worker : Request → Worker
  | .save expected request fault => .save expected request fault .reading
  | .removeKey expected fault => .removeKey expected fault .reading

def Worker.request : Worker → Request
  | .save expected request fault _ => .save expected request fault
  | .removeKey expected fault _ => .removeKey expected fault

/-- Whether a worker that has returned did what was asked. -/
def Worker.result : Worker → Option Bool
  | .save _ _ _ (.returned result) => some result.isOk
  | .removeKey _ _ (.returned result) => some result.isOk
  | _ => none

@[simp] theorem Request.worker_request (request : Request) : request.worker.request = request := by
  cases request <;> rfl

@[simp] theorem Request.worker_result (request : Request) : request.worker.result = none := by
  cases request <;> rfl

/-! The router. -/

/-- A request and its handler. `attended` says whether the handler is still there, with the lock. -/
inductive Party where
  | absent
  | waiting (request : Request)
  | started (attended : Bool) (worker : Worker)
  | gone

structure State where
  machine : Machine
  holder : Option Nat
  parties : Nat → Party

def State.new (machine : Machine) : State where
  machine := machine
  holder := none
  parties _ := .absent

inductive Action where
  | arrive (id : Nat) (request : Request)
  | lock (id : Nat)
  | work (id : Nat)
  | answer (id : Nat)
  | disconnect (id : Nat)

/-- The request that an action is about. -/
def Action.id : Action → Nat
  | .arrive id _ => id
  | .lock id => id
  | .work id => id
  | .answer id => id
  | .disconnect id => id

def State.become (s : State) (id : Nat) (party : Party) : State :=
  { s with parties := Function.update s.parties id party }

@[simp] theorem State.become_self (s : State) (id : Nat) (party : Party) :
    (s.become id party).parties id = party := Function.update_self ..

theorem State.become_other (s : State) {id other : Nat} (party : Party) (apart : other ≠ id) :
    (s.become id party).parties other = s.parties other := Function.update_of_ne apart ..

/-- The request of a worker that has done what was asked. -/
def Party.success : Party → Option Request
  | .started _ worker => if worker.result = some true then some worker.request else none
  | _ => none

def Party.running : Party → Bool
  | .started _ worker => worker.result.isNone
  | _ => false

section Steps

variable [Lowercase] (texts : Texts) (env : Env)

def Worker.step (machine : Machine) : Worker → Machine × Worker
  | .save expected request fault phase =>
      let next := saveStep texts env expected request fault machine phase
      (next.1, .save expected request fault next.2)
  | .removeKey expected fault phase =>
      let next := removeStep texts env expected fault machine phase
      (next.1, .removeKey expected fault next.2)

def Worker.steps : Nat → Machine → Worker → Machine × Worker
  | 0, machine, worker => (machine, worker)
  | count + 1, machine, worker =>
      let next := worker.step texts env machine
      Worker.steps count next.1 next.2

/-- A request served with no other beside it. -/
def perform (machine : Machine) (request : Request) : Machine × Worker :=
  request.worker.steps texts env 9 machine

/-- Requests one after another, each of which succeeds against the revision it names. -/
def serial : List Request → Machine → Option Machine
  | [], machine => some machine
  | request :: rest, machine =>
      let performed := perform texts env machine request
      if texts.revision machine.file = request.expected ∧ performed.2.result = some true then
        serial rest performed.1
      else none

/-- One step of the router. The lock is taken and the worker started without a pause. -/
def step (s : State) : Action → Option State
  | .arrive id request =>
      match s.parties id with
      | .absent => some (s.become id (.waiting request))
      | _ => none
  | .lock id =>
      match s.parties id, s.holder with
      | .waiting request, none =>
          some { s.become id (.started true request.worker) with holder := some id }
      | _, _ => none
  | .work id =>
      match s.parties id with
      | .started attended worker =>
          let next := worker.step texts env s.machine
          some { s.become id (.started attended next.2) with machine := next.1 }
      | _ => none
  | .answer id =>
      match s.parties id with
      | .started true worker =>
          if worker.result.isSome then
            some { s.become id (.started false worker) with holder := none }
          else none
      | _ => none
  | .disconnect id =>
      match s.parties id with
      | .waiting _ => some (s.become id .gone)
      | .started true worker =>
          some { s.become id (.started false worker) with holder := none }
      | _ => none

end Steps

/-! What a request does on its own. -/

theorem Unchanged.put {a b : Machine} (same : Unchanged a b) (account : List Char)
    (entry : Option (List Char)) : Unchanged (a.put account entry) (b.put account entry) := by
  refine ⟨same.1, fun other => ?_⟩
  by_cases here : other = account
  · rw [here, Machine.get_put_self, Machine.get_put_self]
  · rw [Machine.get_put_other _ _ here, Machine.get_put_other _ _ here, same.2 other]

theorem Unchanged.trans {a b c : Machine} (first : Unchanged a b) (second : Unchanged b c) :
    Unchanged a c :=
  ⟨second.1.trans first.1, fun account => (second.2 account).trans (first.2 account)⟩

theorem removeStep_alike (texts : Texts) (env : Env) {a b : Machine} (same : Unchanged a b) (expected : List Char)
    (fault : Option Fault) (phase : RemovePhase) :
    (removeStep texts env expected fault b phase).2 =
        (removeStep texts env expected fault a phase).2 ∧
      Unchanged (removeStep texts env expected fault a phase).1
        (removeStep texts env expected fault b phase).1 := by
  cases phase with
  | reading =>
      simp only [removeStep, same.1]
      split
      · exact ⟨rfl, same⟩
      · split <;> exact ⟨rfl, same⟩
  | deleting account =>
      simp only [removeStep]
      split
      · exact ⟨rfl, same⟩
      · exact ⟨rfl, same.put _ _⟩
  | returned result => exact ⟨rfl, same⟩

section Alone

variable [Lowercase] (texts : Texts) (env : Env)

/-- Two machines that agree on the file and the keys are alike to a save. -/
theorem saveStep_alike {a b : Machine} (same : Unchanged a b) (expected : List Char)
    (request : SaveRequest) (fault : Option Fault) (phase : SavePhase) :
    (saveStep texts env expected request fault b phase).2 =
        (saveStep texts env expected request fault a phase).2 ∧
      Unchanged (saveStep texts env expected request fault a phase).1
        (saveStep texts env expected request fault b phase).1 := by
  have looked : lookedUp fault b = lookedUp fault a := by
    funext var
    simp only [lookedUp, same.2]
  cases phase with
  | reading =>
      simp only [saveStep, same.1]
      split
      · exact ⟨rfl, same⟩
      · split <;> exact ⟨rfl, same⟩
  | holding text edited =>
      simp only [saveStep, same.2]
      split
      · split
        · exact ⟨rfl, same⟩
        · split <;> exact ⟨rfl, same⟩
      · exact ⟨rfl, same⟩
  | validating text edited =>
      simp only [saveStep, looked]
      split
      · split <;> exact ⟨rfl, same⟩
      · exact ⟨rfl, same⟩
  | remembering text edited key =>
      simp only [saveStep, same.2]
      split <;> exact ⟨rfl, same⟩
  | setting text edited key previous =>
      simp only [saveStep]
      split
      · exact ⟨rfl, same⟩
      · exact ⟨rfl, same.put _ _⟩
  | readingBack text edited key previous =>
      simp only [saveStep, same.2]
      split
      · exact ⟨rfl, same⟩
      · split <;> exact ⟨rfl, same⟩
  | backingUp text edited undo =>
      simp only [saveStep]
      split
      · exact ⟨rfl, same⟩
      · exact ⟨rfl, same.1, same.2⟩
  | writing edited undo =>
      simp only [saveStep]
      split
      · exact ⟨rfl, same⟩
      · exact ⟨rfl, rfl, same.2⟩
  | restoring edited previous failure =>
      simp only [saveStep]
      split
      · exact ⟨rfl, same⟩
      · exact ⟨rfl, same.put _ _⟩
  | returned result => exact ⟨rfl, same⟩

theorem Worker.step_alike {a b : Machine} (same : Unchanged a b) (worker : Worker) :
    (worker.step texts env b).2 = (worker.step texts env a).2 ∧
      Unchanged (worker.step texts env a).1 (worker.step texts env b).1 := by
  cases worker with
  | save expected request fault phase =>
      have alike := saveStep_alike texts env same expected request fault phase
      exact ⟨by rw [Worker.step, Worker.step, alike.1], alike.2⟩
  | removeKey expected fault phase =>
      have alike := removeStep_alike texts env same expected fault phase
      exact ⟨by rw [Worker.step, Worker.step, alike.1], alike.2⟩

theorem Worker.steps_alike (count : Nat) {a b : Machine} (same : Unchanged a b) (worker : Worker) :
    (worker.steps texts env count b).2 = (worker.steps texts env count a).2 ∧
      Unchanged (worker.steps texts env count a).1 (worker.steps texts env count b).1 := by
  induction count generalizing a b worker with
  | zero => exact ⟨rfl, same⟩
  | succ count ih =>
      have alike := worker.step_alike texts env same
      rw [Worker.steps, Worker.steps, alike.1]
      exact ih alike.2 _

theorem Worker.step_request (machine : Machine) (worker : Worker) :
    (worker.step texts env machine).2.request = worker.request := by
  cases worker <;> rfl

/-- A worker that has returned does nothing more. -/
theorem Worker.step_returned {machine : Machine} {worker : Worker} (returned : worker.result ≠ none) :
    worker.step texts env machine = (machine, worker) := by
  cases worker with
  | save expected request fault phase =>
      cases phase with
      | returned result => rfl
      | _ => exact absurd rfl returned
  | removeKey expected fault phase =>
      cases phase with
      | returned result => rfl
      | _ => exact absurd rfl returned

theorem Worker.steps_returned (count : Nat) {machine : Machine} {worker : Worker}
    (returned : worker.result ≠ none) : worker.steps texts env count machine = (machine, worker) := by
  induction count with
  | zero => rfl
  | succ count ih => rw [Worker.steps, worker.step_returned texts env returned, ih]

theorem Worker.steps_add (first second : Nat) (machine : Machine) (worker : Worker) :
    worker.steps texts env (first + second) machine =
      (worker.steps texts env first machine).2.steps texts env second
        (worker.steps texts env first machine).1 := by
  induction first generalizing machine worker with
  | zero => rw [Nat.zero_add, Worker.steps]
  | succ first ih => rw [Nat.succ_add, Worker.steps, Worker.steps, ih]

theorem Worker.steps_succ (count : Nat) (machine : Machine) (worker : Worker) :
    worker.steps texts env (count + 1) machine =
      (worker.steps texts env count machine).2.step texts env
        (worker.steps texts env count machine).1 :=
  Worker.steps_add texts env count 1 machine worker

theorem Worker.steps_request (count : Nat) (machine : Machine) (worker : Worker) :
    (worker.steps texts env count machine).2.request = worker.request := by
  induction count generalizing machine worker with
  | zero => rfl
  | succ count ih => rw [Worker.steps, ih, worker.step_request texts env]

theorem Worker.steps_save (expected : List Char) (request : SaveRequest) (fault : Option Fault)
    (count : Nat) (machine : Machine) (phase : SavePhase) :
    (Worker.save expected request fault phase).steps texts env count machine =
      ((saveSteps texts env expected request fault count machine phase).1,
        .save expected request fault
          (saveSteps texts env expected request fault count machine phase).2) := by
  induction count generalizing machine phase with
  | zero => rfl
  | succ count ih => rw [Worker.steps, saveSteps, ← ih]; rfl

theorem perform_save (machine : Machine) (expected : List Char) (request : SaveRequest)
    (fault : Option Fault) :
    perform texts env machine (.save expected request fault) =
      ((save texts env fault machine expected request).1,
        .save expected request fault (save texts env fault machine expected request).2) :=
  Worker.steps_save texts env expected request fault 9 machine .reading

theorem perform_removeKey (machine : Machine) (expected : List Char) (fault : Option Fault) :
    perform texts env machine (.removeKey expected fault) =
      ((removeKey texts env expected fault machine).1,
        .removeKey expected fault (.returned (removeKey texts env expected fault machine).2)) := by
  have two : (Request.removeKey expected fault).worker.steps texts env 2 machine =
      ((removeKey texts env expected fault machine).1,
        .removeKey expected fault (.returned (removeKey texts env expected fault machine).2)) := by
    simp only [Request.worker, Worker.steps, Worker.step, removeStep, removeKey]
    cases refusal fault .readFile with
    | some kind => rfl
    | none =>
        cases removable texts env machine.file expected with
        | error failure => rfl
        | ok account =>
            dsimp only
            cases refusal fault .deleteKey <;> rfl
  rw [perform, Worker.steps_add texts env 2 7, two]
  exact Worker.steps_returned texts env 7 (by simp [Worker.result])

theorem perform_returns (machine : Machine) (request : Request) :
    (perform texts env machine request).2.result ≠ none := by
  cases request with
  | save expected request fault =>
      obtain ⟨result, returned⟩ := save_returns texts env expected request fault machine
      simp [perform_save, returned, Worker.result]
  | removeKey expected fault => simp [perform_removeKey, Worker.result]

/-- However many steps a request has taken when it has returned, it has done what it does alone. -/
theorem perform_of_steps {count : Nat} {machine after : Machine} {request : Request} {worker : Worker}
    (reached : request.worker.steps texts env count machine = (after, worker))
    (returned : worker.result ≠ none) : perform texts env machine request = (after, worker) := by
  rcases Nat.le_total count 9 with early | late
  · rw [perform, ← Nat.add_sub_cancel' early, Worker.steps_add, reached]
    exact Worker.steps_returned texts env _ returned
  · rw [← Nat.add_sub_cancel' late, Worker.steps_add] at reached
    rw [← reached]
    exact (Worker.steps_returned texts env _ (perform_returns texts env machine request)).symm

/-- A request that succeeds does so against the revision it names. -/
theorem perform_revision {machine : Machine} {request : Request}
    (succeeded : (perform texts env machine request).2.result = some true) :
    texts.revision machine.file = request.expected := by
  by_contra other
  cases request with
  | save expected request fault =>
      have conflict : edit texts machine.file expected request =
          .error (.conflict (texts.revision machine.file)) := if_pos other
      have failed : ((Request.save expected request fault).worker.step texts env machine).2.result =
          some false := by
        simp only [Request.worker, Worker.step, saveStep, conflict]
        cases refusal fault .readFile <;> rfl
      rw [perform, Worker.steps, Worker.steps_returned texts env 8 (by simp [failed]),
        failed] at succeeded
      cases succeeded
  | removeKey expected fault =>
      have conflict : removable texts env machine.file expected =
          .error (.conflict (texts.revision machine.file)) := if_pos other
      rw [perform_removeKey, removeKey, conflict] at succeeded
      cases refused : refusal fault .readFile <;>
        simp [refused, Worker.result, Except.isOk, Except.toBool] at succeeded

/-- The request does not come to a refused read-back of a key that it has changed. -/
def Request.Safe (machine : Machine) : Request → Prop
  | .save expected request fault =>
      refusal fault .readBack ≠ none → ¬BringsKey texts env expected request machine
  | .removeKey _ _ => True

theorem perform_failed {machine : Machine} {request : Request}
    (safe : request.Safe texts env machine)
    (failed : (perform texts env machine request).2.result = some false) :
    Unchanged machine (perform texts env machine request).1 := by
  cases request with
  | save expected request fault =>
      have known := saveSteps_known texts env expected request safe 9
        (show Known texts env expected request fault machine machine .reading from rfl)
      rw [perform_save] at failed ⊢
      unfold save at failed ⊢
      cases phase : (saveSteps texts env expected request fault 9 machine .reading).2 with
      | returned result =>
          rw [phase] at known failed
          cases result with
          | error failure => exact known
          | ok action => simp [Worker.result, Except.isOk, Except.toBool] at failed
      | _ => simp [phase, Worker.result] at failed
  | removeKey expected fault =>
      rw [perform_removeKey] at failed ⊢
      unfold removeKey at failed ⊢
      split at failed
      · exact unchanged_refl machine
      · split at failed
        · exact unchanged_refl machine
        · split at failed
          · exact unchanged_refl machine
          · simp [Worker.result, Except.isOk, Except.toBool] at failed

theorem serial_append {first second : List Request} {start middle machine : Machine}
    (ran : serial texts env first start = some middle)
    (then_ : serial texts env second middle = some machine) :
    serial texts env (first ++ second) start = some machine := by
  induction first generalizing start with
  | nil =>
      cases ran
      exact then_
  | cons request first ih =>
      simp only [serial, Option.ite_none_right_eq_some] at ran
      rw [List.cons_append, serial]
      simp only [ran.1, and_self, if_true]
      exact ih ran.2

end Alone

/-! Runs in which no worker is left alone. -/

/-- A worker that runs has its handler, and the handler has the lock. -/
structure Exclusive (s : State) : Prop where
  attended : ∀ id attended worker,
    s.parties id = .started attended worker → worker.result = none → attended = true
  holder : ∀ id worker, s.parties id = .started true worker → s.holder = some id

theorem exclusive_new (machine : Machine) : Exclusive (.new machine) where
  attended _ _ _ started := by cases started
  holder _ _ started := by cases started

theorem Exclusive.update {s t : State} (exclusive : Exclusive s) {id : Nat} {party : Party}
    (parties : t.parties = Function.update s.parties id party)
    (attended : ∀ attended worker, party = .started attended worker → worker.result = none →
      attended = true)
    (held : ∀ worker, party = .started true worker → t.holder = some id)
    (others : ∀ other worker, other ≠ id → s.parties other = .started true worker →
      t.holder = some other) :
    Exclusive t where
  attended other attended' worker started running := by
    by_cases here : other = id
    · exact attended attended' worker (by simpa [parties, here] using started) running
    · exact exclusive.attended other attended' worker (by simpa [parties, here] using started) running
  holder other worker started := by
    by_cases here : other = id
    · rw [here]
      exact held worker (by simpa [parties, here] using started)
    · exact others other worker here (by simpa [parties, here] using started)

/-- The holder is the only one that is attended. -/
theorem Exclusive.alone {s : State} (exclusive : Exclusive s) {id other : Nat} {worker : Worker}
    (party : s.parties id = .started true worker) (apart : other ≠ id) (worker' : Worker) :
    s.parties other ≠ .started true worker' := by
  intro party'
  have same := (exclusive.holder id worker party).symm.trans (exclusive.holder other worker' party')
  exact apart (Option.some.inj same).symm

theorem Exclusive.idle {s : State} (exclusive : Exclusive s) {id other : Nat} {worker : Worker}
    (party : s.parties id = .started true worker) (apart : other ≠ id) :
    (s.parties other).running = false := by
  cases parties : s.parties other with
  | started attended worker' =>
      cases running : worker'.result with
      | some result => simp [Party.running, running]
      | none =>
          cases exclusive.attended other attended worker' parties running
          exact absurd parties (exclusive.alone party apart worker')
  | _ => rfl

theorem success_eq {s t : State} {id : Nat}
    (others : ∀ other, other ≠ id → t.parties other = s.parties other)
    (success : (t.parties id).success = (s.parties id).success) (other : Nat) :
    (t.parties other).success = (s.parties other).success := by
  by_cases here : other = id
  · rw [here, success]
  · rw [others other here]

section Runs

variable [Lowercase] (texts : Texts) (env : Env)

/-- No handler is dropped while its worker runs, and no save is started that comes to a refused
read-back of a key that it has changed. -/
def Attended (s : State) : Action → Prop
  | .disconnect id => (s.parties id).running = false
  | .lock id => ∀ request, s.parties id = .waiting request → request.Safe texts env s.machine
  | _ => True

/-- How the router's machine comes of one on which no request is being served: it is the same, or one
request has taken some of its steps. -/
inductive Standing (s : State) (machine : Machine) : Prop where
  | quiet (idle : ∀ id, (s.parties id).running = false) (same : Unchanged machine s.machine)
  | serving (id count : Nat) (request : Request) (begun : Machine) (worker : Worker)
      (party : s.parties id = .started true worker) (running : worker.result = none)
      (same : Unchanged machine begun) (safe : request.Safe texts env begun)
      (reached : request.worker.steps texts env count begun = (s.machine, worker))

/-- The requests that have succeeded, in an order in which they leave `machine`. -/
structure Serialised (start : Machine) (s : State) (order : List (Nat × Request))
    (machine : Machine) : Prop where
  ran : serial texts env (order.map Prod.snd) start = some machine
  once : (order.map Prod.fst).Nodup
  members : ∀ id request, (id, request) ∈ order ↔ (s.parties id).success = some request
  standing : Standing texts env s machine

theorem serialised_new (machine : Machine) :
    Serialised texts env machine (.new machine) [] machine where
  ran := rfl
  once := List.nodup_nil
  members _ _ := by simp [State.new, Party.success]
  standing := .quiet (fun _ => rfl) (unchanged_refl machine)

variable {texts env}

/-- A step of a party whose worker does not run, before it or after. -/
theorem Standing.aside {s t : State} {machine : Machine} {id : Nat}
    (standing : Standing texts env s machine) (same : t.machine = s.machine)
    (others : ∀ other, other ≠ id → t.parties other = s.parties other)
    (before : (s.parties id).running = false) (after : (t.parties id).running = false) :
    Standing texts env t machine := by
  cases standing with
  | quiet idle alike =>
      refine .quiet (fun other => ?_) (by rwa [same])
      by_cases here : other = id
      · rw [here, after]
      · rw [others other here, idle other]
  | serving other count request begun worker party running alike safe reached =>
      have apart : other ≠ id := by
        intro same
        subst same
        simp [party, Party.running, running] at before
      exact .serving other count request begun worker (by rw [others other apart, party]) running
        alike safe (by rw [same, reached])

theorem Serialised.aside {start : Machine} {s t : State} {order : List (Nat × Request)}
    {machine : Machine} {id : Nat} (serialised : Serialised texts env start s order machine)
    (same : t.machine = s.machine) (others : ∀ other, other ≠ id → t.parties other = s.parties other)
    (before : (s.parties id).running = false) (after : (t.parties id).running = false)
    (success : (t.parties id).success = (s.parties id).success) :
    Serialised texts env start t order machine where
  ran := serialised.ran
  once := serialised.once
  members other request := by
    rw [serialised.members other request, success_eq others success]
  standing := serialised.standing.aside same others before after

/-- While a request is served, no other is. -/
theorem Standing.served {s : State} {machine : Machine} {id : Nat} {worker : Worker}
    (standing : Standing texts env s machine) (exclusive : Exclusive s)
    (party : s.parties id = .started true worker) (running : worker.result = none) :
    ∃ (count : Nat) (request : Request) (begun : Machine), Unchanged machine begun ∧
      request.Safe texts env begun ∧
      request.worker.steps texts env count begun = (s.machine, worker) := by
  cases standing with
  | quiet idle same =>
      have still := idle id
      simp [party, Party.running, running] at still
  | serving other count request begun worker' party' running' same safe reached =>
      have holds := (exclusive.holder id worker party).symm.trans (exclusive.holder other worker' party')
      cases holds
      rw [party] at party'
      cases party'
      exact ⟨count, request, begun, same, safe, reached⟩

variable (texts env) in
/-- What one step can do. -/
inductive Stepped (s : State) : Action → State → Prop where
  | arrive {id : Nat} (request : Request) (absent : s.parties id = .absent) :
      Stepped s (.arrive id request) (s.become id (.waiting request))
  | lock {id : Nat} {request : Request} (waits : s.parties id = .waiting request)
      (free : s.holder = none) :
      Stepped s (.lock id) { s.become id (.started true request.worker) with holder := some id }
  | work {id : Nat} {attended : Bool} {worker : Worker}
      (party : s.parties id = .started attended worker) :
      Stepped s (.work id)
        { s.become id (.started attended (worker.step texts env s.machine).2) with
          machine := (worker.step texts env s.machine).1 }
  | answer {id : Nat} {worker : Worker} (party : s.parties id = .started true worker)
      (returned : worker.result ≠ none) :
      Stepped s (.answer id) { s.become id (.started false worker) with holder := none }
  | leave {id : Nat} {request : Request} (waits : s.parties id = .waiting request) :
      Stepped s (.disconnect id) (s.become id .gone)
  | drop {id : Nat} {worker : Worker} (party : s.parties id = .started true worker) :
      Stepped s (.disconnect id) { s.become id (.started false worker) with holder := none }

theorem stepped_of_step {s t : State} {action : Action} (stepped : step texts env s action = some t) :
    Stepped texts env s action t := by
  cases action with
  | arrive id request =>
      simp only [step] at stepped
      split at stepped
      · rename_i absent
        cases stepped
        exact .arrive request absent
      · cases stepped
  | lock id =>
      simp only [step] at stepped
      split at stepped
      · rename_i waits free
        cases stepped
        exact .lock waits free
      · cases stepped
  | work id =>
      simp only [step] at stepped
      split at stepped
      · rename_i party
        cases stepped
        exact .work party
      · cases stepped
  | answer id =>
      simp only [step] at stepped
      split at stepped
      · rename_i party
        rw [Option.ite_none_right_eq_some] at stepped
        obtain ⟨returned, same⟩ := stepped
        cases same
        exact .answer party (Option.isSome_iff_ne_none.mp returned)
      · cases stepped
  | disconnect id =>
      simp only [step] at stepped
      split at stepped
      · rename_i waits
        cases stepped
        exact .leave waits
      · rename_i party
        cases stepped
        exact .drop party
      · cases stepped

theorem exclusive_step {s t : State} {action : Action} (met : Attended texts env s action)
    (exclusive : Exclusive s) (stepped : Stepped texts env s action t) :
    Exclusive t := by
  cases stepped with
  | @arrive id request absent =>
      exact exclusive.update rfl (fun _ _ other => nomatch other) (fun _ other => nomatch other)
        fun other worker _ => exclusive.holder other worker
  | @lock id request waits free =>
      refine exclusive.update rfl ?_ (fun _ _ => rfl) ?_
      · intro attended worker started _
        cases started
        rfl
      · intro other worker _ started
        cases free.symm.trans (exclusive.holder other worker started)
  | @work id attended worker party =>
      refine exclusive.update rfl ?_ ?_ fun other worker _ => exclusive.holder other worker
      · intro attended' worker' started running
        cases started
        by_contra left
        have was : worker.result ≠ none := fun runs =>
          left (exclusive.attended id attended worker party runs)
        rw [worker.step_returned texts env was] at running
        exact was running
      · intro worker' started
        cases started
        exact exclusive.holder id worker party
  | @answer id worker party returned =>
      refine exclusive.update rfl ?_ (fun _ other => nomatch other) ?_
      · intro attended worker' started running
        cases started
        exact absurd running returned
      · intro other worker' apart started
        exact absurd started (exclusive.alone party apart worker')
  | @leave id request waits =>
      exact exclusive.update rfl (fun _ _ other => nomatch other) (fun _ other => nomatch other)
        fun other worker _ => exclusive.holder other worker
  | @drop id worker party =>
      refine exclusive.update rfl ?_ (fun _ other => nomatch other) ?_
      · intro attended worker' started running
        cases started
        have stopped : (s.parties id).running = false := met
        simp [party, Party.running, running] at stopped
      · intro other worker' apart started
        exact absurd started (exclusive.alone party apart worker')

/-- A worker's step, which may be its last. -/
theorem Serialised.work {start : Machine} {s t : State} {order : List (Nat × Request)}
    {machine : Machine} (serialised : Serialised texts env start s order machine) {id : Nat}
    {worker next : Worker} (exclusive : Exclusive s) (party : s.parties id = .started true worker)
    (running : worker.result = none)
    (stepped : worker.step texts env s.machine = (t.machine, next))
    (others : ∀ other, other ≠ id → t.parties other = s.parties other)
    (now : t.parties id = .started true next) :
    ∃ order machine, Serialised texts env start t order machine := by
  obtain ⟨count, request, begun, same, safe, reached⟩ :=
    serialised.standing.served exclusive party running
  have further : request.worker.steps texts env (count + 1) begun = (t.machine, next) := by
    rw [Worker.steps_succ, reached]
    exact stepped
  have unfinished : (s.parties id).success = none := by simp [party, Party.success, running]
  have asked : next.request = request := by
    have kept := Worker.steps_request texts env (count + 1) begun request.worker
    rwa [further, Request.worker_request] at kept
  cases result : next.result with
  | none =>
      have success : (t.parties id).success = (s.parties id).success := by
        rw [unfinished, now]
        simp [Party.success, result]
      refine ⟨order, machine, serialised.ran, serialised.once, fun other request' => ?_,
        .serving id (count + 1) request begun next now result same safe further⟩
      rw [serialised.members other request', success_eq others success]
  | some succeeded =>
      have idle : ∀ other, (t.parties other).running = false := by
        intro other
        by_cases here : other = id
        · simp [here, now, Party.running, result]
        · rw [others other here]
          exact exclusive.idle party here
      have performed := perform_of_steps texts env further (by simp [result])
      cases succeeded with
      | false =>
          have success : (t.parties id).success = (s.parties id).success := by
            rw [unfinished, now]
            simp [Party.success, result]
          have left := perform_failed texts env safe (by rw [performed, result])
          rw [performed] at left
          refine ⟨order, machine, serialised.ran, serialised.once, fun other request' => ?_,
            .quiet idle (same.trans left)⟩
          rw [serialised.members other request', success_eq others success]
      | true =>
          have alike := Worker.steps_alike texts env 9 same request.worker
          change (perform texts env begun request).2 = (perform texts env machine request).2 ∧
            Unchanged (perform texts env machine request).1 (perform texts env begun request).1 at alike
          rw [performed] at alike
          have done : (perform texts env machine request).2.result = some true := by
            rw [← alike.1, result]
          refine ⟨order ++ [(id, request)], (perform texts env machine request).1, ?_, ?_, ?_,
            .quiet idle alike.2⟩
          · rw [List.map_append]
            refine serial_append texts env serialised.ran ?_
            simp [serial, done, perform_revision texts env done]
          · rw [List.map_append, List.map_singleton, List.nodup_append]
            refine ⟨serialised.once, List.nodup_singleton _, ?_⟩
            intro old listed last final both
            obtain ⟨⟨other, request'⟩, member, rfl⟩ := List.mem_map.mp listed
            rw [List.mem_singleton.mp final] at both
            have succeeded := (serialised.members other request').mp member
            rw [show other = id from both, unfinished] at succeeded
            cases succeeded
          · intro other request'
            rw [List.mem_append, List.mem_singleton, serialised.members other request']
            by_cases here : other = id
            · rw [here, unfinished, now]
              simp [Party.success, result, asked, eq_comm]
            · simp [others other here, here]

theorem serialised_step {start : Machine} {s t : State} {action : Action}
    {order : List (Nat × Request)} {machine : Machine} (met : Attended texts env s action)
    (exclusive : Exclusive s) (stepped : Stepped texts env s action t)
    (serialised : Serialised texts env start s order machine) :
    ∃ order machine, Serialised texts env start t order machine := by
  cases stepped with
  | @arrive id request absent =>
      refine ⟨order, machine, serialised.aside rfl (fun other => s.become_other _) ?_ ?_ ?_⟩
      all_goals simp [absent, Party.running, Party.success]
  | @lock id request waits free =>
      have others : ∀ other, other ≠ id →
          (s.become id (.started true request.worker)).parties other = s.parties other :=
        fun other => s.become_other _
      cases serialised.standing with
      | quiet idle same =>
          refine ⟨order, machine, serialised.ran, serialised.once, fun other request' => ?_,
            .serving id 0 request s.machine request.worker (s.become_self ..) request.worker_result same
              (met request waits) rfl⟩
          rw [serialised.members other request']
          exact iff_of_eq (congrArg (· = some request')
            (success_eq others (by simp [waits, Party.success]) other).symm)
      | serving other count request' begun worker party running same safe reached =>
          cases free.symm.trans (exclusive.holder other worker party)
  | @work id attended worker party =>
      cases running : worker.result with
      | none =>
          cases exclusive.attended id attended worker party running
          exact serialised.work exclusive party running rfl (fun other => s.become_other _)
            (s.become_self ..)
      | some result =>
          refine ⟨order, machine, serialised.aside ?_ (fun other => s.become_other _) ?_ ?_ ?_⟩
          all_goals simp [worker.step_returned texts env (by simp [running]), party, Party.running,
            running]
  | @answer id worker party returned =>
      obtain ⟨result, returned⟩ := Option.ne_none_iff_exists'.mp returned
      refine ⟨order, machine, serialised.aside rfl (fun other => s.become_other _) ?_ ?_ ?_⟩
      all_goals simp [party, Party.running, Party.success, returned]
  | @leave id request waits =>
      refine ⟨order, machine, serialised.aside rfl (fun other => s.become_other _) ?_ ?_ ?_⟩
      all_goals simp [waits, Party.running, Party.success]
  | @drop id worker party =>
      have stopped : (s.parties id).running = false := met
      have returned : worker.result ≠ none := by
        intro running
        simp [party, Party.running, running] at stopped
      obtain ⟨result, returned⟩ := Option.ne_none_iff_exists'.mp returned
      refine ⟨order, machine, serialised.aside rfl (fun other => s.become_other _) ?_ ?_ ?_⟩
      all_goals simp [party, Party.running, Party.success, returned]

/-- A party that has no part in a run is left as it was. -/
theorem run_others {s t : State} {actions : List Action} {id : Nat}
    (ran : run (step texts env) s actions = some t) (apart : ∀ action ∈ actions, id ≠ action.id) :
    t.parties id = s.parties id := by
  induction actions generalizing s with
  | nil =>
      cases ran
      rfl
  | cons action rest ih =>
      obtain ⟨u, stepped, tail⟩ := Option.bind_eq_some_iff.mp ran
      have one : u.parties id = s.parties id := by
        have other := apart action List.mem_cons_self
        cases stepped_of_step stepped <;> exact s.become_other _ other
      rw [ih tail fun action member => apart action (List.mem_cons_of_mem _ member), one]

theorem serialised_reached {start : Machine} {s : State}
    (reached : Reaches (step texts env) (Attended texts env) (.new start) s) :
    Exclusive s ∧ ∃ order machine, Serialised texts env start s order machine := by
  refine reached.invariant
    (fun s => Exclusive s ∧ ∃ order machine, Serialised texts env start s order machine)
    ⟨exclusive_new start, [], start, serialised_new texts env start⟩ ?_
  intro s action t met holds stepped
  obtain ⟨exclusive, order, machine, serialised⟩ := holds
  have can := stepped_of_step stepped
  exact ⟨exclusive_step met exclusive can, serialised_step met exclusive can serialised⟩

variable (texts env) in
/-- The file and the keys are what the requests that succeeded leave, one after another in some
order, each against the revision it names. -/
def Serialisable (start : Machine) (s : State) : Prop :=
  ∃ (order : List (Nat × Request)) (machine : Machine),
    (order.map Prod.fst).Nodup ∧
    (∀ id request, (id, request) ∈ order ↔ (s.parties id).success = some request) ∧
    serial texts env (order.map Prod.snd) start = some machine ∧ Unchanged machine s.machine

/-- When every worker has returned, and none was left alone while it ran, the requests that succeeded
might have been served one after another. -/
theorem requests_serialisable {start : Machine} {s : State}
    (reached : Reaches (step texts env) (Attended texts env) (.new start) s)
    (quiet : ∀ id, (s.parties id).running = false) : Serialisable texts env start s := by
  obtain ⟨exclusive, order, machine, serialised⟩ := serialised_reached reached
  refine ⟨order, machine, serialised.once, serialised.members, serialised.ran, ?_⟩
  cases serialised.standing with
  | quiet idle same => exact same
  | serving id count request begun worker party running same safe reached =>
      have still := quiet id
      simp [party, Party.running, running] at still

end Runs

/-! A key that is removed while a save counts on it. -/

section Sample

attribute [local instance] asciiLowercase

/-- A save that switches to Jev with the key that is stored. -/
def switchingSave : SaveRequest where
  provider := .jev
  jev := some ⟨defaultBaseUrl, ['m'], none, none⟩
  apiKey := none
  keyWhole _ none_ := nomatch none_

def switchedTexts : Texts :=
  sampleTexts [sampleDocument (.string lightweightKey) sampleBlock,
    sampleDocument (.string jevKey) savedBlock]

def idleMachine : Machine := sampleMachine (.string lightweightKey) sampleBlock "old".toList

def switching : Request := .save idleMachine.file switchingSave none

def removing : Request := .removeKey idleMachine.file none

def noEnv : Env := fun _ => none

theorem requests_serialisable_removal :
    ∃ s, (s.parties 0).success = some removing ∧
      Serialisable switchedTexts noEnv idleMachine s := by
  have arrived : Reaches (step switchedTexts noEnv) (Attended switchedTexts noEnv)
      (.new idleMachine) _ := Reaches.start.act (.arrive 0 removing) trivial rfl
  have locked := arrived.act (.lock 0) (fun request waits => by cases waits; trivial) rfl
  have read := locked.act (.work 0) trivial rfl
  have removed := read.act (.work 0) trivial rfl
  refine ⟨_, ?_, requests_serialisable removed fun id => ?_⟩
  · decide +kernel
  · cases id with
    | zero => decide +kernel
    | succ id => rfl

/-- The client of a save leaves when its key has been checked; a removal is served; the save's worker
goes on to write the file. -/
def overlapping : List Action :=
  [.arrive 0 switching, .arrive 1 removing, .lock 0, .work 0, .work 0, .work 0, .disconnect 0,
    .lock 1, .work 1, .work 1, .work 0, .work 0]

theorem overlapping_unserialisable :
    ∃ s, run (step switchedTexts noEnv) (.new idleMachine) overlapping = some s ∧
      (∀ id, (s.parties id).running = false) ∧
      ¬Serialisable switchedTexts noEnv idleMachine s := by
  have ended : (run (step switchedTexts noEnv) (.new idleMachine) overlapping).map
      (fun s => [(s.parties 0).success, (s.parties 1).success]) =
        some [some switching, some removing] := by
    decide +kernel
  obtain ⟨s, ran, both⟩ := Option.map_eq_some_iff.mp ended
  injection both with first second
  injection second with second
  have others : ∀ id, s.parties (id + 2) = .absent := fun id =>
    run_others ran (by simp [overlapping, Action.id])
  have running : ∀ {party : Party} {request : Request}, party.success = some request →
      party.running = false := by
    intro party request succeeded
    cases party with
    | started attended worker =>
        simp only [Party.success, Option.ite_none_right_eq_some] at succeeded
        simp [Party.running, succeeded.1]
    | _ => rfl
  refine ⟨s, ran, fun id => ?_, ?_⟩
  · match id with
    | 0 => exact running first
    | 1 => exact running second
    | id + 2 => rw [others id]; rfl
  · intro serialisable
    obtain ⟨order, machine, once, members, serially, -⟩ := serialisable
    have two : order.Perm [(0, switching), (1, removing)] := by
      rw [List.perm_ext_iff_of_nodup once.of_map (by simp)]
      intro entry
      obtain ⟨id, request⟩ := entry
      rw [members id request]
      match id with
      | 0 => simp [first, eq_comm]
      | 1 => simp [second, eq_comm]
      | id + 2 => simp [others id, Party.success]
    have either := List.mem_permutations'.mpr two
    have conflict : serial switchedTexts noEnv [switching, removing] idleMachine = none :=
      Option.isNone_iff_eq_none.mp (by decide +kernel)
    have missing : serial switchedTexts noEnv [removing, switching] idleMachine = none :=
      Option.isNone_iff_eq_none.mp (by decide +kernel)
    rcases (by simpa [List.permutations'] using either :
      order = [(0, switching), (1, removing)] ∨ order = [(1, removing), (0, switching)]) with rfl | rfl
    · cases conflict.symm.trans serially
    · cases missing.symm.trans serially

end Sample

end Lightweight.Router.Settings
