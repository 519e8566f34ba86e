import Mathlib.Logic.Function.Basic
import Lightweight.Router.ClassifierReading

/-! Saving the classifier's settings and the Jev key
(`lightweight-router/src/classifier_settings.rs`): the edit of the file, and a save as the worker
that runs it makes its steps, each of which may fail. -/

namespace Lightweight.Router.Settings

open Lightweight.Core Lightweight.Catalog Classifier Auto Reading

/-- The account a Jev key is filed under. -/
def jevAccount (apiKeyEnv : List Char) : List Char := ['j', 'e', 'v', '/'] ++ apiKeyEnv

theorem jevAccount_injective {a b : List Char} (same : jevAccount a = jevAccount b) : a = b :=
  List.append_cancel_left same

/-! The file. -/

/-- What a save may change of the Jev block; a confidence as the bits of its double. -/
structure JevPatch where
  baseUrl : List Char
  model : List Char
  timeoutMs : Option Nat
  minConfidence : Option UInt64
deriving DecidableEq, Repr

/-- What a save may change. A key has been trimmed and is not blank by the time it is saved. -/
structure SaveRequest where
  provider : ProviderKind
  jev : Option JevPatch
  apiKey : Option (List Char)
  keyWhole : ∀ key, apiKey = some key → present (some key) = some key
deriving DecidableEq

inductive StoreFailure where
  | unavailable
  | failed
deriving DecidableEq, Repr

/-- A refused or failed request. -/
inductive Failure where
  /-- The file cannot be read. -/
  | configUnreadable
  /-- The configuration changed since it was read. -/
  | conflict (current : List Char)
  | notJson
  | classifierNotConfigured
  | jevNotObject
  | minConfidence
  /-- The router would refuse these settings. -/
  | invalidSettings
  | apiKeyMissing
  /-- The store could not do what was asked. Nothing was saved. -/
  | store (failure : StoreFailure)
  /-- The credential store did not keep the key; nothing was saved. -/
  | notKept
  /-- The file could not be written; the previous settings and key are unchanged. -/
  | saveFailed
  /-- The saved settings use Jev with this key. -/
  | keyInUse
deriving DecidableEq, Repr

/-- Replaces a member where it stands, or adds it at the end. -/
def put (key : List Char) (value : Value) : Map → Map
  | [] => [(key, value)]
  | (other, old) :: rest =>
      if key = other then (key, value) :: rest else (other, old) :: put key value rest

theorem get_put (key other : List Char) (value : Value) (members : Map) :
    Map.get other (put key value members) =
      if other = key then some value else Map.get other members := by
  induction members with
  | nil => simp [put, Map.get]
  | cons entry members ih =>
      obtain ⟨name, old⟩ := entry
      by_cases first : key = name
      · subst first
        by_cases same : other = key <;> simp [put, Map.get, same]
      · by_cases here : other = name
        · subst here
          simp [put, Map.get, first, Ne.symm first]
        · simp [put, Map.get, first, here, ih]

def patchBlock (patch : JevPatch) (block : Map) : Except Failure Map :=
  let block := put Reading.modelKey (.string (trim patch.model))
    (put baseUrlKey (.string (trim patch.baseUrl)) block)
  let block := match patch.timeoutMs with
    | some ms => put timeoutKey (.number (.posInt ms)) block
    | none => block
  match patch.minConfidence with
  | none => .ok block
  | some bits =>
      match Binary64.value bits with
      | some _ => .ok (put minConfidenceKey (.number (.float bits)) block)
      | none => .error .minConfidence

/-- The classifier section with the provider and the Jev block that are saved. -/
def patchSection (request : SaveRequest) (members : Map) : Except Failure Map :=
  let members := put providerKey (.string (kindName request.provider)) members
  match request.jev with
  | none => .ok members
  | some patch =>
      match (Map.get jevKey members).getD (.object []) with
      | .object block =>
          match patchBlock patch block with
          | .ok block => .ok (put jevKey (.object block) members)
          | .error failure => .error failure
      | _ => .error .jevNotObject

/-- The `auto_route.classifier` object, where a document has one. -/
def classifierSection (document : Value) : Option Map :=
  match document with
  | .object root =>
      match Map.get autoRouteKey root with
      | some (.object auto) =>
          match Map.get classifierKey auto with
          | some (.object members) => some members
          | _ => none
      | _ => none
  | _ => none

/-- The document with another section in that place. -/
def withSection (document : Value) (members : Map) : Value :=
  match document with
  | .object root =>
      match Map.get autoRouteKey root with
      | some (.object auto) =>
          .object (put autoRouteKey (.object (put classifierKey (.object members) auto)) root)
      | _ => document
  | _ => document

/-- The name of the key's variable, as a save reads it. -/
def apiKeyEnvOf (members : Map) : List Char :=
  match Map.get jevKey members with
  | some (.object block) =>
      match Map.get apiKeyEnvKey block with
      | some (.string name) => name
      | _ => defaultApiKeyEnv
  | _ => defaultApiKeyEnv

/-- The parser and the printer of JSON, the hash of a text and the parser of URLs. `outside` reads a
text's members other than the classifier section, and refuses one that is written twice. -/
structure Texts where
  fromStr : List Char → Option Value
  pretty : Value → List Char
  revision : List Char → List Char
  outside : List Char → Option WholeFile
  urls : UrlReader

/-- A text as a router file. -/
def Texts.read (texts : Texts) (text : List Char) : Option WholeFile :=
  (texts.outside text).bind fun outside => (texts.fromStr text).bind (readFile outside)

/-- What is to be written, the file that it is, and the variable that names the account. -/
structure Edited where
  apiKeyEnv : List Char
  next : List Char
  file : WholeFile

def edit (texts : Texts) (text expected : List Char) (request : SaveRequest) :
    Except Failure Edited :=
  if texts.revision text ≠ expected then .error (.conflict (texts.revision text))
  else
    match texts.fromStr text with
    | none => .error .notJson
    | some document =>
        match classifierSection document with
        | none => .error .classifierNotConfigured
        | some members =>
            match patchSection request members with
            | .error failure => .error failure
            | .ok members =>
                let next := texts.pretty (withSection document members) ++ ['\n']
                match texts.read next with
                | none => .error .invalidSettings
                | some file => .ok { apiKeyEnv := apiKeyEnvOf members, next, file }

/-! The steps. -/

/-- The router file, the copy of it beside it, and the entries of the credential store. -/
structure Machine where
  file : List Char
  backup : Option (List Char)
  store : List Char → Option (List Char)

/-- The secret filed under an account, trimmed; a blank one is none. -/
def Machine.get (machine : Machine) (account : List Char) : Option (List Char) :=
  present (machine.store account)

def Machine.put (machine : Machine) (account : List Char) (entry : Option (List Char)) : Machine :=
  { machine with store := Function.update machine.store account entry }

@[simp] theorem Machine.get_put_self (machine : Machine) (account : List Char)
    (entry : Option (List Char)) : (machine.put account entry).get account = present entry := by
  simp [Machine.get, Machine.put]

@[simp] theorem Machine.get_put_other (machine : Machine) {account other : List Char}
    (entry : Option (List Char)) (different : other ≠ account) :
    (machine.put account entry).get other = machine.get other := by
  simp [Machine.get, Machine.put, different]

/-- What a save or a removal asks of the file system and of the store. -/
inductive Operation where
  | readFile
  | held
  | lookup
  | previous
  | setKey
  | readBack
  | writeBackup
  | writeFile
  | restore
  | deleteKey
deriving DecidableEq, Repr

/-- How an operation goes wrong: it is refused, or the store says it kept a key and did not. -/
inductive Fault where
  | refused (operation : Operation) (kind : StoreFailure)
  | garbled (kept : Option (List Char))
deriving DecidableEq, Repr

/-- Whether an operation is the one that is refused. -/
def refusal (fault : Option Fault) (operation : Operation) : Option StoreFailure :=
  match fault with
  | some (.refused refused kind) => if refused = operation then some kind else none
  | _ => none

/-- What the store holds after a call to keep a key that it did not refuse. -/
def keptBy (fault : Option Fault) (key : List Char) : Option (List Char) :=
  match fault with
  | some (.garbled kept) => kept
  | _ => some key

/-- The stored keys as the check of the file asks for them. A lookup that is refused finds nothing. -/
def lookedUp (fault : Option Fault) (machine : Machine) : Env := fun var =>
  match refusal fault .lookup with
  | some _ => none
  | none => machine.get (jevAccount var)

theorem lookedUp_answered {fault : Option Fault} (answered : refusal fault .lookup = none)
    (machine : Machine) : lookedUp fault machine = fun var => machine.get (jevAccount var) := by
  unfold lookedUp
  rw [answered]

/-- Whether the environment has the key. -/
def inEnvironment (env : Env) (var : List Char) : Bool := (present (env var)).isSome

/-- The stored keys as the new one stands in for its own. -/
def standingIn (edited : Edited) (apiKey : Option (List Char)) (stored : Env) : Env := fun var =>
  if var = edited.apiKeyEnv ∧ apiKey.isSome then apiKey else stored var

inductive KeyAction where
  | replaced
  | unchanged
deriving DecidableEq, Repr

/-- Where a save is. `undo` is the key to put back, for a save that has replaced it. -/
inductive SavePhase where
  | reading
  | holding (text : List Char) (edited : Edited)
  | validating (text : List Char) (edited : Edited)
  | remembering (text : List Char) (edited : Edited) (key : List Char)
  | setting (text : List Char) (edited : Edited) (key : List Char) (previous : Option (List Char))
  | readingBack (text : List Char) (edited : Edited) (key : List Char)
      (previous : Option (List Char))
  | backingUp (text : List Char) (edited : Edited) (undo : Option (Option (List Char)))
  | writing (edited : Edited) (undo : Option (Option (List Char)))
  | restoring (edited : Edited) (previous : Option (List Char)) (failure : Failure)
  | returned (result : Except Failure KeyAction)

/-- What a save that failed says. -/
def SavePhase.failure : SavePhase → Option Failure
  | .returned (.error failure) => some failure
  | _ => none

theorem SavePhase.failure_eq_some {phase : SavePhase} {failure : Failure} :
    phase.failure = some failure ↔ phase = .returned (.error failure) := by
  cases phase with
  | returned result => cases result <;> simp [SavePhase.failure]
  | _ => simp [SavePhase.failure]

/-- Back out of a save whose file could not be written. -/
def backOut (edited : Edited) : Option (Option (List Char)) → SavePhase
  | some previous => .restoring edited previous .saveFailed
  | none => .returned (.error .saveFailed)

/-! What a change leaves. -/

/-- The file and every key are as they were. -/
def Unchanged (start machine : Machine) : Prop :=
  machine.file = start.file ∧ ∀ account, machine.get account = start.get account

/-- The file and every other key are as they were. -/
def UnchangedBut (account : List Char) (start machine : Machine) : Prop :=
  machine.file = start.file ∧ ∀ other, other ≠ account → machine.get other = start.get other

theorem Unchanged.but {start machine : Machine} (same : Unchanged start machine)
    (account : List Char) : UnchangedBut account start machine :=
  ⟨same.1, fun other _ => same.2 other⟩

theorem UnchangedBut.put {start machine : Machine} {account : List Char}
    (same : UnchangedBut account start machine) (entry : Option (List Char)) :
    UnchangedBut account start (machine.put account entry) := by
  refine ⟨same.1, fun other different => ?_⟩
  rw [Machine.get_put_other _ _ different]
  exact same.2 other different

/-- Putting back a key that was read makes up for the change. -/
theorem UnchangedBut.undo {start machine : Machine} {account : List Char}
    {entry : Option (List Char)} (same : UnchangedBut account start machine)
    (restored : present entry = start.get account) : Unchanged start (machine.put account entry) := by
  refine ⟨same.1, fun other => ?_⟩
  by_cases here : other = account
  · rw [here, Machine.get_put_self, restored]
  · rw [Machine.get_put_other _ _ here]
    exact same.2 other here

/-- What is read from the store has been trimmed. -/
theorem present_get (machine : Machine) (account : List Char) :
    present (machine.get account) = machine.get account := by
  unfold Machine.get present
  cases machine.store account with
  | none => rfl
  | some entry =>
      rw [Option.map_some]
      by_cases blank : (trim entry).isEmpty = true
      · simp [Option.filter, blank]
      · simp [Option.filter, blank, trim_idempotent]

/-- A key to put back was read before the change. -/
def Remembers (start machine : Machine) (edited : Edited) (previous : Option (List Char)) : Prop :=
  UnchangedBut (jevAccount edited.apiKeyEnv) start machine ∧
    previous = start.get (jevAccount edited.apiKeyEnv)

/-- The key has been replaced, or there is none to replace. -/
def MayUndo (start machine : Machine) (edited : Edited) : Option (Option (List Char)) → Prop
  | some previous => Remembers start machine edited previous
  | none => Unchanged start machine

theorem unchanged_refl (start : Machine) : Unchanged start start := ⟨rfl, fun _ => rfl⟩

/-- At most one operation is refused. -/
theorem refusal_other {fault : Option Fault} {operation other : Operation} {kind : StoreFailure}
    (refused : refusal fault operation = some kind) (different : other ≠ operation) :
    refusal fault other = none := by
  unfold refusal at refused ⊢
  split at refused
  · rename_i found _
    rw [Option.ite_none_right_eq_some] at refused
    simp [refused.1, Ne.symm different]
  · cases refused

/-- A store that refuses something keeps what it is given. -/
theorem keptBy_of_refusal {fault : Option Fault} {operation : Operation} {kind : StoreFailure}
    (refused : refusal fault operation = some kind) (key : List Char) :
    keptBy fault key = some key := by
  unfold refusal at refused
  split at refused
  · rfl
  · cases refused

theorem refusal_of_lost {fault : Option Fault} {key : List Char} (lost : keptBy fault key ≠ some key)
    (operation : Operation) : refusal fault operation = none := by
  cases refused : refusal fault operation with
  | none => rfl
  | some kind => exact absurd (keptBy_of_refusal refused key) lost

section Saving

variable [Lowercase]

/-- Whether the router would start from a file with an environment and stored keys. -/
def Texts.accepts (texts : Texts) (file : WholeFile) (env stored : Env) : Bool :=
  (validateWithStore texts.urls file env stored).isOk

/-- One step of a save. -/
def saveStep (texts : Texts) (env : Env) (expected : List Char) (request : SaveRequest)
    (fault : Option Fault) (machine : Machine) : SavePhase → Machine × SavePhase
  | .reading =>
      match refusal fault .readFile with
      | some _ => (machine, .returned (.error .configUnreadable))
      | none =>
          match edit texts machine.file expected request with
          | .error failure => (machine, .returned (.error failure))
          | .ok edited => (machine, .holding machine.file edited)
  | .holding text edited =>
      if request.provider = .jev ∧ request.apiKey = none ∧
          inEnvironment env edited.apiKeyEnv = false then
        match refusal fault .held with
        | some kind => (machine, .returned (.error (.store kind)))
        | none =>
            match machine.get (jevAccount edited.apiKeyEnv) with
            | none => (machine, .returned (.error .apiKeyMissing))
            | some _ => (machine, .validating text edited)
      else (machine, .validating text edited)
  | .validating text edited =>
      if texts.accepts edited.file env
          (standingIn edited request.apiKey (lookedUp fault machine)) then
        match request.apiKey with
        | some key => (machine, .remembering text edited key)
        | none => (machine, .backingUp text edited none)
      else (machine, .returned (.error .invalidSettings))
  | .remembering text edited key =>
      match refusal fault .previous with
      | some kind => (machine, .returned (.error (.store kind)))
      | none => (machine, .setting text edited key (machine.get (jevAccount edited.apiKeyEnv)))
  | .setting text edited key previous =>
      match refusal fault .setKey with
      | some kind => (machine, .returned (.error (.store kind)))
      | none =>
          (machine.put (jevAccount edited.apiKeyEnv) (keptBy fault key),
            .readingBack text edited key previous)
  | .readingBack text edited key previous =>
      match refusal fault .readBack with
      | some kind => (machine, .returned (.error (.store kind)))
      | none =>
          if machine.get (jevAccount edited.apiKeyEnv) = some key then
            (machine, .backingUp text edited (some previous))
          else (machine, .restoring edited previous .notKept)
  | .backingUp text edited undo =>
      match refusal fault .writeBackup with
      | some _ => (machine, backOut edited undo)
      | none => ({ machine with backup := some text }, .writing edited undo)
  | .writing edited undo =>
      match refusal fault .writeFile with
      | some _ => (machine, backOut edited undo)
      | none =>
          ({ machine with file := edited.next },
            .returned (.ok (if undo.isSome then .replaced else .unchanged)))
  | .restoring edited previous failure =>
      match refusal fault .restore with
      | some _ => (machine, .returned (.error failure))
      | none =>
          (machine.put (jevAccount edited.apiKeyEnv) previous, .returned (.error failure))
  | .returned result => (machine, .returned result)

def saveSteps (texts : Texts) (env : Env) (expected : List Char) (request : SaveRequest)
    (fault : Option Fault) : Nat → Machine → SavePhase → Machine × SavePhase
  | 0, machine, phase => (machine, phase)
  | count + 1, machine, phase =>
      let next := saveStep texts env expected request fault machine phase
      saveSteps texts env expected request fault count next.1 next.2

/-- A save with no other worker beside it: no save has more steps than these. -/
def save (texts : Texts) (env : Env) (fault : Option Fault) (machine : Machine)
    (expected : List Char) (request : SaveRequest) : Machine × SavePhase :=
  saveSteps texts env expected request fault 9 machine .reading

/-! A save that fails. -/

section Failing

variable (texts : Texts) (env : Env) (expected : List Char) (request : SaveRequest)

/-- The checks of a save, made of a machine on which nothing goes wrong. -/
def checks (machine : Machine) : Except Failure Edited :=
  match edit texts machine.file expected request with
  | .error failure => .error failure
  | .ok edited =>
      if request.provider = .jev ∧ request.apiKey = none ∧
          inEnvironment env edited.apiKeyEnv = false ∧
          machine.get (jevAccount edited.apiKeyEnv) = none then
        .error .apiKeyMissing
      else if texts.accepts edited.file env
          (standingIn edited request.apiKey fun var => machine.get (jevAccount var)) then
        .ok edited
      else .error .invalidSettings

/-- The save brings a key that passes the checks and is not the one that is stored. -/
def BringsKey (machine : Machine) : Prop :=
  ∃ edited key, checks texts env expected request machine = .ok edited ∧
    request.apiKey = some key ∧ machine.get (jevAccount edited.apiKeyEnv) ≠ some key

/-- What is known of a save in each of its phases. -/
def Known (fault : Option Fault) (start machine : Machine) : SavePhase → Prop
  | .reading => machine = start
  | .holding _ edited =>
      machine = start ∧ edit texts start.file expected request = .ok edited
  | .validating _ edited =>
      machine = start ∧ edit texts start.file expected request = .ok edited ∧
        ¬(request.provider = .jev ∧ request.apiKey = none ∧
          inEnvironment env edited.apiKeyEnv = false ∧
          start.get (jevAccount edited.apiKeyEnv) = none)
  | .remembering _ edited key =>
      machine = start ∧ request.apiKey = some key ∧
        (refusal fault .lookup = none → checks texts env expected request start = .ok edited)
  | .setting _ edited key previous =>
      machine = start ∧ request.apiKey = some key ∧
        (refusal fault .lookup = none → checks texts env expected request start = .ok edited) ∧
        previous = start.get (jevAccount edited.apiKeyEnv)
  | .readingBack _ edited key previous =>
      machine = start.put (jevAccount edited.apiKeyEnv) (keptBy fault key) ∧
        request.apiKey = some key ∧
        (refusal fault .lookup = none → checks texts env expected request start = .ok edited) ∧
        previous = start.get (jevAccount edited.apiKeyEnv)
  | .backingUp _ edited undo => MayUndo start machine edited undo
  | .writing edited undo => MayUndo start machine edited undo
  | .restoring edited previous _ =>
      Remembers start machine edited previous ∧ refusal fault .restore = none
  | .returned (.ok _) => True
  | .returned (.error _) => Unchanged start machine

theorem backOut_known {fault : Option Fault} {start machine : Machine} {edited : Edited}
    {undo : Option (Option (List Char))} (known : MayUndo start machine edited undo)
    (restores : refusal fault .restore = none) :
    Known texts env expected request fault start machine (backOut edited undo) := by
  cases undo with
  | none => exact known
  | some previous => exact ⟨known, restores⟩

/-- One step keeps what is known, unless it is a refused read-back of another key. -/
theorem saveStep_known {fault : Option Fault} {start machine after : Machine}
    {phase next : SavePhase}
    (safe : refusal fault .readBack ≠ none → ¬BringsKey texts env expected request start)
    (known : Known texts env expected request fault start machine phase)
    (stepped : saveStep texts env expected request fault machine phase = (after, next)) :
    Known texts env expected request fault start after next := by
  cases phase with
  | reading =>
      subst known
      simp only [saveStep] at stepped
      split at stepped
      · cases stepped
        exact unchanged_refl machine
      · split at stepped
        · cases stepped
          exact unchanged_refl machine
        · rename_i edited made
          cases stepped
          exact ⟨rfl, made⟩
  | holding text edited =>
      obtain ⟨rfl, made⟩ := known
      simp only [saveStep] at stepped
      split at stepped
      · split at stepped
        · cases stepped
          exact unchanged_refl machine
        · split at stepped
          · cases stepped
            exact unchanged_refl machine
          · rename_i found
            cases stepped
            exact ⟨rfl, made, fun missing => by simp [missing.2.2.2] at found⟩
      · rename_i free
        cases stepped
        exact ⟨rfl, made, fun missing => free ⟨missing.1, missing.2.1, missing.2.2.1⟩⟩
  | validating text edited =>
      obtain ⟨rfl, made, held⟩ := known
      simp only [saveStep] at stepped
      split at stepped
      · rename_i accepted
        split at stepped
        · rename_i key brought
          cases stepped
          refine ⟨rfl, brought, fun answered => ?_⟩
          rw [lookedUp_answered answered, brought] at accepted
          simp [checks, made, brought, accepted]
        · cases stepped
          exact unchanged_refl machine
      · cases stepped
        exact unchanged_refl machine
  | remembering text edited key =>
      obtain ⟨rfl, brought, checked⟩ := known
      simp only [saveStep] at stepped
      split at stepped
      · cases stepped
        exact unchanged_refl machine
      · cases stepped
        exact ⟨rfl, brought, checked, rfl⟩
  | setting text edited key previous =>
      obtain ⟨rfl, brought, checked, remembered⟩ := known
      simp only [saveStep] at stepped
      split at stepped
      · cases stepped
        exact unchanged_refl machine
      · cases stepped
        exact ⟨rfl, brought, checked, remembered⟩
  | readingBack text edited key previous =>
      obtain ⟨rfl, brought, checked, remembered⟩ := known
      have replaced := (unchanged_refl start).but (jevAccount edited.apiKeyEnv)
      have whole := request.keyWhole key brought
      simp only [saveStep] at stepped
      split at stepped
      · rename_i kind refused
        cases stepped
        have same : start.get (jevAccount edited.apiKeyEnv) = some key := by
          by_contra other
          exact safe (by simp [refused])
            ⟨edited, key, checked (refusal_other refused nofun), brought, other⟩
        refine replaced.undo ?_
        rw [same, keptBy_of_refusal refused, whole]
      · split at stepped
        · cases stepped
          exact ⟨replaced.put _, remembered⟩
        · rename_i lost
          cases stepped
          refine ⟨⟨replaced.put _, remembered⟩, ?_⟩
          rw [Machine.get_put_self] at lost
          exact refusal_of_lost (fun kept => lost (kept ▸ whole)) .restore
  | backingUp text edited undo =>
      simp only [saveStep] at stepped
      split at stepped
      · rename_i refused
        cases stepped
        exact backOut_known texts env expected request known (refusal_other refused nofun)
      · cases stepped
        cases undo <;> exact known
  | writing edited undo =>
      simp only [saveStep] at stepped
      split at stepped
      · rename_i refused
        cases stepped
        exact backOut_known texts env expected request known (refusal_other refused nofun)
      · cases stepped
        trivial
  | restoring edited previous failure =>
      obtain ⟨⟨same, remembered⟩, restores⟩ := known
      simp only [saveStep, restores] at stepped
      cases stepped
      exact same.undo (by rw [remembered, present_get])
  | returned result =>
      cases stepped
      exact known

theorem saveSteps_known {fault : Option Fault} {start : Machine}
    (safe : refusal fault .readBack ≠ none → ¬BringsKey texts env expected request start)
    (count : Nat) {machine : Machine} {phase : SavePhase}
    (known : Known texts env expected request fault start machine phase) :
    Known texts env expected request fault start
      (saveSteps texts env expected request fault count machine phase).1
      (saveSteps texts env expected request fault count machine phase).2 := by
  induction count generalizing machine phase with
  | zero => exact known
  | succ count ih => exact ih (saveStep_known texts env expected request safe known rfl)

/-- How many steps a save has left at most. -/
def SavePhase.left : SavePhase → Nat
  | .reading => 9
  | .holding .. => 8
  | .validating .. => 7
  | .remembering .. => 6
  | .setting .. => 5
  | .readingBack .. => 4
  | .backingUp .. => 3
  | .writing .. => 2
  | .restoring .. => 1
  | .returned _ => 0

theorem saveStep_left (fault : Option Fault) (machine : Machine) (phase : SavePhase) :
    (saveStep texts env expected request fault machine phase).2.left ≤ phase.left - 1 := by
  have backs : ∀ (edited : Edited) (undo : Option (Option (List Char))),
      (backOut edited undo).left ≤ 1 := by
    intro edited undo
    cases undo with
    | none => exact Nat.zero_le 1
    | some previous => exact Nat.le_refl 1
  cases phase with
  | backingUp text edited undo =>
      simp only [saveStep]
      split
      · exact Nat.le_succ_of_le (backs edited undo)
      · exact Nat.le_refl 2
  | writing edited undo =>
      simp only [saveStep]
      split
      · exact backs edited undo
      · exact Nat.zero_le 1
  | _ =>
      simp only [saveStep]
      repeat' split
      all_goals simp [SavePhase.left]

theorem saveSteps_left (fault : Option Fault) (count : Nat) (machine : Machine) (phase : SavePhase) :
    (saveSteps texts env expected request fault count machine phase).2.left ≤ phase.left - count := by
  induction count generalizing machine phase with
  | zero => exact Nat.le_refl _
  | succ count ih =>
      have one := saveStep_left texts env expected request fault machine phase
      have rest := ih (saveStep texts env expected request fault machine phase).1
        (saveStep texts env expected request fault machine phase).2
      rw [saveSteps]
      omega

/-- A save returns. -/
theorem save_returns (fault : Option Fault) (machine : Machine) :
    ∃ result, (save texts env fault machine expected request).2 = .returned result := by
  have left := saveSteps_left texts env expected request fault 9 machine .reading
  unfold save
  cases phase : (saveSteps texts env expected request fault 9 machine .reading).2 with
  | returned result => exact ⟨result, rfl⟩
  | _ => simp [phase, SavePhase.left] at left

/-- A read-back that is refused ends the save with the new key in place. -/
theorem save_lost {machine : Machine} {edited : Edited} {key : List Char} (kind : StoreFailure)
    (checked : checks texts env expected request machine = .ok edited)
    (brought : request.apiKey = some key) :
    save texts env (some (.refused .readBack kind)) machine expected request =
      (machine.put (jevAccount edited.apiKeyEnv) (some key), .returned (.error (.store kind))) := by
  unfold checks at checked
  split at checked
  · cases checked
  · rename_i made
    split at checked
    · cases checked
    · split at checked
      · rename_i accepted
        cases checked
        rw [brought] at accepted
        simp [save, saveSteps, saveStep, refusal, made, brought, lookedUp_answered, accepted, keptBy]
      · cases checked

/-- What a save that fails promises: the file and the keys are as they were. -/
def FailsUnchanged (fault : Option Fault) (machine : Machine) : Prop :=
  ∀ failure, (save texts env fault machine expected request).2 = .returned (.error failure) →
    Unchanged machine (save texts env fault machine expected request).1

/-- A save returns; and one that fails leaves everything as it was unless it brings a key that is not
the stored one, and the store refuses to read that key back. -/
theorem failed_save_unchanged_iff (fault : Option Fault) (machine : Machine) :
    (∃ result, (save texts env fault machine expected request).2 = .returned result) ∧
    (FailsUnchanged texts env expected request fault machine ↔
      ¬((∃ kind, fault = some (.refused .readBack kind)) ∧
        BringsKey texts env expected request machine)) := by
  refine ⟨save_returns texts env expected request fault machine, ?_, ?_⟩
  · intro promised failing
    obtain ⟨⟨kind, rfl⟩, edited, key, checked, brought, other⟩ := failing
    have lost := save_lost texts env expected request kind checked brought
    have same := promised (.store kind) (by rw [lost])
    have now := same.2 (jevAccount edited.apiKeyEnv)
    rw [lost, Machine.get_put_self, request.keyWhole key brought] at now
    exact other now.symm
  · intro kept failure failed
    have safe : refusal fault .readBack ≠ none → ¬BringsKey texts env expected request machine := by
      intro refused brings
      refine kept ⟨?_, brings⟩
      unfold refusal at refused
      split at refused
      · rename_i operation kind
        by_cases same : operation = .readBack
        · exact ⟨kind, by rw [same]⟩
        · simp [same] at refused
      · exact absurd rfl refused
    have known := saveSteps_known texts env expected request safe 9
      (show Known texts env expected request fault machine machine .reading from rfl)
    unfold save at failed ⊢
    rw [failed] at known
    exact known

end Failing

end Saving

/-! A key that is stored and cannot be read back. -/

section Sample

attribute [local instance] asciiLowercase

def bracketed (front back : Char) (depth : Nat) (parts : List (List Char)) : List Char :=
  let line count := '\n' :: List.replicate (2 * count) ' '
  if parts.isEmpty then [front, back]
  else
    front :: [','].intercalate (parts.map fun part => line (depth + 1) ++ part) ++ line depth ++ [back]

def quoted (text : List Char) : List Char := '"' :: text ++ ['"']

mutual

/-- Prints values without fractions or marks that are escaped. -/
def prettySample (depth : Nat) : Value → List Char
  | .null => "null".toList
  | .bool b => (toString b).toList
  | .number (.posInt n) => Nat.toDigits 10 n
  | .number _ => []
  | .string text => quoted text
  | .array items => bracketed '[' ']' depth (prettyItems (depth + 1) items)
  | .object members => bracketed '\x7b' '\x7d' depth (prettyMembers (depth + 1) members)

def prettyItems (depth : Nat) : List Value → List (List Char)
  | [] => []
  | item :: items => prettySample depth item :: prettyItems depth items

def prettyMembers (depth : Nat) : List (List Char × Value) → List (List Char)
  | [] => []
  | (key, value) :: members =>
      (quoted key ++ ": ".toList ++ prettySample depth value) :: prettyMembers depth members

end

def sampleText (document : Value) : List Char := prettySample 0 document ++ ['\n']

def sampleNode : Value :=
  .object [("id".toList, .string ['a']), ("url".toList, .string "http://a".toList)]

def sampleRoute : Value :=
  .object [("name".toList, .string ['G']), ("deployments".toList,
    .array [.object [("node".toList, .string ['a']), (Reading.modelKey, .string ['M'])]])]

/-- A file with one route and with both providers. -/
def sampleDocument (provider : Value) (jev : Map) : Value :=
  .object [(nodesKey, .array [sampleNode]), (routesKey, .array [sampleRoute]),
    (autoRouteKey, .object [(fallbackRouteKey, .string ['G']), (classifierKey, .object
      [(providerKey, provider), (routesKey, .array [.string ['G']]), (lightweightKey, .object
        [(routeKey, .string ['G']), (timeoutKey, .number (.posInt 5000))]), (jevKey, .object jev)])])]

/-- What of these files is not their classifier section. -/
def sampleOutside : WholeFile where
  file :=
    { defaultRoute := none
      nodes := [⟨['a'], "http://a".toList, true, none⟩]
      routes := [⟨['G'], .leastBusy, none, [⟨['a'], ['M']⟩], none⟩] }
  earlier _ := []
  autoRoute := some
    { enabled := false, fallbackRoute := ['G'], rules := [], classifier := none
      adaptiveScoring := none, crossRouteFallback := none }

/-- Reads a scheme and a host. -/
def sampleUrls : UrlReader where
  parse raw := some
    { scheme := raw.takeWhile (· ≠ ':'), host := some ((raw.dropWhile (· ≠ ':')).drop 3)
      username := [], password := none, query := none, fragment := none }
  asStr url := url.scheme ++ "://".toList ++ url.host.getD [] ++ ['/']
  isLoopbackIp _ := false

/-- As much of the parser as these documents need; a text stands for its own hash. -/
def sampleTexts (documents : List Value) : Texts where
  fromStr text := documents.find? fun document => sampleText document == text
  pretty := prettySample 0
  revision := id
  outside _ := some sampleOutside
  urls := sampleUrls

def sampleBlock : Map := [(Reading.modelKey, .string ['m']), (timeoutKey, .number (.posInt 5000))]

def savedBlock : Map := sampleBlock ++ [(baseUrlKey, .string defaultBaseUrl)]

def sampleMachine (provider : Value) (jev : Map) (key : List Char) : Machine where
  file := sampleText (sampleDocument provider jev)
  backup := none
  store account := if account = jevAccount defaultApiKeyEnv then some key else none

/-- A save that brings a new key. -/
def replacingSave : SaveRequest where
  provider := .jev
  jev := some ⟨defaultBaseUrl, ['m'], none, none⟩
  apiKey := some "new".toList
  keyWhole key same := by
    cases same
    decide +kernel

def replacedMachine : Machine := sampleMachine (.string jevKey) sampleBlock "old".toList

theorem unread_key_stays :
    ¬FailsUnchanged
        (sampleTexts [sampleDocument (.string jevKey) sampleBlock,
          sampleDocument (.string jevKey) savedBlock])
        (fun _ => none) replacedMachine.file replacingSave (some (.refused .readBack .failed))
        replacedMachine := by
  intro promised
  have failed := promised (.store .failed) (SavePhase.failure_eq_some.mp (by decide +kernel))
  exact absurd (failed.2 (jevAccount defaultApiKeyEnv)) (by decide +kernel)

end Sample

end Lightweight.Router.Settings
