import Lightweight.Router.Health

/-! The health book against the history of what was recorded: its counter, flag and last served model
are functions of the outcomes alone. -/

namespace Lightweight.Router

open Lightweight.Catalog

inductive HealthCall where
  | record (node : NodeId) (outcome : Outcome) (seen checked : Nat)
  | forgetModel (node : NodeId)
deriving DecidableEq, Repr

/-- The outcome `call` records for `node`. -/
def HealthCall.outcomeFor (node : NodeId) : HealthCall → Option Outcome
  | .record recorded outcome _ _ => if recorded = node then some outcome else none
  | .forgetModel _ => none

def outcomesFor (node : NodeId) (calls : List HealthCall) : List Outcome :=
  calls.filterMap (HealthCall.outcomeFor node)

def trailingFailures (outcomes : List Outcome) : Nat :=
  (outcomes.reverse.takeWhile Outcome.isFailure).length

/-- What a node's health should be after these outcomes. -/
def healthOf (threshold : Nat) (outcomes : List Outcome) : NodeHealth :=
  if threshold ≤ trailingFailures outcomes then .unhealthy
  else if outcomes.any fun outcome => !outcome.isFailure then .healthy
  else .unknown

/-- The last success recorded for `node` saw `served`, and the model was not forgotten since. -/
def ServedSince (node : NodeId) (calls : List HealthCall) (served : ServedModel) : Prop :=
  ∃ earlier later observation seen checked,
    calls = earlier ++ .record node (.success observation) seen checked :: later ∧
    (∀ outcome ∈ outcomesFor node later, outcome.isFailure = true) ∧
    observation.served = some served ∧ .forgetModel node ∉ later

namespace HealthBook

variable [Lowercase]

def perform (book : HealthBook) : HealthCall → HealthBook
  | .record node outcome seen checked => book.record node outcome seen checked
  | .forgetModel node => book.forgetModel node

def performAll (book : HealthBook) (calls : List HealthCall) : HealthBook :=
  calls.foldl perform book

end HealthBook

/-- What `call` does to the status of `node`. -/
def NodeStatus.respond (status : NodeStatus) (threshold : Nat) (node : NodeId) :
    HealthCall → NodeStatus
  | .record recorded outcome _ checked =>
      if recorded = node then status.apply outcome threshold checked else status
  | .forgetModel forgotten => if forgotten = node then status.forgetModel else status

section Book

variable [Lowercase]

theorem recordObservations_eq (book : HealthBook) (node : NodeId) (outcome : Outcome) (now : Nat) :
    ∃ deployments, book.recordObservations node outcome now = { book with deployments } := by
  cases outcome with
  | failure reason => exact ⟨book.deployments, rfl⟩
  | success observation =>
      simp only [HealthBook.recordObservations, HealthBook.observeDeployments]
      cases observation.served with
      | none => exact ⟨book.deployments, rfl⟩
      | some served => exact ⟨_, rfl⟩

omit [Lowercase] in
theorem updateNode_nodes (book : HealthBook) (node other : NodeId)
    (change : NodeStatus → NodeStatus) :
    (book.updateNode node change).nodes other =
      (book.nodes other).map fun status => if node = other then change status else status := by
  by_cases same : node = other
  · subst same
    simp [HealthBook.updateNode]
  · simp [HealthBook.updateNode, Function.update_of_ne (Ne.symm same), same]

theorem perform_threshold (book : HealthBook) (call : HealthCall) :
    (book.perform call).threshold = book.threshold := by
  cases call with
  | forgetModel node => rfl
  | record node outcome seen checked =>
      rcases recordObservations_eq book node outcome seen with ⟨deployments, observed⟩
      simp [HealthBook.perform, HealthBook.record, observed, HealthBook.recordStatus,
        HealthBook.updateNode]

theorem perform_nodes (book : HealthBook) (call : HealthCall) (node : NodeId) :
    (book.perform call).nodes node =
      (book.nodes node).map fun status => status.respond book.threshold node call := by
  cases call with
  | forgetModel forgotten => exact updateNode_nodes book forgotten node NodeStatus.forgetModel
  | record recorded outcome seen checked =>
      rcases recordObservations_eq book recorded outcome seen with ⟨deployments, observed⟩
      simp only [HealthBook.perform, HealthBook.record, HealthBook.recordStatus, observed,
        updateNode_nodes, NodeStatus.respond]

theorem performAll_nodes (topology : Topology) (policy : HealthPolicy) (calls : List HealthCall)
    (node : NodeId) :
    (((HealthBook.new topology policy).performAll calls).threshold = policy.failureThreshold) ∧
    ((HealthBook.new topology policy).performAll calls).nodes node =
      ((topology.node node).map fun _ => calls.foldl
        (fun status call => status.respond policy.failureThreshold node call) .default) := by
  induction calls using List.reverseRecOn with
  | nil => exact ⟨rfl, rfl⟩
  | append_singleton calls call ih =>
      simp only [HealthBook.performAll, List.foldl_append, List.foldl_cons, List.foldl_nil]
      refine ⟨(perform_threshold _ call).trans ih.1, ?_⟩
      rw [perform_nodes]
      unfold HealthBook.performAll at ih
      rw [ih.1, ih.2, Option.map_map]
      rfl

end Book

theorem outcomesFor_concat (node : NodeId) (calls : List HealthCall) (call : HealthCall) :
    outcomesFor node (calls ++ [call]) = outcomesFor node calls ++ (call.outcomeFor node).toList := by
  cases outcome : call.outcomeFor node <;> simp [outcomesFor, outcome]

theorem trailingFailures_failure (outcomes : List Outcome) (reason : List Char) :
    trailingFailures (outcomes ++ [.failure reason]) = trailingFailures outcomes + 1 := by
  simp [trailingFailures, List.takeWhile_cons, Outcome.isFailure]

theorem trailingFailures_success (outcomes : List Outcome) (observation : Observation) :
    trailingFailures (outcomes ++ [.success observation]) = 0 := by
  simp [trailingFailures, Outcome.isFailure]

theorem healthOf_success (policy : HealthPolicy) (outcomes : List Outcome)
    (observation : Observation) :
    healthOf policy.failureThreshold (outcomes ++ [.success observation]) = .healthy := by
  have past : ¬ policy.failureThreshold ≤ 0 := Nat.not_le.mpr policy.positive
  simp [healthOf, trailingFailures_success, past, Outcome.isFailure]

/-- A failure past the threshold makes a node unhealthy and any other failure changes nothing. -/
theorem healthOf_failure (threshold : Nat) (outcomes : List Outcome) (reason : List Char) :
    healthOf threshold (outcomes ++ [.failure reason]) =
      if threshold ≤ trailingFailures outcomes + 1 then .unhealthy
      else healthOf threshold outcomes := by
  by_cases past : threshold ≤ trailingFailures outcomes + 1
  · simp [healthOf, trailingFailures_failure, past]
  · have before : ¬ threshold ≤ trailingFailures outcomes := by omega
    simp [healthOf, trailingFailures_failure, past, before, Outcome.isFailure]

/-- How a status stands to the calls that led to it. -/
structure Follows (policy : HealthPolicy) (node : NodeId) (calls : List HealthCall)
    (status : NodeStatus) : Prop where
  failures : status.consecutiveFailures = min (trailingFailures (outcomesFor node calls)) u32Max
  health : status.health = healthOf policy.failureThreshold (outcomesFor node calls)
  served : ∀ served, status.served = some served ↔ ServedSince node calls served

theorem servedSince_concat (node : NodeId) (calls : List HealthCall) (call : HealthCall)
    (served : ServedModel) :
    ServedSince node (calls ++ [call]) served ↔
      (∃ observation seen checked, call = .record node (.success observation) seen checked ∧
        observation.served = some served) ∨
      (ServedSince node calls served ∧ call ≠ .forgetModel node ∧
        ∀ outcome ∈ call.outcomeFor node, outcome.isFailure = true) := by
  constructor
  · rintro ⟨earlier, later, observation, seen, checked, split, failed, said, kept⟩
    rcases List.eq_nil_or_concat later with rfl | ⟨front, last, rfl⟩
    · left
      have both := List.append_inj' split rfl
      exact ⟨observation, seen, checked, List.singleton_inj.mp both.2, said⟩
    · right
      have shifted : calls ++ [call] =
          (earlier ++ .record node (.success observation) seen checked :: front) ++ [last] := by
        simpa using split
      have both := List.append_inj' shifted rfl
      rcases List.singleton_inj.mp both.2 with rfl
      rw [List.concat_eq_append, outcomesFor_concat] at failed
      simp only [List.concat_eq_append, List.mem_append, List.mem_singleton, not_or] at kept
      refine ⟨⟨earlier, front, observation, seen, checked, both.1, ?_, said, kept.1⟩,
        fun same => kept.2 same.symm, ?_⟩
      · intro outcome member
        exact failed outcome (List.mem_append_left _ member)
      · intro outcome member
        exact failed outcome (List.mem_append_right _ (by simpa using member))
  · rintro (⟨observation, seen, checked, rfl, said⟩ |
      ⟨⟨earlier, later, observation, seen, checked, rfl, failed, said, kept⟩, other, last⟩)
    · exact ⟨calls, [], observation, seen, checked, rfl, by simp [outcomesFor], said, by simp⟩
    · refine ⟨earlier, later ++ [call], observation, seen, checked, by simp, ?_, said, ?_⟩
      · intro outcome member
        rw [outcomesFor_concat] at member
        rcases List.mem_append.mp member with member | member
        · exact failed outcome member
        · exact last outcome (by simpa using member)
      · simp only [List.mem_append, List.mem_singleton, not_or]
        exact ⟨kept, fun same => other same.symm⟩

theorem Follows.other {policy : HealthPolicy} {node : NodeId} {calls : List HealthCall}
    {status : NodeStatus} (follows : Follows policy node calls status) (call : HealthCall)
    (silent : call.outcomeFor node = none) (kept : call ≠ .forgetModel node) :
    Follows policy node (calls ++ [call]) status := by
  have same : outcomesFor node (calls ++ [call]) = outcomesFor node calls := by
    simp [outcomesFor_concat, silent]
  refine ⟨by rw [same]; exact follows.failures, by rw [same]; exact follows.health, ?_⟩
  intro served
  rw [follows.served, servedSince_concat]
  constructor
  · intro since
    exact Or.inr ⟨since, kept, by simp [silent]⟩
  · rintro (⟨observation, seen, checked, rfl, said⟩ | ⟨since, _, _⟩)
    · simp [HealthCall.outcomeFor] at silent
    · exact since

theorem Follows.success {policy : HealthPolicy} {node : NodeId} {calls : List HealthCall}
    {status : NodeStatus} (observation : Observation) (seen checked : Nat) :
    Follows policy node (calls ++ [.record node (.success observation) seen checked])
      (status.apply (.success observation) policy.failureThreshold checked) := by
  have outcomes : outcomesFor node (calls ++ [.record node (.success observation) seen checked]) =
      outcomesFor node calls ++ [.success observation] := by
    simp [outcomesFor_concat, HealthCall.outcomeFor]
  refine ⟨?_, ?_, ?_⟩
  · simp [outcomes, trailingFailures_success, NodeStatus.apply]
  · rw [outcomes, healthOf_success]
    rfl
  · intro served
    rw [servedSince_concat]
    constructor
    · intro said
      exact Or.inl ⟨observation, seen, checked, rfl, said⟩
    · rintro (⟨other, _, _, same, said⟩ | ⟨_, _, failed⟩)
      · cases same
        exact said
      · simp [HealthCall.outcomeFor, Outcome.isFailure] at failed

theorem Follows.failure {policy : HealthPolicy} {node : NodeId} {calls : List HealthCall}
    {status : NodeStatus} (follows : Follows policy node calls status) (reason : List Char)
    (seen checked : Nat) :
    Follows policy node (calls ++ [.record node (.failure reason) seen checked])
      (status.apply (.failure reason) policy.failureThreshold checked) := by
  have outcomes : outcomesFor node (calls ++ [.record node (.failure reason) seen checked]) =
      outcomesFor node calls ++ [.failure reason] := by
    simp [outcomesFor_concat, HealthCall.outcomeFor]
  -- The counter stops at the largest `u32`, which no threshold exceeds.
  have counted : saturatingAdd status.consecutiveFailures 1 =
      min (trailingFailures (outcomesFor node calls) + 1) u32Max := by
    have := follows.failures
    unfold saturatingAdd
    omega
  refine ⟨?_, ?_, ?_⟩
  · rw [outcomes, trailingFailures_failure]
    exact counted
  · have reached : policy.failureThreshold ≤ saturatingAdd status.consecutiveFailures 1 ↔
        policy.failureThreshold ≤ trailingFailures (outcomesFor node calls) + 1 := by
      have := policy.fits
      omega
    rw [outcomes, healthOf_failure]
    simp only [NodeStatus.apply, reached, follows.health]
  · intro served
    rw [servedSince_concat]
    constructor
    · intro said
      have since := (follows.served served).mp said
      exact Or.inr ⟨since, by simp, by simp [HealthCall.outcomeFor, Outcome.isFailure]⟩
    · rintro (⟨observation, _, _, same, _⟩ | ⟨since, _, _⟩)
      · simp at same
      · exact (follows.served served).mpr since

theorem Follows.forgotten {policy : HealthPolicy} {node : NodeId} {calls : List HealthCall}
    {status : NodeStatus} (follows : Follows policy node calls status) :
    Follows policy node (calls ++ [.forgetModel node]) status.forgetModel := by
  have same : outcomesFor node (calls ++ [.forgetModel node]) = outcomesFor node calls := by
    simp [outcomesFor_concat, HealthCall.outcomeFor]
  refine ⟨by rw [same]; exact follows.failures, by rw [same]; exact follows.health, ?_⟩
  intro served
  have nothing : status.forgetModel.served = none := by
    cases observed : status.observed <;>
      simp [NodeStatus.forgetModel, NodeStatus.served, observed]
  rw [nothing, servedSince_concat]
  simp

theorem Follows.step {policy : HealthPolicy} {node : NodeId} {calls : List HealthCall}
    {status : NodeStatus} (follows : Follows policy node calls status) (call : HealthCall) :
    Follows policy node (calls ++ [call])
      (status.respond policy.failureThreshold node call) := by
  cases call with
  | forgetModel forgotten =>
      by_cases same : forgotten = node
      · subst same
        simpa [NodeStatus.respond] using follows.forgotten
      · simpa [NodeStatus.respond, same] using
          follows.other (.forgetModel forgotten) rfl (by simp [same])
  | record recorded outcome seen checked =>
      by_cases same : recorded = node
      · subst same
        cases outcome with
        | success observation =>
            simpa [NodeStatus.respond] using Follows.success observation seen checked
        | failure reason => simpa [NodeStatus.respond] using follows.failure reason seen checked
      · simpa [NodeStatus.respond, same] using
          follows.other (.record recorded outcome seen checked)
            (by simp [HealthCall.outcomeFor, same]) (by simp)

theorem follows_run (policy : HealthPolicy) (node : NodeId) (calls : List HealthCall) :
    Follows policy node calls (calls.foldl
      (fun status call => status.respond policy.failureThreshold node call) .default) := by
  induction calls using List.reverseRecOn with
  | nil =>
      have past : ¬ policy.failureThreshold ≤ 0 := Nat.not_le.mpr policy.positive
      refine ⟨by simp [outcomesFor, trailingFailures, NodeStatus.default], ?_, ?_⟩
      · simp [outcomesFor, healthOf, trailingFailures, past, NodeStatus.default]
      · intro served
        simp [NodeStatus.default, NodeStatus.served, ServedSince]
  | append_singleton calls call ih =>
      rw [List.foldl_append]
      exact ih.step call

theorem health_agrees_with_history [Lowercase] (topology : Topology) (policy : HealthPolicy)
    (calls : List HealthCall) (node : Node) (configured : node ∈ topology.nodes) :
    (((HealthBook.new topology policy).performAll calls).status node.id).health =
        healthOf policy.failureThreshold (outcomesFor node.id calls) ∧
    ∀ deployment : Deployment, deployment.node = node.id →
      (((HealthBook.new topology policy).performAll calls).availability node deployment =
          .available ↔
        node.enabled = true ∧
        (((HealthBook.new topology policy).performAll calls).status node.id).health = .healthy ∧
        ∃ earlier later observation served seen checked,
          calls = earlier ++ .record node.id (.success observation) seen checked :: later ∧
          (∀ outcome ∈ outcomesFor node.id later, outcome.isFailure = true) ∧
          observation.served = some served ∧
          sameName served.id deployment.remoteModel = true ∧
          .forgetModel node.id ∉ later) := by
  have follows := follows_run policy node.id calls
  have current : ((HealthBook.new topology policy).performAll calls).status node.id =
      calls.foldl (fun status call => status.respond policy.failureThreshold node.id call)
        .default := by
    rw [HealthBook.status, (performAll_nodes topology policy calls node.id).2,
      topology.node_of_mem configured]
    rfl
  refine ⟨by rw [current]; exact follows.health, fun deployment _ => ?_⟩
  rw [HealthBook.availability, current, availability_eq_available]
  constructor
  · rintro ⟨enabled, healthy, served, said, same⟩
    rcases (follows.served served).mp said with
      ⟨earlier, later, observation, seen, checked, split, failed, saw, kept⟩
    exact ⟨enabled, healthy, earlier, later, observation, served, seen, checked, split, failed, saw,
      same, kept⟩
  · rintro ⟨enabled, healthy, earlier, later, observation, served, seen, checked, split, failed,
      saw, same, kept⟩
    refine ⟨enabled, healthy, served, ?_, same⟩
    exact (follows.served served).mpr
      ⟨earlier, later, observation, seen, checked, split, failed, saw, kept⟩

section Sample

attribute [local instance] asciiLowercase

def probedNode : Node := ⟨['a'], true⟩

def probedDeployment : Deployment := ⟨DeploymentId.of ['a'] ['Q', 'w', 'e', 'n'], ['a'],
  ['Q', 'w', 'e', 'n']⟩

/-- One node with one deployment, and no route yet. -/
def probedTopology : Topology where
  nodes := [probedNode]
  deployments := [probedDeployment]
  routes := []
  defaultRoute := none
  nodeIds := by decide
  deploymentIds := by decide
  routeNames := by decide
  hosted := by decide
  listed := by decide
  once := by decide
  allowed := by decide
  unreserved := by decide
  default := by decide

def servingProbe : Observation :=
  { served := some ⟨['q', 'w', 'e', 'n'], 4096⟩, features := .none, maxConcurrentRequests := 1,
    version := [] }

/-- A probe that succeeds and one that is lost. -/
def probedCalls : List HealthCall :=
  [.record ['a'] (.success servingProbe) 1 2, .record ['a'] (.failure ['x']) 3 4]

/-- One lost probe of the two that the policy allows moves no traffic. -/
theorem health_agrees_after_lost_probe :
    probedNode ∈ probedTopology.nodes ∧
    ((HealthBook.new probedTopology ⟨2, by decide, by decide⟩).performAll probedCalls).availability
      probedNode probedDeployment = .available := by
  have agrees := health_agrees_with_history probedTopology ⟨2, by decide, by decide⟩ probedCalls
    probedNode (by decide)
  refine ⟨by decide, (agrees.2 probedDeployment rfl).mpr ⟨rfl, agrees.1.trans (by decide), ?_⟩⟩
  exact ⟨[], [.record ['a'] (.failure ['x']) 3 4], servingProbe, ⟨['q', 'w', 'e', 'n'], 4096⟩, 1, 2,
    rfl, by decide, rfl, by decide, by decide⟩

end Sample

end Lightweight.Router
