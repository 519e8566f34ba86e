import Mathlib.Logic.Function.Basic
import Lightweight.Router.Domain

/-! What the router currently believes about each node (`lightweight-router/src/health.rs`). The maps
behind the two locks are functions from ids: nothing reads them in order. -/

namespace Lightweight.Router

open Lightweight.Catalog

structure ServedModel where
  id : List Char
  contextLength : Nat
deriving DecidableEq, Repr

/-- What one successful probe learned. -/
structure Observation where
  served : Option ServedModel
  features : FeatureSet
  maxConcurrentRequests : Nat
  version : List Char
deriving DecidableEq, Repr

structure NodeStatus where
  health : NodeHealth
  consecutiveFailures : Nat
  lastChecked : Option Nat
  lastSeen : Option Nat
  lastError : Option (List Char)
  observed : Option Observation
deriving DecidableEq, Repr

def NodeStatus.default : NodeStatus :=
  { health := .unknown, consecutiveFailures := 0, lastChecked := none, lastSeen := none,
    lastError := none, observed := none }

def NodeStatus.served (status : NodeStatus) : Option ServedModel :=
  status.observed.bind Observation.served

inductive Outcome where
  | success (observation : Observation)
  | failure (reason : List Char)
deriving DecidableEq, Repr

def Outcome.isFailure : Outcome → Bool
  | .success _ => false
  | .failure _ => true

/-- Apply one outcome to one status. -/
def NodeStatus.apply (status : NodeStatus) (outcome : Outcome) (threshold now : Nat) : NodeStatus :=
  match outcome with
  | .success observation =>
      { health := .healthy, consecutiveFailures := 0, lastChecked := some now,
        lastSeen := some now, lastError := none, observed := some observation }
  | .failure reason =>
      let failures := saturatingAdd status.consecutiveFailures 1
      { status with
        lastChecked := some now
        consecutiveFailures := failures
        lastError := some reason
        health := if threshold ≤ failures then .unhealthy else status.health }

def NodeStatus.forgetModel (status : NodeStatus) : NodeStatus :=
  { status with observed := status.observed.map fun observed => { observed with served := none } }

/-- What was last observed about one deployment. -/
structure DeploymentObservation where
  capabilities : FeatureSet
  contextLength : Nat
  maxConcurrentRequests : Nat
  observedAt : Nat
deriving DecidableEq, Repr

/-- `failure_threshold` as the validator accepts it, a `u32` that is not zero. -/
structure HealthPolicy where
  failureThreshold : Nat
  positive : 1 ≤ failureThreshold
  fits : failureThreshold ≤ u32Max

structure HealthBook where
  threshold : Nat
  nodes : NodeId → Option NodeStatus
  deploymentsOf : NodeId → List (DeploymentId × List Char)
  deployments : DeploymentId → Option DeploymentObservation

/-- Each node's deployments and the model each one names. -/
def Topology.deploymentsOn [Lowercase] (topology : Topology) (node : NodeId) :
    List (DeploymentId × List Char) :=
  (topology.deployments.filter fun deployment => deployment.node == node).map
    fun deployment => (deployment.id, deployment.remoteModel)

namespace HealthBook

variable [Lowercase]

def new (topology : Topology) (policy : HealthPolicy) : HealthBook where
  threshold := policy.failureThreshold
  nodes id := (topology.node id).map fun _ => .default
  deploymentsOf := topology.deploymentsOn
  deployments _ := none

/-- File a successful probe under the deployments on `node` whose model is the one served. -/
def observeDeployments (book : HealthBook) (node : NodeId) (observation : Observation) (now : Nat) :
    HealthBook :=
  match observation.served with
  | none => book
  | some served =>
      let described := (book.deploymentsOf node).filter fun entry => sameName entry.2 served.id
      { book with
        deployments := fun id =>
          if id ∈ described.map Prod.fst then
            some { capabilities := observation.features, contextLength := served.contextLength,
                   maxConcurrentRequests := observation.maxConcurrentRequests, observedAt := now }
          else book.deployments id }

def updateNode (book : HealthBook) (node : NodeId) (change : NodeStatus → NodeStatus) :
    HealthBook :=
  { book with nodes := Function.update book.nodes node ((book.nodes node).map change) }

/-- The first half of `record`, under the lock of the observations. -/
def recordObservations (book : HealthBook) (node : NodeId) (outcome : Outcome) (now : Nat) :
    HealthBook :=
  match outcome with
  | .success observation => book.observeDeployments node observation now
  | .failure _ => book

/-- The second half of `record`, under the lock of the statuses. -/
def recordStatus (book : HealthBook) (node : NodeId) (outcome : Outcome) (now : Nat) : HealthBook :=
  book.updateNode node fun status => status.apply outcome book.threshold now

def record (book : HealthBook) (node : NodeId) (outcome : Outcome) (seen checked : Nat) :
    HealthBook :=
  (book.recordObservations node outcome seen).recordStatus node outcome checked

def forgetModel (book : HealthBook) (node : NodeId) : HealthBook :=
  book.updateNode node NodeStatus.forgetModel

def status (book : HealthBook) (node : NodeId) : NodeStatus :=
  (book.nodes node).getD .default

end HealthBook

/-- Whether a deployment on `node`, whose status is `status`, can take traffic. -/
def availability [Lowercase] (node : Node) (deployment : Deployment) (status : NodeStatus) :
    DeploymentHealth :=
  if !node.enabled then .unavailable .nodeDisabled
  else match status.health with
    | .unknown => .unavailable .nodeUnknown
    | .unhealthy => .unavailable .nodeUnhealthy
    | .healthy =>
        match status.served with
        | some served =>
            if sameName served.id deployment.remoteModel then .available
            else .unavailable .modelNotServed
        | none => .unavailable .modelNotServed

def HealthBook.availability [Lowercase] (book : HealthBook) (node : Node) (deployment : Deployment) :
    DeploymentHealth :=
  Router.availability node deployment (book.status node.id)

theorem availability_eq_available [Lowercase] {node : Node} {deployment : Deployment}
    {status : NodeStatus} :
    availability node deployment status = .available ↔
      node.enabled = true ∧ status.health = .healthy ∧
        ∃ served, status.served = some served ∧ sameName served.id deployment.remoteModel = true := by
  unfold availability
  cases node.enabled with
  | false => simp
  | true =>
      cases status.health with
      | unknown => simp
      | unhealthy => simp
      | healthy =>
          cases status.served with
          | none => simp
          | some served => by_cases same : sameName served.id deployment.remoteModel <;> simp [same]

end Lightweight.Router
