import Std.Data.ExtTreeMap
import Mathlib.Algebra.Group.Nat.Defs
import Mathlib.Data.List.Lex
import Lightweight.Router.Health

/-! Which deployments should be loaded, decided ahead of demand
(`lightweight-router/src/placement.rs`): the plan of one pass, and the book of loads in progress. -/

namespace Lightweight.Router

open Lightweight.Catalog

/-- Where one deployment stands, as placement sees it. -/
inductive DeploymentState where
  | ready
  | loading
  | empty
  | occupied
  | unavailable (reason : UnavailableReason)
deriving DecidableEq, Repr

inductive FailureReason where
  | modelNotInstalled
  | loadRejected
  | nodeUnhealthy
  | nodeBusy
  | admissionFailed
  | loadTimeout
  | modelFailed
deriving DecidableEq, Repr

/-- One load the plan asks for. -/
structure Action where
  route : RouteName
  deployment : DeploymentId
  node : NodeId
  model : List Char
deriving DecidableEq, Repr

/-- One deployment of a route: its node, its state and whether placement may load it. -/
structure Placed where
  deployment : DeploymentId
  node : NodeId
  state : DeploymentState
  allowed : Bool
deriving DecidableEq, Repr

/-- One route measured against its target. -/
structure Assessment where
  route : RouteName
  minReady : Nat
  warmStandby : Nat
  deployments : List Placed
deriving DecidableEq, Repr

namespace Assessment

def target (assessment : Assessment) : Nat :=
  saturatingAdd assessment.minReady assessment.warmStandby

def count (assessment : Assessment) (state : DeploymentState) : Nat :=
  min (assessment.deployments.filter fun placed => placed.state == state).length u32Max

def ready (assessment : Assessment) : Nat :=
  assessment.count .ready

def loading (assessment : Assessment) : Nat :=
  assessment.count .loading

/-- Loads still wanted once those in progress finish. -/
def shortfall (assessment : Assessment) : Nat :=
  assessment.target - assessment.ready - assessment.loading

end Assessment

section Planning

variable [Lowercase]

def stateOf (node : Node) (deployment : Deployment) (status : NodeStatus)
    (loading : List DeploymentId) : DeploymentState :=
  match availability node deployment status with
  | .available => .ready
  | .unavailable reason =>
      if loading.contains deployment.id then .loading
      else match reason with
        | .modelNotServed =>
            if status.health = .healthy ∧ status.served = none then .empty else .occupied
        | reason => .unavailable reason

def placedOf (topology : Topology) (placement : RoutePlacement)
    (health : NodeId → Option NodeStatus) (loading : List DeploymentId) (id : DeploymentId) :
    Option Placed :=
  (topology.deployment id).bind fun deployment =>
    (topology.node deployment.node).map fun node =>
      { deployment := id, node := node.id
        state := stateOf node deployment ((health node.id).getD .default) loading
        allowed := placement.allowed.contains id }

/-- Measure one route against its target. -/
def assess (topology : Topology) (route : Route) (health : NodeId → Option NodeStatus)
    (loading : List DeploymentId) : Option Assessment :=
  route.placement.map fun placement =>
    { route := route.name, minReady := placement.minReady, warmStandby := placement.warmStandby
      deployments := route.deployments.filterMap (placedOf topology placement health loading) }

/-- The inner loop of `plan`: the loads of one route, and the nodes claimed after it. -/
def planRoute (topology : Topology) (route : RouteName) (backingOff : DeploymentId → Bool) :
    Nat → List NodeId → List Placed → List Action × List NodeId
  | _, claimed, [] => ([], claimed)
  | 0, claimed, _ => ([], claimed)
  | wanted + 1, claimed, placed :: rest =>
      if !placed.allowed || placed.state != .empty || backingOff placed.deployment ||
          claimed.contains placed.node then
        planRoute topology route backingOff (wanted + 1) claimed rest
      else match topology.deployment placed.deployment with
        | none => planRoute topology route backingOff (wanted + 1) claimed rest
        | some deployment =>
            let (actions, claimed) :=
              planRoute topology route backingOff wanted (placed.node :: claimed) rest
            (⟨route, placed.deployment, placed.node, deployment.remoteModel⟩ :: actions, claimed)

/-- The outer loop of `plan`, over the routes in configured order. -/
def planRoutes (topology : Topology) (health : NodeId → Option NodeStatus)
    (loading : List DeploymentId) (backingOff : DeploymentId → Bool) :
    List NodeId → List Route → List Action
  | _, [] => []
  | claimed, route :: rest =>
      match assess topology route health loading with
      | none => planRoutes topology health loading backingOff claimed rest
      | some assessment =>
          let (actions, claimed) := planRoute topology route.name backingOff assessment.shortfall
            claimed assessment.deployments
          actions ++ planRoutes topology health loading backingOff claimed rest

/-- A node with a load in progress takes no second one. -/
def claimedBy (topology : Topology) (loading : List DeploymentId) : List NodeId :=
  loading.filterMap fun id => (topology.deployment id).map Deployment.node

/-- The loads to start now, for every route with a target. -/
def plan (topology : Topology) (health : NodeId → Option NodeStatus)
    (loading : List DeploymentId) (backingOff : DeploymentId → Bool) : List Action :=
  planRoutes topology health loading backingOff (claimedBy topology loading) topology.routes

end Planning

inductive LoadResult where
  | succeeded
  | failed
  | alreadyLoaded
deriving DecidableEq, Repr

/-- What happened to the last placement action on a deployment. -/
structure LastAction where
  result : LoadResult
  reason : Option FailureReason
  code : Option (List Char)
  finished : Nat
  durationMs : Nat
deriving DecidableEq, Repr

structure PlacementRecord where
  loadingSince : Option Nat
  last : Option LastAction
  failures : Nat
  retryAt : Option Nat
deriving DecidableEq, Repr

def PlacementRecord.default : PlacementRecord :=
  { loadingSince := none, last := none, failures := 0, retryAt := none }

structure PlacementPolicy where
  backoff : Nat
  backoffMax : Nat
deriving DecidableEq, Repr

/-- The wait after the `failures`-th consecutive failure. -/
def PlacementPolicy.backoffAfter (policy : PlacementPolicy) (failures : Nat) : Nat :=
  min (policy.backoff * 2 ^ min (failures - 1) 20) policy.backoffMax

/-- The controller's memory: loads in progress, the last result, and backoff. -/
structure PlacementBook where
  policy : PlacementPolicy
  records : Std.ExtTreeMap DeploymentId PlacementRecord compare

namespace PlacementBook

def new (policy : PlacementPolicy) : PlacementBook :=
  ⟨policy, ∅⟩

/-- Deployments with a load in progress. -/
def loading (book : PlacementBook) : List DeploymentId :=
  (book.records.toList.filter fun entry => entry.2.loadingSince.isSome).map Prod.fst

def backingOff (book : PlacementBook) (now : Nat) (id : DeploymentId) : Bool :=
  match book.records[id]?.bind PlacementRecord.retryAt with
  | some retry => now < retry
  | none => false

def entry (book : PlacementBook) (id : DeploymentId) : PlacementRecord :=
  book.records[id]?.getD .default

def put (book : PlacementBook) (id : DeploymentId) (record : PlacementRecord) : PlacementBook :=
  { book with records := book.records.insert id record }

/-- Mark a load started. `false` if one already is. -/
def begin (book : PlacementBook) (id : DeploymentId) (now : Nat) : Bool × PlacementBook :=
  let record := book.entry id
  if record.loadingSince.isSome then (false, book.put id record)
  else (true, book.put id { record with loadingSince := some now })

/-- Record a load that ended in readiness. -/
def succeeded (book : PlacementBook) (id : DeploymentId) (last : LastAction) : PlacementBook :=
  book.put id { loadingSince := none, failures := 0, retryAt := none, last := some last }

/-- Record a failure and schedule the next attempt. -/
def failed (book : PlacementBook) (id : DeploymentId) (last : LastAction) (now : Nat) :
    PlacementBook :=
  let failures := saturatingAdd (book.entry id).failures 1
  book.put id { loadingSince := none, failures, last := some last
                retryAt := some (now + book.policy.backoffAfter failures) }

/-- Forget a load that was abandoned. -/
def abandon (book : PlacementBook) (id : DeploymentId) : PlacementBook :=
  match book.records[id]? with
  | none => book
  | some record => book.put id { record with loadingSince := none }

end PlacementBook

end Lightweight.Router
