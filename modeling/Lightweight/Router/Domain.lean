import Lightweight.Catalog.Alias

/-! The router's vocabulary (`lightweight-router/src/domain.rs`): nodes, the deployments on them,
the routes over the deployments, and the topology that holds them together. -/

namespace Lightweight.Router

open Lightweight.Catalog

abbrev NodeId := List Char

abbrev DeploymentId := List Char

abbrev RouteName := List Char

/-- The largest `u32`. -/
def u32Max : Nat := 4294967295

/-- `u32::saturating_add`. -/
def saturatingAdd (a b : Nat) : Nat := min (a + b) u32Max

def DeploymentId.of (node : NodeId) (remoteModel : List Char) : DeploymentId :=
  node ++ '/' :: remoteModel

def RouteName.matches [Lowercase] (name : RouteName) (requested : List Char) : Bool :=
  sameName name requested

structure Node where
  id : NodeId
  enabled : Bool
deriving DecidableEq, Repr

structure Deployment where
  id : DeploymentId
  node : NodeId
  remoteModel : List Char
deriving DecidableEq, Repr

inductive RoutePolicy where
  | priority
  | roundRobin
  | leastBusy
deriving DecidableEq, Repr

structure RoutePlacement where
  minReady : Nat
  warmStandby : Nat
  allowed : List DeploymentId
deriving DecidableEq, Repr

def RoutePlacement.target (placement : RoutePlacement) : Nat :=
  saturatingAdd placement.minReady placement.warmStandby

structure Route where
  name : RouteName
  policy : RoutePolicy
  deployments : List DeploymentId
  placement : Option RoutePlacement
deriving DecidableEq, Repr

inductive NodeHealth where
  | unknown
  | healthy
  | unhealthy
deriving DecidableEq, Repr

inductive UnavailableReason where
  | nodeDisabled
  | nodeUnknown
  | nodeUnhealthy
  | modelNotServed
deriving DecidableEq, Repr

inductive CapabilityGap where
  | chatUnsupported
  | completionUnsupported
  | toolsUnsupported
  | toolChoiceUnsupported
  | reasoningUnsupported
  | contextTooSmall
  | unobserved
deriving DecidableEq, Repr

inductive DeploymentHealth where
  | available
  | unavailable (reason : UnavailableReason)
deriving DecidableEq, Repr

/-- The node's own `features` object. -/
structure FeatureSet where
  streaming : Bool
  sseDone : Bool
  usageChunk : Bool
  chatCompletions : Bool
  completions : Bool
  tools : Bool
  toolCallDeltas : Bool
  toolChoice : Bool
  parallelToolCalls : Bool
  reasoningContent : Bool
deriving DecidableEq, Repr

namespace FeatureSet

/-- What two deployments both support. -/
def intersect (a b : FeatureSet) : FeatureSet where
  streaming := a.streaming && b.streaming
  sseDone := a.sseDone && b.sseDone
  usageChunk := a.usageChunk && b.usageChunk
  chatCompletions := a.chatCompletions && b.chatCompletions
  completions := a.completions && b.completions
  tools := a.tools && b.tools
  toolCallDeltas := a.toolCallDeltas && b.toolCallDeltas
  toolChoice := a.toolChoice && b.toolChoice
  parallelToolCalls := a.parallelToolCalls && b.parallelToolCalls
  reasoningContent := a.reasoningContent && b.reasoningContent

def none : FeatureSet :=
  ⟨false, false, false, false, false, false, false, false, false, false⟩

end FeatureSet

/-- Everything the operator configured. The fields after `defaultRoute` are what the validator
refuses a configuration for. -/
structure Topology [Lowercase] where
  nodes : List Node
  deployments : List Deployment
  routes : List Route
  defaultRoute : Option Nat
  nodeIds : (nodes.map Node.id).Nodup
  deploymentIds : (deployments.map Deployment.id).Nodup
  routeNames : routes.Pairwise fun a b => sameName a.name b.name = false
  hosted : ∀ deployment ∈ deployments, deployment.node ∈ nodes.map Node.id
  listed : ∀ route ∈ routes, ∀ id ∈ route.deployments, id ∈ deployments.map Deployment.id
  once : ∀ route ∈ routes, route.deployments.Nodup
  allowed : ∀ route ∈ routes, ∀ placement ∈ route.placement,
    placement.allowed.Sublist route.deployments
  unreserved : ∀ route ∈ routes, isReserved route.name = false
  default : ∀ index ∈ defaultRoute, index < routes.length

/-- A search by a key that no two elements share finds the element with it. -/
theorem find_by_key {α κ : Type} [BEq κ] [LawfulBEq κ] {key : α → κ} {xs : List α}
    (unique : (xs.map key).Nodup) {x : α} (member : x ∈ xs) :
    xs.find? (fun y => key y == key x) = some x := by
  induction xs with
  | nil => cases member
  | cons y ys ih =>
      rw [List.map_cons, List.nodup_cons] at unique
      rcases List.mem_cons.mp member with rfl | member
      · simp
      · have other : key y ≠ key x := by
          intro same
          exact unique.1 (same ▸ List.mem_map_of_mem member)
        rw [List.find?_cons_of_neg (by simpa using other)]
        exact ih unique.2 member

namespace Topology

variable [Lowercase]

def node (topology : Topology) (id : NodeId) : Option Node :=
  topology.nodes.find? fun node => node.id == id

def deployment (topology : Topology) (id : DeploymentId) : Option Deployment :=
  topology.deployments.find? fun deployment => deployment.id == id

def route (topology : Topology) (name : RouteName) : Option Route :=
  topology.routes.find? fun route => route.name == name

theorem node_of_mem (topology : Topology) {node : Node} (member : node ∈ topology.nodes) :
    topology.node node.id = some node :=
  find_by_key topology.nodeIds member

theorem deployment_of_mem (topology : Topology) {deployment : Deployment}
    (member : deployment ∈ topology.deployments) :
    topology.deployment deployment.id = some deployment :=
  find_by_key topology.deploymentIds member

end Topology

end Lightweight.Router
