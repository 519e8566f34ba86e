import Mathlib.Data.List.Sort
import Mathlib.Data.List.Destutter
import Mathlib.Data.List.Rotate
import Lightweight.Router.Capability

/-! Choosing where a request goes (`lightweight-router/src/select.rs`, `load.rs`, and `filter` of
`capability.rs`): eligibility first, then what the request needs, then the route's policy. The
selector's cursors and in-flight counts are passed along. -/

namespace Lightweight.Router

open Lightweight.Catalog

structure Candidate where
  deployment : DeploymentId
  node : NodeId
  remoteModel : List Char
  position : Nat
deriving DecidableEq, Repr

structure Eligible where
  route : RouteName
  candidates : List Candidate
  skipped : List (DeploymentId × UnavailableReason)
  unfit : List (DeploymentId × List CapabilityGap)
  routeSize : Nat
deriving DecidableEq, Repr

inductive Selection where
  | priority
  | roundRobin (cursor selectedIndex : Nat)
  | leastBusy (activeBefore : Nat) (concurrencyLimit : Option Nat) (tied : Bool)
  | sessionAffinity
deriving DecidableEq, Repr

inductive Reassignment where
  | stickyUnhealthy
  | stickyUnavailable
  | stickyCapabilityMismatch
  | stickyContextOverflow
  | stickyFailed
deriving DecidableEq, Repr

inductive Sticky where
  | hit
  | broken (reason : Reassignment)
deriving DecidableEq, Repr

/-- One in-flight attempt, and the deployment it is counted under. -/
structure Lease where
  counter : Option DeploymentId
deriving DecidableEq, Repr

structure Plan where
  route : RouteName
  policy : RoutePolicy
  candidates : List Candidate
  skipped : List (DeploymentId × UnavailableReason)
  unfit : List (DeploymentId × List CapabilityGap)
  selection : Selection
  reservation : Option Lease
  sticky : Option Sticky
  routeSize : Nat
deriving DecidableEq, Repr

inductive RoutingFailure where
  | unknownRoute (requested : List Char)
  | noDefaultRoute
  | routeUnavailable (route : RouteName)
  | capabilityMismatch (route : RouteName) (unmet : List CapabilityGap)
      (unfit : List (DeploymentId × List CapabilityGap))
deriving DecidableEq, Repr

def Plan.ofEligible (eligible : Eligible) (policy : RoutePolicy) (selection : Selection) : Plan :=
  { route := eligible.route, policy, candidates := eligible.candidates,
    skipped := eligible.skipped, unfit := eligible.unfit, selection, reservation := none,
    sticky := none, routeSize := eligible.routeSize }

section Eligibility

variable [Lowercase]

/-- The loop of `eligible` over the route's deployments from `position` on. A miss of a lookup, which
the topology excludes, is not eligible. -/
def eligibleFrom (topology : Topology) (health : NodeId → Option NodeStatus) :
    Nat → List DeploymentId → List Candidate × List (DeploymentId × UnavailableReason)
  | _, [] => ([], [])
  | position, id :: rest =>
      let (candidates, skipped) := eligibleFrom topology health (position + 1) rest
      match topology.deployment id with
      | none => (candidates, skipped)
      | some deployment =>
          match topology.node deployment.node with
          | none => (candidates, skipped)
          | some node =>
              match availability node deployment ((health node.id).getD .default) with
              | .available =>
                  (⟨deployment.id, node.id, deployment.remoteModel, position⟩ :: candidates, skipped)
              | .unavailable reason => (candidates, (deployment.id, reason) :: skipped)

/-- The deployments of `route` that can take traffic now. -/
def eligible (topology : Topology) (route : Route) (health : NodeId → Option NodeStatus) :
    Except RoutingFailure Eligible :=
  let (candidates, skipped) := eligibleFrom topology health 0 route.deployments
  if candidates.isEmpty then .error (.routeUnavailable route.name)
  else .ok { route := route.name, candidates, skipped, unfit := [],
             routeSize := route.deployments.length }

end Eligibility

/-- `CapabilityGap`'s order. -/
def CapabilityGap.rank : CapabilityGap → Nat
  | .chatUnsupported => 0
  | .completionUnsupported => 1
  | .toolsUnsupported => 2
  | .toolChoiceUnsupported => 3
  | .reasoningUnsupported => 4
  | .contextTooSmall => 5
  | .unobserved => 6

/-- The loop of `filter`: the candidates kept, and the others with their gaps. -/
def splitByGaps (needs : RequestRequirements)
    (observed : DeploymentId → Option DeploymentObservation) :
    List Candidate → List Candidate × List (DeploymentId × List CapabilityGap)
  | [] => ([], [])
  | candidate :: rest =>
      let (fit, unfit) := splitByGaps needs observed rest
      let found := gaps needs (observed candidate.deployment)
      if found.isEmpty then (candidate :: fit, unfit)
      else (fit, (candidate.deployment, found) :: unfit)

/-- Keep the candidates that can serve `needs`, in the order they came. -/
def filter (eligible : Eligible) (needs : RequestRequirements)
    (observed : DeploymentId → Option DeploymentObservation) : Except RoutingFailure Eligible :=
  let (fit, unfit) := splitByGaps needs observed eligible.candidates
  let kept := { eligible with candidates := fit, unfit := eligible.unfit ++ unfit }
  if !fit.isEmpty then .ok kept
  else if kept.skipped.any fun (deployment, _) =>
      match observed deployment with
      | some seen => (gaps needs (some seen)).isEmpty
      | none => false then
    .error (.routeUnavailable kept.route)
  else
    let seen := kept.unfit.flatMap Prod.snd
    let unmet := (seen.insertionSort fun a b => a.rank ≤ b.rank).destutter (· ≠ ·)
    .error (.capabilityMismatch kept.route unmet kept.unfit)

/-- Priority: configured order, first eligible first. -/
def orderPriority (eligible : Eligible) : Plan :=
  .ofEligible eligible .priority .priority

/-- Round-robin: the eligible ring, starting at `cursor % len`. -/
def orderRoundRobin (eligible : Eligible) (cursor : Nat) : Plan :=
  let start := cursor % max eligible.candidates.length 1
  .ofEligible { eligible with candidates := eligible.candidates.rotate start } .roundRobin
    (.roundRobin cursor start)

/-- What least-busy knows about one candidate. -/
structure Load where
  active : Nat
  limit : Option Nat
deriving DecidableEq, Repr

/-- The limit, if it can be divided by: known and positive. -/
def Load.capacity (load : Load) : Option Nat :=
  load.limit.filter fun limit => 0 < limit

/-- Known capacities before unknown ones, then the lower `active / limit`, then the fewer active. -/
def compareLoad (a b : Load) : Ordering :=
  match a.capacity, b.capacity with
  | some limitA, some limitB => compare (a.active * limitB) (b.active * limitA)
  | some _, none => .lt
  | none, some _ => .gt
  | none, none => compare a.active b.active

def busierThan (a b : Candidate × Load) : Ordering :=
  (compareLoad a.2 b.2).then (compare a.1.position b.1.position)

/-- Least-busy: lowest normalized load first, ties to configured order. -/
def orderLeastBusy (eligible : Eligible) (loads : List Load) : Plan :=
  let ranked := (eligible.candidates.zipIdx.map fun (candidate, index) =>
    (candidate, loads[index]?.getD ⟨0, none⟩)).insertionSort fun a b => busierThan a b ≠ .gt
  let (activeBefore, concurrencyLimit) := match ranked.head? with
    | some (_, load) => (load.active, load.capacity)
    | none => (0, none)
  let tied := match ranked[0]?, ranked[1]? with
    | some (_, first), some (_, second) => compareLoad first second == .eq
    | _, _ => false
  .ofEligible { eligible with candidates := ranked.map Prod.fst } .leastBusy
    (.leastBusy activeBefore concurrencyLimit tied)

/-- In-flight counts for every configured deployment. -/
structure LoadBook where
  counters : DeploymentId → Option Nat

namespace LoadBook

def new [Lowercase] (topology : Topology) : LoadBook :=
  ⟨fun id => (topology.deployment id).map fun _ => 0⟩

/-- Take a slot on `deployment` for one attempt. -/
def acquire (book : LoadBook) (deployment : DeploymentId) : Lease × LoadBook :=
  match book.counters deployment with
  | none => (⟨none⟩, book)
  | some count =>
      (⟨some deployment⟩, ⟨Function.update book.counters deployment (some (count + 1))⟩)

/-- Dropping a lease gives the slot back. -/
def release (book : LoadBook) (lease : Lease) : LoadBook :=
  match lease.counter with
  | none => book
  | some deployment =>
      ⟨Function.update book.counters deployment ((book.counters deployment).map (· - 1))⟩

def active (book : LoadBook) (deployment : DeploymentId) : Nat :=
  (book.counters deployment).getD 0

end LoadBook

/-- `cursors` is aligned with the topology's routes. -/
structure Selector where
  cursors : List Nat
  load : LoadBook

namespace Selector

def new [Lowercase] (topology : Topology) : Selector :=
  ⟨topology.routes.map fun _ => 0, .new topology⟩

def loads (selector : Selector) (candidates : List Candidate)
    (observed : DeploymentId → Option DeploymentObservation) : List Load :=
  candidates.map fun candidate =>
    { active := selector.load.active candidate.deployment
      limit := (observed candidate.deployment).map DeploymentObservation.maxConcurrentRequests }

/-- A slot on the plan's first choice. -/
def reserve (selector : Selector) (plan : Plan) : Plan × Selector :=
  match plan.candidates.head? with
  | none => ({ plan with reservation := none }, selector)
  | some first =>
      let (lease, load) := selector.load.acquire first.deployment
      ({ plan with reservation := some lease }, { selector with load })

/-- The cursor of the route at `index`, a `u64`, advanced by one. -/
def advance (selector : Selector) (index cursor : Nat) : Selector :=
  { selector with cursors := selector.cursors.set index ((cursor + 1) % UInt64.size) }

end Selector

/-- Where a sticky deployment stands after both filters. -/
def stickyStanding (eligible : Eligible) (sticky : DeploymentId) : Except Reassignment Nat :=
  match eligible.candidates.findIdx? fun candidate => candidate.deployment == sticky with
  | some index => .ok index
  | none =>
      if eligible.unfit.any fun (id, _) => id == sticky then .error .stickyCapabilityMismatch
      else match eligible.skipped.find? fun (id, _) => id == sticky with
        | some (_, .nodeUnhealthy) => .error .stickyUnhealthy
        | some (_, .nodeUnknown) => .error .stickyUnhealthy
        | _ => .error .stickyUnavailable

/-- `Vec::remove` then `insert(0, ..)`: the element at `index` first, the others in their order. -/
def moveToFront (candidates : List Candidate) (index : Nat) : List Candidate :=
  candidates[index]?.toList ++ candidates.eraseIdx index

/-- The plan for an affinity hit: the sticky candidate first, then the policy's failover order. -/
def Selector.planSticky (selector : Selector) (policy : RoutePolicy) (state : Option Nat)
    (eligible : Eligible) (index : Nat)
    (observed : DeploymentId → Option DeploymentObservation) : Plan × Selector :=
  let plan := match policy, state with
    | .roundRobin, some _ =>
        Plan.ofEligible { eligible with candidates := eligible.candidates.rotate index } .roundRobin
          .sessionAffinity
    | .leastBusy, some _ =>
        let others := eligible.candidates.eraseIdx index
        let rest := orderLeastBusy { eligible with candidates := others }
          (selector.loads others observed)
        { rest with
          candidates := eligible.candidates[index]?.toList ++ rest.candidates
          selection := .sessionAffinity }
    | policy, _ =>
        Plan.ofEligible { eligible with candidates := moveToFront eligible.candidates index } policy
          .sessionAffinity
  selector.reserve { plan with sticky := some .hit }

/-- The policy's own turn: a cursor drawn, or loads compared, or neither. -/
def Selector.takeTurn (selector : Selector) (policy : RoutePolicy) (state : Option (Nat × Nat))
    (eligible : Eligible) (observed : DeploymentId → Option DeploymentObservation) :
    Plan × Selector :=
  match policy, state with
  | .roundRobin, some (index, cursor) =>
      (orderRoundRobin eligible cursor, selector.advance index cursor)
  | .leastBusy, some _ =>
      (orderLeastBusy eligible (selector.loads eligible.candidates observed), selector)
  | _, _ => (orderPriority eligible, selector)

/-- Plan one request: eligibility, then what this request needs, then the session's preference, then
the route's policy, then a slot reserved on the first choice. -/
def Selector.planWithAffinity [Lowercase] (selector : Selector) (topology : Topology)
    (route : Route) (health : NodeId → Option NodeStatus)
    (observed : DeploymentId → Option DeploymentObservation) (needs : RequestRequirements)
    (sticky : Option DeploymentId) : Except RoutingFailure Plan × Selector :=
  match (eligible topology route health).bind fun found => filter found needs observed with
  | .error failure => (.error failure, selector)
  | .ok found =>
      let state : Option (Nat × Nat) :=
        (topology.routes.findIdx? fun other => other.name == route.name).bind fun index =>
          selector.cursors[index]?.map fun cursor => (index, cursor)
      let standing := sticky.map (stickyStanding found)
      match standing with
      | some (.ok index) =>
          let (plan, after) :=
            selector.planSticky route.policy (state.map Prod.fst) found index observed
          (.ok plan, after)
      | _ =>
          let broken := match standing with
            | some (.error reason) => some (.broken reason)
            | _ => none
          let (plan, after) := selector.takeTurn route.policy state found observed
          let (plan, after) := after.reserve plan
          (.ok { plan with sticky := broken }, after)

end Lightweight.Router
