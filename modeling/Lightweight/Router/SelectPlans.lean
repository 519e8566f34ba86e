import Mathlib.Data.List.Perm.Basic
import Lightweight.Router.Select

/-! What a plan is made of: the candidates are the deployments that survive both filters, whatever
the policy and the session, and nothing of the route is lost on the way. -/

namespace Lightweight.Router

open Lightweight.Catalog

section Eligibility

variable [Lowercase]

/-- Whether the deployment called `id` can take traffic now. -/
def availableNow (topology : Topology) (health : NodeId → Option NodeStatus) (id : DeploymentId) :
    Bool :=
  match topology.deployment id with
  | none => false
  | some deployment =>
      match topology.node deployment.node with
      | none => false
      | some node =>
          availability node deployment ((health node.id).getD .default) = .available

/-- The deployment called `id` is available and free of gaps for `needs`. -/
def CanServe (topology : Topology) (health : NodeId → Option NodeStatus)
    (observed : DeploymentId → Option DeploymentObservation) (needs : RequestRequirements)
    (id : DeploymentId) : Prop :=
  ∃ deployment ∈ topology.deployments, ∃ node ∈ topology.nodes,
    deployment.id = id ∧ node.id = deployment.node ∧
    availability node deployment ((health node.id).getD .default) = .available ∧
    gaps needs (observed id) = []

theorem deployment_found {topology : Topology} {id : DeploymentId}
    (listed : id ∈ topology.deployments.map Deployment.id) :
    ∃ deployment ∈ topology.deployments, ∃ node ∈ topology.nodes,
      deployment.id = id ∧ node.id = deployment.node ∧
      topology.deployment id = some deployment ∧ topology.node deployment.node = some node := by
  rcases List.mem_map.mp listed with ⟨deployment, configured, rfl⟩
  rcases List.mem_map.mp (topology.hosted deployment configured) with ⟨node, present, same⟩
  refine ⟨deployment, configured, node, present, rfl, same, ?_, ?_⟩
  · exact topology.deployment_of_mem configured
  · rw [← same]
    exact topology.node_of_mem present

theorem canServe_iff {topology : Topology} {health : NodeId → Option NodeStatus}
    {observed : DeploymentId → Option DeploymentObservation} {needs : RequestRequirements}
    {id : DeploymentId} (listed : id ∈ topology.deployments.map Deployment.id) :
    CanServe topology health observed needs id ↔
      availableNow topology health id = true ∧ gaps needs (observed id) = [] := by
  rcases deployment_found listed with ⟨deployment, configured, node, present, named, on, found, at'⟩
  have decided : availableNow topology health id = true ↔
      availability node deployment ((health node.id).getD .default) = .available := by
    simp [availableNow, found, at']
  rw [decided]
  constructor
  · rintro ⟨other, otherConfigured, host, hostPresent, rfl, hosts, available, fit⟩
    have sameDeployment : other = deployment := by
      have again := topology.deployment_of_mem otherConfigured
      rw [found] at again
      exact (Option.some.inj again).symm
    subst sameDeployment
    have sameNode : host = node := by
      have again := topology.node_of_mem hostPresent
      rw [hosts, at'] at again
      exact (Option.some.inj again).symm
    subst sameNode
    exact ⟨available, fit⟩
  · rintro ⟨available, fit⟩
    exact ⟨deployment, configured, node, present, named, on, available, fit⟩

/-- The loop of `eligible` splits the route by availability, in configured order. -/
theorem eligibleFrom_spec (topology : Topology) (health : NodeId → Option NodeStatus)
    (ids : List DeploymentId) (position : Nat)
    (listed : ∀ id ∈ ids, id ∈ topology.deployments.map Deployment.id) :
    (eligibleFrom topology health position ids).1.map Candidate.deployment =
        ids.filter (availableNow topology health) ∧
    (eligibleFrom topology health position ids).2.map Prod.fst =
        ids.filter fun id => !availableNow topology health id := by
  induction ids generalizing position with
  | nil => exact ⟨rfl, rfl⟩
  | cons id rest ih =>
      have tail := ih (position + 1) fun other member => listed other (List.mem_cons_of_mem _ member)
      rcases deployment_found (listed id List.mem_cons_self) with
        ⟨deployment, configured, node, present, named, on, found, at'⟩
      cases verdict : availability node deployment ((health node.id).getD .default) with
      | available =>
          have up : availableNow topology health id = true := by
            simp [availableNow, found, at', verdict]
          simp [eligibleFrom, found, at', verdict, up, tail, named]
      | unavailable reason =>
          have down : availableNow topology health id = false := by
            simp [availableNow, found, at', verdict]
          simp [eligibleFrom, found, at', verdict, down, tail, named]

end Eligibility

theorem splitByGaps_spec (needs : RequestRequirements)
    (observed : DeploymentId → Option DeploymentObservation) (candidates : List Candidate) :
    (splitByGaps needs observed candidates).1.map Candidate.deployment =
        (candidates.map Candidate.deployment).filter
          (fun id => (gaps needs (observed id)).isEmpty) ∧
    (splitByGaps needs observed candidates).2.map Prod.fst =
        (candidates.map Candidate.deployment).filter
          fun id => !(gaps needs (observed id)).isEmpty := by
  induction candidates with
  | nil => exact ⟨rfl, rfl⟩
  | cons candidate rest ih =>
      by_cases fits : (gaps needs (observed candidate.deployment)).isEmpty = true
      · simp [splitByGaps, fits, ih]
      · simp [splitByGaps, fits, ih]

/-- What is left of a route after both filters. -/
theorem filtered_spec [Lowercase] {topology : Topology} {route : Route}
    {health : NodeId → Option NodeStatus}
    {observed : DeploymentId → Option DeploymentObservation} {needs : RequestRequirements}
    {found : Eligible} (configured : route ∈ topology.routes)
    (planned : ((eligible topology route health).bind fun found => filter found needs observed) =
      .ok found) :
    found.candidates.map Candidate.deployment =
        (route.deployments.filter (availableNow topology health)).filter
          (fun id => (gaps needs (observed id)).isEmpty) ∧
    found.unfit.map Prod.fst =
        (route.deployments.filter (availableNow topology health)).filter
          (fun id => !(gaps needs (observed id)).isEmpty) ∧
    found.skipped.map Prod.fst =
        route.deployments.filter fun id => !availableNow topology health id := by
  have parts := eligibleFrom_spec topology health route.deployments 0 (topology.listed route configured)
  simp only [eligible] at planned
  split at planned
  · cases planned
  · simp only [Except.bind, filter] at planned
    split at planned
    · cases planned
      have split := splitByGaps_spec needs observed
        (eligibleFrom topology health 0 route.deployments).1
      rw [parts.1] at split
      exact ⟨split.1, by simpa using split.2, parts.2⟩
    · split at planned <;> cases planned

/-- A plan that orders what the filters left, and hands the rest on. -/
structure Orders (found : Eligible) (plan : Plan) : Prop where
  candidates : plan.candidates.Perm found.candidates
  skipped : plan.skipped = found.skipped
  unfit : plan.unfit = found.unfit

theorem orderPriority_orders (found : Eligible) : Orders found (orderPriority found) :=
  ⟨.refl _, rfl, rfl⟩

theorem orderRoundRobin_orders (found : Eligible) (cursor : Nat) :
    Orders found (orderRoundRobin found cursor) :=
  ⟨List.rotate_perm _ _, rfl, rfl⟩

theorem orderLeastBusy_orders (found : Eligible) (loads : List Load) :
    Orders found (orderLeastBusy found loads) := by
  refine ⟨?_, rfl, rfl⟩
  have ranked := (List.perm_insertionSort (fun a b => busierThan a b ≠ .gt)
    (found.candidates.zipIdx.map fun pair => (pair.1, loads[pair.2]?.getD ⟨0, none⟩))).map Prod.fst
  have unranked : (found.candidates.zipIdx.map fun pair =>
      (pair.1, loads[pair.2]?.getD ⟨0, none⟩)).map Prod.fst = found.candidates := by
    rw [List.map_map]
    exact List.zipIdx_map_fst 0 found.candidates
  rw [unranked] at ranked
  exact ranked

theorem reserve_orders {found : Eligible} {plan : Plan} (orders : Orders found plan)
    (selector : Selector) : Orders found (selector.reserve plan).1 := by
  unfold Selector.reserve
  split
  · exact ⟨orders.candidates, orders.skipped, orders.unfit⟩
  · exact ⟨orders.candidates, orders.skipped, orders.unfit⟩

theorem reserve_candidates (selector : Selector) (plan : Plan) :
    (selector.reserve plan).1.candidates = plan.candidates := by
  unfold Selector.reserve
  split <;> rfl

theorem takeTurn_orders (selector : Selector) (policy : RoutePolicy) (state : Option (Nat × Nat))
    (found : Eligible) (observed : DeploymentId → Option DeploymentObservation) :
    Orders found (selector.takeTurn policy state found observed).1 := by
  unfold Selector.takeTurn
  split
  · exact orderRoundRobin_orders found _
  · exact orderLeastBusy_orders found _
  · exact orderPriority_orders found

/-- On a hit the sticky candidate leads, and the others follow in some order. -/
theorem planSticky_orders (selector : Selector) (policy : RoutePolicy) (state : Option Nat)
    (found : Eligible) {index : Nat} {first : Candidate} (at' : found.candidates[index]? = some first)
    (observed : DeploymentId → Option DeploymentObservation) :
    Orders found (selector.planSticky policy state found index observed).1 ∧
      (selector.planSticky policy state found index observed).1.candidates.head? = some first := by
  have bound : index < found.candidates.length := (List.getElem?_eq_some_iff.mp at').1
  have here : found.candidates[index] = first := (List.getElem?_eq_some_iff.mp at').2
  have moved : (first :: found.candidates.eraseIdx index).Perm found.candidates := by
    rw [← here]
    exact List.getElem_cons_eraseIdx_perm bound
  unfold Selector.planSticky
  rw [reserve_candidates]
  split
  · refine ⟨reserve_orders ⟨List.rotate_perm _ _, rfl, rfl⟩ selector, ?_⟩
    have turned := List.head?_rotate bound
    exact turned.trans at'
  · refine ⟨reserve_orders ⟨?_, rfl, rfl⟩ selector, by simp [at']⟩
    have rest := (orderLeastBusy_orders { found with candidates := found.candidates.eraseIdx index }
      (selector.loads (found.candidates.eraseIdx index) observed)).candidates
    simpa [at'] using (rest.cons first).trans moved
  · refine ⟨reserve_orders ⟨?_, rfl, rfl⟩ selector, by simp [Plan.ofEligible, moveToFront, at']⟩
    simpa [Plan.ofEligible, moveToFront, at'] using moved

theorem stickyStanding_ok {found : Eligible} {sticky : DeploymentId} {index : Nat}
    (standing : stickyStanding found sticky = .ok index) :
    ∃ first, found.candidates[index]? = some first ∧ first.deployment = sticky := by
  unfold stickyStanding at standing
  split at standing
  · rename_i position found'
    cases standing
    rcases List.findIdx?_eq_some_iff_getElem.mp found' with ⟨bound, matching, _⟩
    exact ⟨_, List.getElem?_eq_getElem bound, by simpa using matching⟩
  · split at standing
    · cases standing
    · split at standing <;> cases standing

theorem stickyStanding_error {found : Eligible} {sticky : DeploymentId} {reason : Reassignment}
    (standing : stickyStanding found sticky = .error reason) :
    sticky ∉ found.candidates.map Candidate.deployment := by
  unfold stickyStanding at standing
  split at standing
  · cases standing
  · rename_i absent
    rw [List.findIdx?_eq_none_iff] at absent
    intro member
    rcases List.mem_map.mp member with ⟨candidate, present, same⟩
    simpa [same] using absent candidate present

section Planning

variable [Lowercase] {selector after : Selector} {topology : Topology} {route : Route}
  {health : NodeId → Option NodeStatus} {observed : DeploymentId → Option DeploymentObservation}
  {needs : RequestRequirements} {sticky : Option DeploymentId}

/-- A plan orders what both filters left; the sticky deployment leads if it is still there. -/
theorem planWithAffinity_ok {plan : Plan}
    (planned : selector.planWithAffinity topology route health observed needs sticky =
      (.ok plan, after)) :
    ∃ found, ((eligible topology route health).bind fun found => filter found needs observed) =
        .ok found ∧ Orders found plan ∧
      ∀ id ∈ sticky, id ∈ found.candidates.map Candidate.deployment →
        plan.candidates.head?.map Candidate.deployment = some id := by
  unfold Selector.planWithAffinity at planned
  split at planned
  · cases planned
  · rename_i found kept
    refine ⟨found, kept, ?_⟩
    dsimp only at planned
    split at planned
    · rename_i index standing
      rcases Option.map_eq_some_iff.mp standing with ⟨id, named, stands⟩
      rcases stickyStanding_ok stands with ⟨first, at', same⟩
      cases planned
      have orders := planSticky_orders selector route.policy
        (((topology.routes.findIdx? fun other => other.name == route.name).bind fun index =>
          selector.cursors[index]?.map fun cursor => (index, cursor)).map Prod.fst) found at' observed
      refine ⟨orders.1, ?_⟩
      intro other remembered _
      have agreed : other = id := Option.some.inj ((Option.mem_def.mp remembered).symm.trans named)
      rw [orders.2, agreed, ← same]
      rfl
    · rename_i broken
      cases planned
      have orders := reserve_orders (takeTurn_orders selector route.policy
        ((topology.routes.findIdx? fun other => other.name == route.name).bind fun index =>
          selector.cursors[index]?.map fun cursor => (index, cursor)) found observed)
        (selector.takeTurn route.policy ((topology.routes.findIdx? fun other =>
          other.name == route.name).bind fun index =>
          selector.cursors[index]?.map fun cursor => (index, cursor)) found observed).2
      refine ⟨⟨orders.candidates, orders.skipped, orders.unfit⟩, ?_⟩
      intro id remembered member
      rw [Option.mem_def.mp remembered] at broken
      cases standing : stickyStanding found id with
      | ok index => exact absurd (by rw [Option.map_some, standing]) (broken index)
      | error reason => exact absurd member (stickyStanding_error standing)

theorem planWithAffinity_error {failure : RoutingFailure}
    (planned : selector.planWithAffinity topology route health observed needs sticky =
      (.error failure, after)) : after = selector := by
  unfold Selector.planWithAffinity at planned
  split at planned
  · exact (Prod.mk.inj planned).2.symm
  · dsimp only at planned
    split at planned
    · simp at planned
    · simp at planned

/-- The three parts of a plan, as lists of ids, are the route's deployments. -/
theorem parts_perm {found : Eligible} {plan : Plan} (configured : route ∈ topology.routes)
    (kept : ((eligible topology route health).bind fun found => filter found needs observed) =
      .ok found) (orders : Orders found plan) :
    (plan.candidates.map Candidate.deployment ++ plan.unfit.map Prod.fst ++
      plan.skipped.map Prod.fst).Perm route.deployments := by
  have parts := filtered_spec configured kept
  have fit : (plan.candidates.map Candidate.deployment).Perm
      (found.candidates.map Candidate.deployment) := orders.candidates.map _
  rw [parts.1] at fit
  rw [orders.unfit, orders.skipped, parts.2.1, parts.2.2]
  have capable := List.filter_append_perm (fun id => (gaps needs (observed id)).isEmpty)
    (route.deployments.filter (availableNow topology health))
  have up := List.filter_append_perm (availableNow topology health) route.deployments
  exact ((((fit.append_right _).trans capable).append_right _).trans up)

/-- No deployment is in a plan twice. -/
theorem planned_nodup {plan : Plan} (configured : route ∈ topology.routes)
    (planned : selector.planWithAffinity topology route health observed needs sticky =
      (.ok plan, after)) : (plan.candidates.map Candidate.deployment).Nodup := by
  rcases planWithAffinity_ok planned with ⟨found, kept, orders, _⟩
  have whole := (parts_perm configured kept orders).nodup_iff.mpr (topology.once route configured)
  exact (List.nodup_append.mp (List.nodup_append.mp whole).1).1

theorem mem_candidates_iff {found : Eligible} (configured : route ∈ topology.routes)
    (kept : ((eligible topology route health).bind fun found => filter found needs observed) =
      .ok found) (id : DeploymentId) :
    id ∈ found.candidates.map Candidate.deployment ↔
      id ∈ route.deployments ∧ CanServe topology health observed needs id := by
  rw [(filtered_spec configured kept).1]
  simp only [List.mem_filter, List.isEmpty_iff]
  constructor
  · rintro ⟨⟨member, up⟩, fit⟩
    exact ⟨member, (canServe_iff (topology.listed route configured id member)).mpr ⟨up, fit⟩⟩
  · rintro ⟨member, serves⟩
    have both := (canServe_iff (topology.listed route configured id member)).mp serves
    exact ⟨⟨member, both.1⟩, both.2⟩

end Planning

theorem plan_partitions_route [Lowercase] (topology : Topology) (route : Route)
    (configured : route ∈ topology.routes) (health : NodeId → Option NodeStatus)
    (observed : DeploymentId → Option DeploymentObservation) (needs : RequestRequirements)
    (sticky : Option DeploymentId) (selector : Selector) :
    match selector.planWithAffinity topology route health observed needs sticky with
    | (.ok plan, _) =>
        (plan.candidates.map Candidate.deployment).Nodup ∧
        (∀ id, id ∈ plan.candidates.map Candidate.deployment ↔
          id ∈ route.deployments ∧ CanServe topology health observed needs id) ∧
        (plan.candidates.map Candidate.deployment ++ plan.unfit.map Prod.fst ++
          plan.skipped.map Prod.fst).Perm route.deployments ∧
        ∀ id ∈ sticky, plan.candidates.head?.map Candidate.deployment = some id ↔
          id ∈ route.deployments ∧ CanServe topology health observed needs id
    | (.error _, after) => after.cursors = selector.cursors ∧ after.load = selector.load := by
  split
  · rename_i plan after planned
    rcases planWithAffinity_ok planned with ⟨found, kept, orders, leads⟩
    have partition := parts_perm configured kept orders
    have same : ∀ id, id ∈ plan.candidates.map Candidate.deployment ↔
        id ∈ found.candidates.map Candidate.deployment :=
      fun id => (orders.candidates.map Candidate.deployment).mem_iff
    have candidates : ∀ id, id ∈ plan.candidates.map Candidate.deployment ↔
        id ∈ route.deployments ∧ CanServe topology health observed needs id :=
      fun id => (same id).trans (mem_candidates_iff configured kept id)
    refine ⟨planned_nodup configured planned, candidates, partition, ?_⟩
    · intro id remembered
      rw [← candidates]
      constructor
      · intro first
        rcases Option.map_eq_some_iff.mp first with ⟨candidate, head, rfl⟩
        exact List.mem_map_of_mem (List.mem_of_head? head)
      · intro member
        exact leads id remembered ((same id).mp member)
  · rename_i failure after planned
    rw [planWithAffinity_error planned]
    exact ⟨rfl, rfl⟩

section Sample

attribute [local instance] asciiLowercase

def onA : Deployment := ⟨DeploymentId.of ['a'] ['Q'], ['a'], ['Q']⟩

def onB : Deployment := ⟨DeploymentId.of ['b'] ['Q'], ['b'], ['Q']⟩

def spreadRoute : Route := ⟨['C', 'o', 'd', 'e', 'r'], .leastBusy, [onA.id, onB.id], none⟩

/-- One route over two nodes. -/
def spreadTopology : Topology where
  nodes := [⟨['a'], true⟩, ⟨['b'], true⟩]
  deployments := [onA, onB]
  routes := [spreadRoute]
  defaultRoute := none
  nodeIds := by decide
  deploymentIds := by decide
  routeNames := by simp
  hosted := by decide
  listed := by decide
  once := by decide
  allowed := by simp [spreadRoute]
  unreserved := by decide
  default := by simp

/-- Both nodes healthy and serving `q`. -/
def servingHealth : NodeId → Option NodeStatus := fun _ =>
  some (NodeStatus.default.apply
    (.success { served := some ⟨['q'], 4096⟩, features := .none, maxConcurrentRequests := 1,
                version := [] }) 1 0)

def chatOnly : FeatureSet := { FeatureSet.none with chatCompletions := true }

def chatObserved : DeploymentId → Option DeploymentObservation := fun _ =>
  some ⟨chatOnly, 4096, 1, 0⟩

def chatNeeds : RequestRequirements :=
  { RequestRequirements.none with endpoint := some .chatCompletions, promptTokens := some 100 }

theorem plan_partitions_sticky_route :
    spreadRoute ∈ spreadTopology.routes ∧
    ∃ plan after, (Selector.new spreadTopology).planWithAffinity spreadTopology spreadRoute
        servingHealth chatObserved chatNeeds (some onB.id) = (.ok plan, after) ∧
      plan.candidates.head?.map Candidate.deployment = some onB.id := by
  refine ⟨by decide, _, _, rfl, ?_⟩
  have parts : _ ∧ _ ∧ _ ∧ _ := plan_partitions_route spreadTopology spreadRoute (by decide)
    servingHealth chatObserved chatNeeds (some onB.id) (.new spreadTopology)
  apply (parts.2.2.2 onB.id rfl).mpr
  exact ⟨by decide, onB, by decide, ⟨['b'], true⟩, by decide, rfl, rfl, by decide, by decide⟩

end Sample

end Lightweight.Router
