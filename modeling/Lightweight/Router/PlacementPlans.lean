import Lightweight.Router.Placement

/-! What one placement pass may plan: on which nodes, on which deployments, and how much for each
route. -/

namespace Lightweight.Router

open Lightweight.Catalog

/-- What the loop over one route's deployments yields. -/
structure RoutePlan (route : RouteName) (backingOff : DeploymentId → Bool)
    (wanted : Nat) (claimed : List NodeId) (entries : List Placed) (actions : List Action)
    (after : List NodeId) : Prop where
  bounded : actions.length ≤ wanted
  distinct : (actions.map Action.node).Nodup
  unclaimed : ∀ action ∈ actions, action.node ∉ claimed
  after : ∀ node, node ∈ after ↔ node ∈ claimed ∨ node ∈ actions.map Action.node
  chosen : ∀ action ∈ actions, action.route = route ∧
    ∃ placed ∈ entries, placed.deployment = action.deployment ∧ placed.node = action.node ∧
      placed.allowed = true ∧ placed.state = .empty ∧ backingOff action.deployment = false

theorem RoutePlan.skip {route : RouteName} {backingOff : DeploymentId → Bool} {wanted : Nat}
    {claimed : List NodeId} {entries : List Placed} {actions : List Action} {after : List NodeId}
    (plan : RoutePlan route backingOff wanted claimed entries actions after)
    (placed : Placed) :
    RoutePlan route backingOff wanted claimed (placed :: entries) actions after := by
  refine ⟨plan.bounded, plan.distinct, plan.unclaimed, plan.after, ?_⟩
  intro action member
  rcases plan.chosen action member with ⟨named, other, present, rest⟩
  exact ⟨named, other, List.mem_cons_of_mem _ present, rest⟩

theorem RoutePlan.stop {route : RouteName} {backingOff : DeploymentId → Bool} {wanted : Nat}
    {claimed : List NodeId} {entries : List Placed} :
    RoutePlan route backingOff wanted claimed entries [] claimed :=
  ⟨Nat.zero_le _, by simp, by simp, by simp, by simp⟩

/-- One more load, on a node that is claimed from then on. -/
theorem RoutePlan.take {route : RouteName} {backingOff : DeploymentId → Bool} {wanted : Nat}
    {claimed : List NodeId} {entries : List Placed} {actions : List Action} {after : List NodeId}
    {placed : Placed} {action : Action}
    (tail : RoutePlan route backingOff wanted (placed.node :: claimed) entries actions after)
    (named : action.route = route) (deployment : placed.deployment = action.deployment)
    (node : placed.node = action.node) (allowed : placed.allowed = true)
    (empty : placed.state = .empty) (waiting : backingOff action.deployment = false)
    (unclaimed : placed.node ∉ claimed) :
    RoutePlan route backingOff (wanted + 1) claimed (placed :: entries) (action :: actions)
      after := by
  constructor
  · exact Nat.succ_le_succ tail.bounded
  · rw [List.map_cons, List.nodup_cons]
    refine ⟨?_, tail.distinct⟩
    intro member
    rcases List.mem_map.mp member with ⟨other, present, same⟩
    apply tail.unclaimed other present
    rw [same, ← node]
    exact List.mem_cons_self
  · intro other member
    rcases List.mem_cons.mp member with rfl | later
    · rw [← node]
      exact unclaimed
    · intro held
      exact tail.unclaimed other later (List.mem_cons_of_mem _ held)
  · intro other
    rw [tail.after, List.map_cons, List.mem_cons, List.mem_cons, node]
    tauto
  · intro other member
    rcases List.mem_cons.mp member with rfl | later
    · exact ⟨named, placed, List.mem_cons_self, deployment, node, allowed, empty, waiting⟩
    · exact (tail.skip placed).chosen other later

section Planning

variable [Lowercase] {topology : Topology}

theorem planRoute_spec (route : RouteName) (backingOff : DeploymentId → Bool)
    (entries : List Placed) (wanted : Nat) (claimed : List NodeId) :
    RoutePlan route backingOff wanted claimed entries
      (planRoute topology route backingOff wanted claimed entries).1
      (planRoute topology route backingOff wanted claimed entries).2 := by
  induction entries generalizing wanted claimed with
  | nil =>
      cases wanted <;> exact .stop
  | cons placed rest ih =>
      cases wanted with
      | zero => exact .stop
      | succ wanted =>
          rw [planRoute]
          split
          · exact (ih (wanted + 1) claimed).skip placed
          · rename_i free
            simp only [Bool.or_eq_true, not_or, Bool.not_eq_true, Bool.not_eq_eq_eq_not,
              bne_eq_false_iff_eq, List.contains_eq_mem,
              decide_eq_false_iff_not] at free
            rcases free with ⟨⟨⟨allowed, empty⟩, waiting⟩, unclaimed⟩
            split
            · exact (ih (wanted + 1) claimed).skip placed
            · exact (ih wanted (placed.node :: claimed)).take rfl rfl rfl (by simpa using allowed)
                empty waiting unclaimed

/-- Where a load was planned: an allowed deployment of a route with a target, on an enabled node
that is healthy and serves nothing, not waiting out a failure, its node without a load. -/
structure PlannedOn (topology : Topology) (health : NodeId → Option NodeStatus)
    (loading : List DeploymentId) (backingOff : DeploymentId → Bool) (action : Action) : Prop where
  allowed : ∃ route ∈ topology.routes, ∃ placement ∈ route.placement, route.name = action.route ∧
    action.deployment ∈ placement.allowed
  empty : ∃ deployment ∈ topology.deployments, ∃ node ∈ topology.nodes,
    deployment.id = action.deployment ∧ node.id = deployment.node ∧ node.id = action.node ∧
    node.enabled = true ∧ ((health node.id).getD .default).health = .healthy ∧
    ((health node.id).getD .default).served = none
  waiting : backingOff action.deployment = false
  unclaimed : action.node ∉ claimedBy topology loading

theorem stateOf_empty {node : Node} {deployment : Deployment} {status : NodeStatus}
    {loading : List DeploymentId} (empty : stateOf node deployment status loading = .empty) :
    node.enabled = true ∧ status.health = .healthy ∧ status.served = none := by
  unfold stateOf at empty
  split at empty
  · cases empty
  · rename_i reason unavailable
    split at empty
    · cases empty
    · split at empty
      · rename_i notServed
        split at empty
        · rename_i serves
          refine ⟨?_, serves⟩
          cases enabled : node.enabled with
          | true => rfl
          | false => simp [availability, enabled] at unavailable
        · cases empty
      · cases empty

theorem placedOf_eq_some {placement : RoutePlacement} {health : NodeId → Option NodeStatus}
    {loading : List DeploymentId} {id : DeploymentId} {placed : Placed}
    (found : placedOf topology placement health loading id = some placed) :
    ∃ deployment ∈ topology.deployments, ∃ node ∈ topology.nodes,
      deployment.id = id ∧ node.id = deployment.node ∧ placed.deployment = id ∧
      placed.node = node.id ∧
      placed.state = stateOf node deployment ((health node.id).getD .default) loading ∧
      placed.allowed = placement.allowed.contains id := by
  unfold placedOf at found
  rcases Option.bind_eq_some_iff.mp found with ⟨deployment, listed, rest⟩
  rcases Option.map_eq_some_iff.mp rest with ⟨node, hosts, rfl⟩
  have named : deployment.id = id := by simpa using List.find?_some listed
  have on : node.id = deployment.node := by simpa using List.find?_some hosts
  exact ⟨deployment, List.mem_of_find?_eq_some listed, node, List.mem_of_find?_eq_some hosts, named,
    on, rfl, rfl, rfl, rfl⟩

theorem assess_eq_some {route : Route} {health : NodeId → Option NodeStatus}
    {loading : List DeploymentId} {assessment : Assessment}
    (measured : assess topology route health loading = some assessment) :
    ∃ placement ∈ route.placement, assessment.target = placement.target ∧
      assessment.deployments =
        route.deployments.filterMap (placedOf topology placement health loading) := by
  rcases Option.map_eq_some_iff.mp measured with ⟨placement, target, rfl⟩
  exact ⟨placement, target, rfl, rfl⟩

/-- What the loop over the routes yields. -/
structure PassPlan (topology : Topology) (health : NodeId → Option NodeStatus)
    (loading : List DeploymentId) (backingOff : DeploymentId → Bool) (claimed : List NodeId)
    (routes : List Route) (actions : List Action) : Prop where
  distinct : (actions.map Action.node).Nodup
  unclaimed : ∀ action ∈ actions, action.node ∉ claimed
  chosen : ∀ action ∈ actions, ∃ route ∈ routes, route.name = action.route ∧
    ∃ placement ∈ route.placement, ∃ id ∈ route.deployments, ∃ placed,
      placedOf topology placement health loading id = some placed ∧
      placed.deployment = action.deployment ∧ placed.node = action.node ∧
      placed.allowed = true ∧ placed.state = .empty ∧ backingOff action.deployment = false
  bounded : ∀ route ∈ routes, ∀ assessment ∈ assess topology route health loading,
    (actions.filter fun action => action.route == route.name).length ≤ assessment.shortfall

section Routes

variable {health : NodeId → Option NodeStatus} {loading : List DeploymentId}
  {backingOff : DeploymentId → Bool} {claimed : List NodeId} {route : Route} {rest : List Route}

theorem name_ne {routes : List Route} (unique : (route :: routes).Pairwise
    fun a b => sameName a.name b.name = false) {other : Route} (member : other ∈ routes) :
    route.name ≠ other.name := by
  intro same
  have different := (List.pairwise_cons.mp unique).1 other member
  rw [same] at different
  simp [sameName] at different

/-- A route without a target adds nothing. -/
theorem PassPlan.untargeted {actions : List Action}
    (tail : PassPlan topology health loading backingOff claimed rest actions)
    (none' : assess topology route health loading = none) :
    PassPlan topology health loading backingOff claimed (route :: rest) actions := by
  refine ⟨tail.distinct, tail.unclaimed, ?_, ?_⟩
  · intro action member
    rcases tail.chosen action member with ⟨other, present, facts⟩
    exact ⟨other, List.mem_cons_of_mem _ present, facts⟩
  · intro other member assessment measured
    rcases List.mem_cons.mp member with rfl | later
    · rw [none'] at measured
      cases measured
    · exact tail.bounded other later assessment measured

theorem PassPlan.targeted {assessment : Assessment} {actions later : List Action}
    {after : List NodeId} (measured : assess topology route health loading = some assessment)
    (unique : (route :: rest).Pairwise fun a b => sameName a.name b.name = false)
    (head : RoutePlan route.name backingOff assessment.shortfall claimed assessment.deployments
      actions after)
    (tail : PassPlan topology health loading backingOff after rest later) :
    PassPlan topology health loading backingOff claimed (route :: rest) (actions ++ later) := by
  refine ⟨?_, ?_, ?_, ?_⟩
  · rw [List.map_append, List.nodup_append]
    refine ⟨head.distinct, tail.distinct, ?_⟩
    intro node earlier other member same
    rcases List.mem_map.mp member with ⟨action, present, rfl⟩
    exact tail.unclaimed action present ((head.after _).mpr (Or.inr (same ▸ earlier)))
  · intro action member
    rcases List.mem_append.mp member with earlier | present
    · exact head.unclaimed action earlier
    · intro held
      exact tail.unclaimed action present ((head.after _).mpr (Or.inl held))
  · intro action member
    rcases List.mem_append.mp member with earlier | present
    · rcases assess_eq_some measured with ⟨placement, targeted, _, listed⟩
      rcases head.chosen action earlier with ⟨named, placed, entry, facts⟩
      rw [listed] at entry
      rcases List.mem_filterMap.mp entry with ⟨id, listedId, found⟩
      exact ⟨route, List.mem_cons_self, named.symm, placement, targeted, id, listedId, placed, found,
        facts⟩
    · rcases tail.chosen action present with ⟨other, configured, facts⟩
      exact ⟨other, List.mem_cons_of_mem _ configured, facts⟩
  · intro other member assessment' measured'
    rw [List.filter_append, List.length_append]
    rcases List.mem_cons.mp member with rfl | configured
    · have same : assessment' = assessment :=
        Option.some.inj ((Option.mem_def.mp measured').symm.trans measured)
      have none' : later.filter (fun action => action.route == other.name) = [] := by
        rw [List.filter_eq_nil_iff]
        intro action present same
        rcases tail.chosen action present with ⟨owner, configured, named, _⟩
        exact name_ne unique configured ((beq_iff_eq.mp same).symm.trans named.symm)
      rw [none', same]
      exact le_trans (List.length_filter_le _ _) head.bounded
    · have none' : actions.filter (fun action => action.route == other.name) = [] := by
        rw [List.filter_eq_nil_iff]
        intro action present same
        have named := (head.chosen action present).1
        exact name_ne unique configured (named.symm.trans (beq_iff_eq.mp same))
      rw [none']
      simpa using tail.bounded other configured assessment' measured'

end Routes

theorem planRoutes_spec (topology : Topology) (health : NodeId → Option NodeStatus)
    (loading : List DeploymentId) (backingOff : DeploymentId → Bool) (routes : List Route)
    (claimed : List NodeId) (unique : routes.Pairwise fun a b => sameName a.name b.name = false) :
    PassPlan topology health loading backingOff claimed routes
      (planRoutes topology health loading backingOff claimed routes) := by
  induction routes generalizing claimed with
  | nil => exact ⟨by simp [planRoutes], by simp [planRoutes], by simp [planRoutes], by simp⟩
  | cons route rest ih =>
      have tailUnique := (List.pairwise_cons.mp unique).2
      rw [planRoutes]
      split
      · rename_i none'
        exact (ih claimed tailUnique).untargeted none'
      · rename_i assessment measured
        exact .targeted measured unique
          (planRoute_spec route.name backingOff assessment.deployments assessment.shortfall claimed)
          (ih _ tailUnique)

theorem plan_plannedOn {health : NodeId → Option NodeStatus} {loading : List DeploymentId}
    {backingOff : DeploymentId → Bool} {action : Action}
    (planned : action ∈ plan topology health loading backingOff) :
    PlannedOn topology health loading backingOff action := by
  have pass := planRoutes_spec topology health loading backingOff topology.routes
    (claimedBy topology loading) topology.routeNames
  rcases pass.chosen action planned with
    ⟨route, configured, named, placement, targeted, id, listed, placed, found, same, node, allowed,
      empty, waiting⟩
  rcases placedOf_eq_some found with
    ⟨deployment, deployed, host, hosted, rfl, on, same', at', state, permitted⟩
  have serves := stateOf_empty (state.symm.trans empty)
  refine ⟨⟨route, configured, placement, targeted, named, ?_⟩, ?_, waiting,
    pass.unclaimed action planned⟩
  · rw [← same, same']
    simpa [permitted] using allowed
  · exact ⟨deployment, deployed, host, hosted, same'.symm.trans same, on, at'.symm.trans node,
      serves.1, serves.2⟩

end Planning

end Lightweight.Router
