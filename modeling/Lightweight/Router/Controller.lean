import Mathlib.Data.List.Nodup
import Mathlib.Data.Option.Basic
import Mathlib.Data.List.Perm.Basic
import Lightweight.Transition
import Lightweight.Router.HealthHistory
import Lightweight.Router.PlacementPlans

/-! The placement controller (`lightweight-router/src/controller.rs`): passes that plan from what the
router has observed and start the loads, the loads that end in any order, and the probes and requests
that write the health book between passes. -/

namespace Lightweight.Router

open Lightweight.Catalog Transition

/-- What a pass saw when it planned. -/
structure Pass where
  health : NodeId → Option NodeStatus
  loading : List DeploymentId
  backingOff : DeploymentId → Bool

/-- A load in progress, and the pass that planned it. -/
structure Task where
  action : Action
  pass : Pass

/-- `history` are the calls made on the health book so far. -/
structure Controller where
  health : HealthBook
  placement : PlacementBook
  tasks : List Task
  history : List HealthCall

inductive ControllerAction where
  | health (call : HealthCall)
  | reconcile (now : Nat)
  | succeeded (task : Nat) (last : LastAction)
  | failed (task : Nat) (last : LastAction) (now : Nat)
  | stop

/-- Start the loads the plan asks for, each as its own task. -/
def beginAll (pass : Pass) (now : Nat) :
    PlacementBook → List Action → PlacementBook × List Task
  | book, [] => (book, [])
  | book, action :: rest =>
      match book.begin action.deployment now with
      | (false, book) => beginAll pass now book rest
      | (true, book) =>
          let (book, tasks) := beginAll pass now book rest
          (book, ⟨action, pass⟩ :: tasks)

def abandonAll (book : PlacementBook) (ids : List DeploymentId) : PlacementBook :=
  ids.foldl PlacementBook.abandon book

namespace Controller

variable [Lowercase]

def new (topology : Topology) (health : HealthPolicy) (placement : PlacementPolicy) : Controller :=
  ⟨.new topology health, .new placement, [], []⟩

/-- What a pass started at `now` sees. -/
def observe (s : Controller) (now : Nat) : Pass :=
  ⟨s.health.nodes, s.placement.loading, s.placement.backingOff now⟩

/-- The loads a pass started at `now` plans. -/
def planned (topology : Topology) (s : Controller) (now : Nat) : List Action :=
  plan topology (s.observe now).health (s.observe now).loading (s.observe now).backingOff

/-- One pass: plan from what the router has observed, and start the loads. -/
def reconcile (topology : Topology) (s : Controller) (now : Nat) : Controller :=
  let (book, tasks) := beginAll (s.observe now) now s.placement (s.planned topology now)
  { s with placement := book, tasks := s.tasks ++ tasks }

def step (topology : Topology) (s : Controller) : ControllerAction → Option Controller
  | .health call =>
      some { s with health := s.health.perform call, history := s.history ++ [call] }
  | .reconcile now => some (s.reconcile topology now)
  | .succeeded task last =>
      s.tasks[task]?.map fun ended =>
        { s with
          placement := s.placement.succeeded ended.action.deployment last
          tasks := s.tasks.eraseIdx task }
  | .failed task last now =>
      s.tasks[task]?.map fun ended =>
        { s with
          placement := s.placement.failed ended.action.deployment last now
          tasks := s.tasks.eraseIdx task }
  | .stop => some { s with placement := abandonAll s.placement s.placement.loading, tasks := [] }

end Controller

/-! ### Loads in progress -/

namespace PlacementBook

theorem mem_loading {book : PlacementBook} {id : DeploymentId} :
    id ∈ book.loading ↔ (book.entry id).loadingSince.isSome = true := by
  unfold loading entry
  rw [List.mem_map]
  constructor
  · rintro ⟨⟨_, record⟩, member, rfl⟩
    rcases List.mem_filter.mp member with ⟨listed, busy⟩
    rw [Std.ExtTreeMap.mem_toList_iff_getElem?_eq_some] at listed
    simpa [listed] using busy
  · intro busy
    cases found : book.records[id]? with
    | none => simp [found, PlacementRecord.default] at busy
    | some record =>
        rw [found] at busy
        refine ⟨(id, record), List.mem_filter.mpr ⟨?_, busy⟩, rfl⟩
        exact Std.ExtTreeMap.mem_toList_iff_getElem?_eq_some.mpr found

theorem entry_put (book : PlacementBook) (id other : DeploymentId) (record : PlacementRecord) :
    (book.put id record).entry other = if id = other then record else book.entry other := by
  unfold entry put
  rw [Std.ExtTreeMap.getElem?_insert]
  by_cases same : id = other
  · simp [same]
  · simp [same]

theorem mem_loading_put {book : PlacementBook} {id other : DeploymentId} {record : PlacementRecord} :
    other ∈ (book.put id record).loading ↔
      if id = other then record.loadingSince.isSome = true else other ∈ book.loading := by
  rw [mem_loading, entry_put]
  split
  · rfl
  · exact mem_loading.symm

theorem begin_free {book : PlacementBook} {id : DeploymentId} (free : id ∉ book.loading)
    (now : Nat) :
    (book.begin id now).1 = true ∧
      ∀ other, other ∈ (book.begin id now).2.loading ↔ other = id ∨ other ∈ book.loading := by
  have idle : ¬ (book.entry id).loadingSince.isSome = true := fun busy => free (mem_loading.mpr busy)
  refine ⟨by simp [begin, idle], ?_⟩
  intro other
  simp only [begin, idle, Bool.false_eq_true, if_false, mem_loading_put]
  by_cases same : id = other
  · simp [same]
  · simp [same, Ne.symm same]

theorem mem_loading_abandon {book : PlacementBook} {id other : DeploymentId} :
    other ∈ (book.abandon id).loading ↔ other ≠ id ∧ other ∈ book.loading := by
  unfold abandon
  cases found : book.records[id]? with
  | none =>
      have idle : id ∉ book.loading := by
        rw [mem_loading, entry, found]
        simp [PlacementRecord.default]
      constructor
      · intro busy
        exact ⟨fun same => idle (same ▸ busy), busy⟩
      · exact fun both => both.2
  | some record =>
      dsimp only
      rw [mem_loading_put]
      by_cases same : id = other
      · simp [same]
      · simp [same, Ne.symm same]

theorem loading_abandonAll (book : PlacementBook) (ids : List DeploymentId) (other : DeploymentId) :
    other ∈ (abandonAll book ids).loading ↔ other ∉ ids ∧ other ∈ book.loading := by
  induction ids generalizing book with
  | nil => simp [abandonAll]
  | cons id rest ih =>
      have tail := ih (book.abandon id)
      rw [mem_loading_abandon] at tail
      simp only [abandonAll, List.foldl_cons] at tail ⊢
      rw [tail, List.mem_cons]
      tauto

end PlacementBook

section Loads

variable [Lowercase] {topology : Topology}

theorem PlannedOn.node {health : NodeId → Option NodeStatus} {loading : List DeploymentId}
    {backingOff : DeploymentId → Bool} {action : Action}
    (planned : PlannedOn topology health loading backingOff action) :
    (topology.deployment action.deployment).map Deployment.node = some action.node := by
  rcases planned.empty with ⟨deployment, deployed, node, _, named, on, same, _⟩
  rw [← named, topology.deployment_of_mem deployed, Option.map_some, ← on, same]

/-- Loads on distinct nodes are of distinct deployments. -/
theorem deployments_nodup {actions : List Action} (distinct : (actions.map Action.node).Nodup)
    (on : ∀ action ∈ actions,
      (topology.deployment action.deployment).map Deployment.node = some action.node) :
    (actions.map Action.deployment).Nodup := by
  apply List.Nodup.of_map fun id => (topology.deployment id).map Deployment.node
  have same : (actions.map Action.deployment).map
      (fun id => (topology.deployment id).map Deployment.node) =
        (actions.map Action.node).map some := by
    rw [List.map_map, List.map_map]
    exact List.map_congr_left on
  rw [same]
  exact distinct.map (Option.some_injective _)

omit [Lowercase] in
theorem beginAll_spec (pass : Pass) (now : Nat) (actions : List Action) (book : PlacementBook)
    (distinct : (actions.map Action.deployment).Nodup)
    (free : ∀ action ∈ actions, action.deployment ∉ book.loading) :
    (beginAll pass now book actions).2 = actions.map (fun action => ⟨action, pass⟩) ∧
      ∀ id, id ∈ (beginAll pass now book actions).1.loading ↔
        id ∈ actions.map Action.deployment ∨ id ∈ book.loading := by
  induction actions generalizing book with
  | nil => simp [beginAll]
  | cons action rest ih =>
      rw [List.map_cons, List.nodup_cons] at distinct
      have begun := PlacementBook.begin_free (free action List.mem_cons_self) now
      have tail := ih (book.begin action.deployment now).2 distinct.2 (by
        intro other member
        rw [begun.2]
        rintro (same | busy)
        · exact distinct.1 (same ▸ List.mem_map_of_mem member)
        · exact free other (List.mem_cons_of_mem _ member) busy)
      have unfolded : beginAll pass now book (action :: rest) =
          ((beginAll pass now (book.begin action.deployment now).2 rest).1,
            ⟨action, pass⟩ :: (beginAll pass now (book.begin action.deployment now).2 rest).2) := by
        rw [beginAll]
        split
        · rename_i refused
          rw [refused] at begun
          cases begun.1
        · rename_i accepted
          rw [accepted]
      rw [unfolded]
      refine ⟨by rw [tail.1, List.map_cons], ?_⟩
      intro id
      rw [tail.2, begun.2, List.map_cons, List.mem_cons]
      tauto

/-- Tasks and book agree, and every task was planned soundly on a node of its own. -/
structure Placing (topology : Topology) (s : Controller) : Prop where
  distinct : (s.tasks.map fun task => task.action.node).Nodup
  planned : ∀ task ∈ s.tasks, PlannedOn topology task.pass.health task.pass.loading
    task.pass.backingOff task.action
  busy : ∀ id, id ∈ s.placement.loading ↔ id ∈ s.tasks.map fun task => task.action.deployment

/-- A pass plans on nodes without a load, one load for each. -/
theorem planned_apart {s : Controller} (placing : Placing topology s) (now : Nat) :
    ((s.tasks.map fun task => task.action.node) ++
      (s.planned topology now).map Action.node).Nodup := by
  have pass := planRoutes_spec topology (s.observe now).health (s.observe now).loading
    (s.observe now).backingOff topology.routes (claimedBy topology (s.observe now).loading)
    topology.routeNames
  rw [List.nodup_append]
  refine ⟨placing.distinct, pass.distinct, ?_⟩
  intro node held other member same
  rcases List.mem_map.mp held with ⟨task, present, rfl⟩
  rcases List.mem_map.mp member with ⟨action, planned, rfl⟩
  apply pass.unclaimed action planned
  rw [← same]
  refine List.mem_filterMap.mpr ⟨task.action.deployment, ?_, (placing.planned task present).node⟩
  exact (placing.busy _).mpr (List.mem_map.mpr ⟨task, present, rfl⟩)

/-- Every load a pass plans is begun. -/
theorem reconcile_begun {s : Controller} (placing : Placing topology s) (now : Nat) :
    (s.reconcile topology now).tasks =
        s.tasks ++ (s.planned topology now).map (fun action => ⟨action, s.observe now⟩) ∧
      ∀ id, id ∈ (s.reconcile topology now).placement.loading ↔
        id ∈ (s.planned topology now).map Action.deployment ∨ id ∈ s.placement.loading := by
  have apart := List.nodup_append.mp (planned_apart placing now)
  have on : ∀ action ∈ s.planned topology now,
      (topology.deployment action.deployment).map Deployment.node = some action.node :=
    fun action member => (plan_plannedOn member).node
  have begun := beginAll_spec (s.observe now) now (s.planned topology now) s.placement
    (deployments_nodup apart.2.1 on) (by
      intro action member busy
      rcases List.mem_map.mp ((placing.busy _).mp busy) with ⟨task, present, same⟩
      have taskNode := (placing.planned task present).node
      rw [same, on action member] at taskNode
      have sameNode : action.node = task.action.node := Option.some.inj taskNode
      exact apart.2.2 task.action.node (List.mem_map.mpr ⟨task, present, rfl⟩) action.node
        (List.mem_map_of_mem member) sameNode.symm)
  exact ⟨congrArg (s.tasks ++ ·) begun.1, begun.2⟩

theorem placing_reconcile {s : Controller} (placing : Placing topology s) (now : Nat) :
    Placing topology (s.reconcile topology now) := by
  have begun := reconcile_begun placing now
  refine ⟨?_, ?_, ?_⟩
  · rw [begun.1, List.map_append, List.map_map]
    exact planned_apart placing now
  · intro task member
    rw [begun.1] at member
    rcases List.mem_append.mp member with earlier | started
    · exact placing.planned task earlier
    · rcases List.mem_map.mp started with ⟨action, planned, rfl⟩
      exact plan_plannedOn planned
  · intro id
    rw [begun.2, placing.busy, begun.1, List.map_append, List.mem_append, List.map_map]
    exact or_comm

/-- A load that ends gives its node back, and no other. -/
theorem placing_ended {s : Controller} (placing : Placing topology s) {index : Nat} {ended : Task}
    (present : s.tasks[index]? = some ended) {book : PlacementBook}
    (settled : ∀ id, id ∈ book.loading ↔ id ≠ ended.action.deployment ∧ id ∈ s.placement.loading) :
    Placing topology { s with placement := book, tasks := s.tasks.eraseIdx index } := by
  have bound := (List.getElem?_eq_some_iff.mp present).1
  have here : s.tasks[index] = ended := (List.getElem?_eq_some_iff.mp present).2
  have moved : (ended :: s.tasks.eraseIdx index).Perm s.tasks := by
    rw [← here]
    exact List.getElem_cons_eraseIdx_perm bound
  have onNodes : ∀ action ∈ s.tasks.map Task.action,
      (topology.deployment action.deployment).map Deployment.node = some action.node := by
    intro action member
    rcases List.mem_map.mp member with ⟨task, held, rfl⟩
    exact (placing.planned task held).node
  have unique : ((ended :: s.tasks.eraseIdx index).map fun task => task.action.deployment).Nodup := by
    have all : ((s.tasks.map Task.action).map Action.deployment).Nodup :=
      deployments_nodup (by rw [List.map_map]; exact placing.distinct) onNodes
    rw [List.map_map] at all
    exact (moved.map _).nodup_iff.mpr all
  refine ⟨?_, ?_, ?_⟩
  · exact placing.distinct.sublist ((List.eraseIdx_sublist _ _).map _)
  · intro task member
    exact placing.planned task (List.mem_of_mem_eraseIdx member)
  · intro id
    rw [settled, placing.busy, ← (moved.map _).mem_iff, List.map_cons, List.mem_cons]
    rw [List.map_cons, List.nodup_cons] at unique
    constructor
    · rintro ⟨other, same | later⟩
      · exact absurd same other
      · exact later
    · intro later
      exact ⟨fun same => unique.1 (same ▸ later), Or.inr later⟩

theorem placing_step {s t : Controller} {action : ControllerAction} (placing : Placing topology s)
    (stepped : s.step topology action = some t) : Placing topology t := by
  cases action with
  | health call =>
      cases stepped
      exact ⟨placing.distinct, placing.planned, placing.busy⟩
  | reconcile now =>
      cases stepped
      exact placing_reconcile placing now
  | succeeded task last =>
      rcases Option.map_eq_some_iff.mp stepped with ⟨ended, present, rfl⟩
      apply placing_ended placing present
      intro id
      rw [PlacementBook.succeeded, PlacementBook.mem_loading_put]
      by_cases same : ended.action.deployment = id
      · simp [same]
      · simp [same, Ne.symm same]
  | failed task last now =>
      rcases Option.map_eq_some_iff.mp stepped with ⟨ended, present, rfl⟩
      apply placing_ended placing present
      intro id
      rw [PlacementBook.failed, PlacementBook.mem_loading_put]
      by_cases same : ended.action.deployment = id
      · simp [same]
      · simp [same, Ne.symm same]
  | stop =>
      cases stepped
      refine ⟨by simp, by simp, ?_⟩
      intro id
      rw [PlacementBook.loading_abandonAll]
      simp

theorem placing_reached {health : HealthPolicy} {placement : PlacementPolicy} {s : Controller}
    (reached : Reaches (Controller.step topology) Always (.new topology health placement) s) :
    Placing topology s := by
  refine reached.invariant (Placing topology) ?_ fun _ _ _ _ placing stepped =>
    placing_step placing stepped
  refine ⟨by simp [Controller.new], by simp [Controller.new], ?_⟩
  intro id
  simp [Controller.new, PlacementBook.mem_loading, PlacementBook.new, PlacementBook.entry,
    PlacementRecord.default]

end Loads

/-- In every state that passes and ended loads reach in any order. -/
theorem placement_bounded [Lowercase] (topology : Topology) (health : HealthPolicy)
    (placement : PlacementPolicy) (s : Controller)
    (reached : Reaches (Controller.step topology) Always (.new topology health placement) s) :
    (s.tasks.map fun task => task.action.node).Nodup ∧
    (∀ id, id ∈ s.placement.loading ↔ id ∈ s.tasks.map fun task => task.action.deployment) ∧
    (∀ task ∈ s.tasks, PlannedOn topology task.pass.health task.pass.loading task.pass.backingOff
      task.action) ∧
    ∀ now,
      (s.reconcile topology now).tasks =
          s.tasks ++ (s.planned topology now).map (fun action => ⟨action, s.observe now⟩) ∧
      ((s.tasks.map fun task => task.action.node) ++
        (s.planned topology now).map Action.node).Nodup ∧
      ∀ route ∈ topology.routes,
        ∀ assessment ∈ assess topology route s.health.nodes s.placement.loading,
          assessment.ready + assessment.loading +
              ((s.planned topology now).filter fun action => action.route == route.name).length ≤
            max assessment.target (assessment.ready + assessment.loading) := by
  have placing := placing_reached reached
  refine ⟨placing.distinct, placing.busy, placing.planned, ?_⟩
  intro now
  refine ⟨(reconcile_begun placing now).1, planned_apart placing now, ?_⟩
  intro route configured assessment measured
  have pass := planRoutes_spec topology (s.observe now).health (s.observe now).loading
    (s.observe now).backingOff topology.routes (claimedBy topology (s.observe now).loading)
    topology.routeNames
  have bounded : ((s.planned topology now).filter fun action => action.route == route.name).length ≤
      assessment.shortfall := pass.bounded route configured assessment measured
  unfold Assessment.shortfall at bounded
  omega

/-! ### What the last probe said -/

/-- The most recent successful probe of `node` reported `observation`. -/
def LastProbe (node : NodeId) (calls : List HealthCall) (observation : Observation) : Prop :=
  ∃ earlier later seen checked,
    calls = earlier ++ .record node (.success observation) seen checked :: later ∧
    ∀ outcome ∈ outcomesFor node later, outcome.isFailure = true

/-- The last successful probe of `node` reported a model, and the book no longer says so. -/
def Forgotten (s : Controller) (node : NodeId) : Prop :=
  ∃ observation, LastProbe node s.history observation ∧ observation.served ≠ none ∧
    (s.health.status node).served = none

/-- No pass finds a node that placement may load and whose model was forgotten. -/
def NothingForgotten [Lowercase] (topology : Topology) (s : Controller) : ControllerAction → Prop
  | .reconcile now =>
      ∀ route ∈ topology.routes, ∀ placement ∈ route.placement,
        ∀ deployment ∈ topology.deployments, deployment.id ∈ placement.allowed →
          Forgotten s deployment.node →
            (s.health.status deployment.node).health ≠ .healthy ∨
            s.placement.backingOff now deployment.id = true ∨
            deployment.node ∈ claimedBy topology s.placement.loading
  | _ => True

theorem LastProbe.later {node : NodeId} {calls : List HealthCall} {observation : Observation}
    (last : LastProbe node calls observation) {call : HealthCall}
    (failed : ∀ outcome ∈ call.outcomeFor node, outcome.isFailure = true) :
    LastProbe node (calls ++ [call]) observation := by
  rcases last with ⟨earlier, later, seen, checked, rfl, failures⟩
  refine ⟨earlier, later ++ [call], seen, checked, by simp, ?_⟩
  intro outcome member
  rw [outcomesFor_concat] at member
  rcases List.mem_append.mp member with before | now
  · exact failures outcome before
  · exact failed outcome (by simpa using now)

theorem lastProbe_of_healthy {threshold : Nat} {node : NodeId} {calls : List HealthCall}
    (healthy : healthOf threshold (outcomesFor node calls) = .healthy) :
    ∃ observation, LastProbe node calls observation := by
  induction calls using List.reverseRecOn with
  | nil =>
      by_cases past : threshold ≤ trailingFailures [] <;>
        simp [outcomesFor, healthOf, past] at healthy
  | append_singleton calls call ih =>
      rw [outcomesFor_concat] at healthy
      cases recorded : call.outcomeFor node with
      | none =>
          rw [recorded, Option.toList_none, List.append_nil] at healthy
          rcases ih healthy with ⟨observation, last⟩
          exact ⟨observation, last.later (by simp [recorded])⟩
      | some outcome =>
          rw [recorded, Option.toList_some] at healthy
          cases outcome with
          | failure reason =>
              rw [healthOf_failure] at healthy
              split at healthy
              · cases healthy
              · rcases ih healthy with ⟨observation, last⟩
                exact ⟨observation, last.later (by simp [recorded, Outcome.isFailure])⟩
          | success observation =>
              refine ⟨observation, ?_⟩
              cases call with
              | forgetModel forgotten => simp [HealthCall.outcomeFor] at recorded
              | record other outcome seen checked =>
                  simp only [HealthCall.outcomeFor, Option.ite_none_right_eq_some,
                    Option.some.injEq] at recorded
                  rcases recorded with ⟨rfl, rfl⟩
                  exact ⟨calls, [], seen, checked, rfl, by simp [outcomesFor]⟩

theorem history_reached [Lowercase] {topology : Topology} {health : HealthPolicy}
    {placement : PlacementPolicy} {s : Controller}
    (reached : Reaches (Controller.step topology) Always (.new topology health placement) s) :
    s.health = (HealthBook.new topology health).performAll s.history := by
  refine reached.invariant
    (fun s => s.health = (HealthBook.new topology health).performAll s.history) rfl ?_
  intro s action t _ same stepped
  cases action with
  | health call =>
      cases stepped
      simp only [HealthBook.performAll, List.foldl_append, List.foldl_cons, List.foldl_nil] at same ⊢
      rw [same]
  | reconcile now =>
      cases stepped
      exact same
  | succeeded task last =>
      rcases Option.map_eq_some_iff.mp stepped with ⟨_, _, rfl⟩
      exact same
  | failed task last now =>
      rcases Option.map_eq_some_iff.mp stepped with ⟨_, _, rfl⟩
      exact same
  | stop =>
      cases stepped
      exact same

theorem placement_never_swaps [Lowercase] (topology : Topology) (health : HealthPolicy)
    (placement : PlacementPolicy) (s : Controller)
    (reached : Reaches (Controller.step topology) Always (.new topology health placement) s)
    (now : Nat) (met : NothingForgotten topology s (.reconcile now)) :
    ∀ action ∈ s.planned topology now,
      ∃ observation, LastProbe action.node s.history observation ∧ observation.served = none := by
  intro action member
  have planned : PlannedOn topology s.health.nodes s.placement.loading
      (s.placement.backingOff now) action := plan_plannedOn member
  rcases planned.allowed with ⟨route, configured, target, targeted, _, allowed⟩
  rcases planned.empty with
    ⟨deployment, deployed, node, present, named, on, same, _, healthy, serving⟩
  have status : (s.health.nodes node.id).getD .default = s.health.status node.id := rfl
  rw [status] at healthy serving
  have agrees : (s.health.status node.id).health =
      healthOf health.failureThreshold (outcomesFor node.id s.history) := by
    rw [history_reached reached, HealthBook.status,
      (performAll_nodes topology health s.history node.id).2, topology.node_of_mem present]
    exact (follows_run health node.id s.history).health
  rcases lastProbe_of_healthy (agrees.symm.trans healthy) with ⟨observation, last⟩
  refine ⟨observation, same ▸ last, ?_⟩
  by_contra reported
  rw [on] at healthy serving last
  rcases met route configured target targeted deployment deployed (named ▸ allowed)
    ⟨observation, last, reported, serving⟩ with sick | waiting | claimed
  · exact sick healthy
  · rw [named] at waiting
    rw [planned.waiting] at waiting
    cases waiting
  · rw [← on, same] at claimed
    exact planned.unclaimed claimed

section Sample

attribute [local instance] asciiLowercase

def coderRoute : Route :=
  ⟨['C', 'o', 'd', 'e', 'r'], .priority, [probedDeployment.id], some ⟨1, 0, [probedDeployment.id]⟩⟩

/-- One route that wants its one deployment loaded. -/
def coderTopology : Topology :=
  { probedTopology with
    routes := [coderRoute]
    routeNames := by simp
    listed := by decide
    once := by decide
    allowed := by simp [coderRoute]
    unreserved := by decide
    default := by simp [probedTopology] }

def idleProbe : Observation := { servingProbe with served := none }

def freshController : Controller :=
  .new coderTopology ⟨1, by decide, by decide⟩ ⟨10, 60⟩

theorem lastProbe_serving {observation : Observation}
    (last : LastProbe ['a']
      [.record ['a'] (.success servingProbe) 1 2, .forgetModel ['a']] observation) :
    observation = servingProbe := by
  rcases last with ⟨earlier, later, seen, checked, split, _⟩
  cases earlier with
  | nil =>
      rw [List.nil_append, List.cons.injEq, HealthCall.record.injEq, Outcome.success.injEq] at split
      exact split.1.2.1.symm
  | cons first rest =>
      cases rest with
      | nil => simp at split
      | cons second rest => simp at split

/-- A request refused with `model_not_found` makes the node look empty to the next pass. -/
theorem placement_swaps_after_refusal :
    ∃ s, run (Controller.step coderTopology) freshController
        [.health (.record ['a'] (.success servingProbe) 1 2), .health (.forgetModel ['a'])] = some s ∧
      ∃ action ∈ s.planned coderTopology 3,
        ¬ ∃ observation, LastProbe action.node s.history observation ∧
          observation.served = none := by
  refine ⟨_, rfl, ⟨coderRoute.name, probedDeployment.id, ['a'], ['Q', 'w', 'e', 'n']⟩, ?_, ?_⟩
  · decide
  · rintro ⟨observation, last, nothing⟩
    rw [lastProbe_serving last] at nothing
    cases nothing

def idleCall : HealthCall := .record ['a'] (.success idleProbe) 1 2

/-- After one probe of a node that serves nothing. -/
def idleController : Controller :=
  { freshController with
    health := freshController.health.perform idleCall
    history := [idleCall] }

theorem idleController_forgets_nothing :
    NothingForgotten coderTopology idleController (.reconcile 3) := by
  rintro route _ placement _ deployment deployed _ ⟨observation, last, reported, _⟩
  rcases last with ⟨earlier, later, seen, checked, split, _⟩
  cases earlier with
  | nil =>
      rw [List.nil_append] at split
      have same := (List.cons.inj split).1
      rw [idleCall, HealthCall.record.injEq, Outcome.success.injEq] at same
      rw [← same.2.1] at reported
      exact absurd rfl reported
  | cons first rest => simp [idleController] at split

theorem placement_never_swaps_idle_node :
    ∃ action ∈ idleController.planned coderTopology 3,
      ∃ observation, LastProbe action.node idleController.history observation ∧
        observation.served = none := by
  have reached : Reaches (Controller.step coderTopology) Always freshController idleController :=
    Reaches.start.act (.health idleCall) trivial rfl
  have planned : ⟨coderRoute.name, probedDeployment.id, ['a'], ['Q', 'w', 'e', 'n']⟩ ∈
      idleController.planned coderTopology 3 := by decide
  exact ⟨_, planned, placement_never_swaps coderTopology _ _ idleController reached 3
    idleController_forgets_nothing _ planned⟩

theorem placement_bounded_one_load :
    ∃ s, Reaches (Controller.step coderTopology) Always freshController s ∧ s.tasks.length = 1 ∧
      (s.tasks.map fun task => task.action.node).Nodup := by
  have probed : Reaches (Controller.step coderTopology) Always freshController idleController :=
    Reaches.start.act (.health idleCall) trivial rfl
  have reached := probed.act (.reconcile 3) trivial rfl
  exact ⟨_, reached, by decide, (placement_bounded coderTopology _ _ _ reached).1⟩

end Sample

end Lightweight.Router
