import Lightweight.Transition
import Lightweight.Router.Capability
import Lightweight.Router.HealthHistory

/-! Probes recorded in the book while requests are planned from it. `record` writes the observations
under one lock and then the node's status under another; a planner copies the observations and then
the statuses, as `attempt_route` does. -/

namespace Lightweight.Router

open Lightweight.Catalog Transition

/-- A planner's two copies of the book. -/
structure Snapshots where
  observed : DeploymentId → Option DeploymentObservation
  health : NodeId → Option NodeStatus

/-- `recording` are the calls of `record` between their two writes, `reading` the planners between
their two reads and `planned` those that hold both snapshots. -/
structure Readers where
  book : HealthBook
  recording : List (NodeId × Outcome)
  reading : List (DeploymentId → Option DeploymentObservation)
  planned : List Snapshots

inductive ReadersAction where
  | recordObservations (node : NodeId) (outcome : Outcome) (now : Nat)
  | recordStatus (call : Nat) (now : Nat)
  | forgetModel (node : NodeId)
  | readObservations
  | readHealth (planner : Nat)

section Interleaved

variable [Lowercase]

def Readers.new (topology : Topology) (policy : HealthPolicy) : Readers :=
  ⟨.new topology policy, [], [], []⟩

def Readers.step (s : Readers) : ReadersAction → Option Readers
  | .recordObservations node outcome now =>
      some { s with
        book := s.book.recordObservations node outcome now
        recording := s.recording ++ [(node, outcome)] }
  | .recordStatus call now =>
      s.recording[call]?.map fun (node, outcome) =>
        { s with
          book := s.book.recordStatus node outcome now
          recording := s.recording.eraseIdx call }
  | .forgetModel node => some { s with book := s.book.forgetModel node }
  | .readObservations => some { s with reading := s.reading ++ [s.book.deployments] }
  | .readHealth planner =>
      s.reading[planner]?.map fun observed =>
        { s with
          reading := s.reading.eraseIdx planner
          planned := s.planned ++ [⟨observed, s.book.nodes⟩] }

/-- What a plan made from the two snapshots may rely on. -/
def Snapshots.ObservedIfAvailable (topology : Topology) (snapshots : Snapshots) : Prop :=
  ∀ node ∈ topology.nodes, ∀ deployment ∈ topology.deployments, deployment.node = node.id →
    availability node deployment ((snapshots.health node.id).getD .default) = .available →
    (snapshots.observed deployment.id).isSome = true ∧
      ∀ needs, CapabilityGap.unobserved ∉ gaps needs (snapshots.observed deployment.id)

/-- Whether a probe of `node` that ended in `outcome` is about `deployment`. -/
def describes (node : NodeId) (outcome : Outcome) (deployment : Deployment) : Bool :=
  match outcome with
  | .failure _ => false
  | .success observation =>
      match observation.served with
      | none => false
      | some served => deployment.node == node && sameName deployment.remoteModel served.id

/-- The status of a successful probe is not written between the two reads of a planner that has not
copied an observation of a deployment the probe describes. -/
def NotBetweenReads (topology : Topology) (s : Readers) : ReadersAction → Prop
  | .recordStatus call _ =>
      ∀ entry ∈ s.recording[call]?, ∀ observed ∈ s.reading, ∀ deployment ∈ topology.deployments,
        describes entry.1 entry.2 deployment = true → (observed deployment.id).isSome = true
  | _ => True

/-- The statuses in `nodes` make `deployment` available on an enabled node. -/
def Up (nodes : NodeId → Option NodeStatus) (deployment : Deployment) : Prop :=
  ∃ status served, nodes deployment.node = some status ∧ status.health = .healthy ∧
    status.served = some served ∧ sameName served.id deployment.remoteModel = true

/-- An observation, once filed, stays on file. -/
theorem recordObservations_keeps (book : HealthBook) (node : NodeId) (outcome : Outcome) (now : Nat)
    {id : DeploymentId} (filed : (book.deployments id).isSome = true) :
    ((book.recordObservations node outcome now).deployments id).isSome = true := by
  cases outcome with
  | failure reason => exact filed
  | success observation =>
      simp only [HealthBook.recordObservations, HealthBook.observeDeployments]
      cases observation.served with
      | none => exact filed
      | some served =>
          dsimp only
          split
          · rfl
          · exact filed

theorem recordObservations_files (topology : Topology) (book : HealthBook) (node : NodeId)
    (outcome : Outcome) (now : Nat)
    (listed : book.deploymentsOf = topology.deploymentsOn)
    {deployment : Deployment} (configured : deployment ∈ topology.deployments)
    (described : describes node outcome deployment = true) :
    ((book.recordObservations node outcome now).deployments deployment.id).isSome = true := by
  cases outcome with
  | failure reason => simp [describes] at described
  | success observation =>
      simp only [describes] at described
      simp only [HealthBook.recordObservations, HealthBook.observeDeployments]
      cases said : observation.served with
      | none => simp [said] at described
      | some served =>
          simp only [said, Bool.and_eq_true, beq_iff_eq] at described
          have member : (deployment.id, deployment.remoteModel) ∈ book.deploymentsOf node := by
            rw [listed]
            simp only [Topology.deploymentsOn, List.mem_map, List.mem_filter, beq_iff_eq]
            exact ⟨deployment, ⟨configured, described.1⟩, rfl⟩
          have found : deployment.id ∈ ((book.deploymentsOf node).filter
              fun entry => sameName entry.2 served.id).map Prod.fst :=
            List.mem_map.mpr ⟨_, List.mem_filter.mpr ⟨member, described.2⟩, rfl⟩
          simp [found]

theorem recordStatus_up {book : HealthBook} {node : NodeId} {outcome : Outcome} {now : Nat}
    {deployment : Deployment} (up : Up (book.recordStatus node outcome now).nodes deployment) :
    Up book.nodes deployment ∨ describes node outcome deployment = true := by
  rcases up with ⟨status, served, current, healthy, said, same⟩
  simp only [HealthBook.recordStatus, updateNode_nodes] at current
  rcases Option.map_eq_some_iff.mp current with ⟨before, recorded, applied⟩
  by_cases other : node = deployment.node
  · rw [if_pos other] at applied
    subst applied
    cases outcome with
    | success observation =>
        right
        have saw : observation.served = some served := said
        simp [describes, saw, other, sameName_comm deployment.remoteModel, same]
    | failure reason =>
        left
        refine ⟨before, served, recorded, ?_, said, same⟩
        simp only [NodeStatus.apply] at healthy
        split at healthy
        · cases healthy
        · exact healthy
  · rw [if_neg other] at applied
    exact Or.inl ⟨status, served, applied ▸ recorded, healthy, said, same⟩

theorem forgetModel_up {book : HealthBook} {node : NodeId} {deployment : Deployment}
    (up : Up (book.forgetModel node).nodes deployment) : Up book.nodes deployment := by
  rcases up with ⟨status, served, current, healthy, said, same⟩
  simp only [HealthBook.forgetModel, updateNode_nodes] at current
  rcases Option.map_eq_some_iff.mp current with ⟨before, recorded, applied⟩
  by_cases other : node = deployment.node
  · rw [if_pos other] at applied
    subst applied
    cases observed : before.observed <;>
      simp [NodeStatus.forgetModel, NodeStatus.served, observed] at said
  · rw [if_neg other] at applied
    exact ⟨status, served, applied ▸ recorded, healthy, said, same⟩

theorem recordObservations_nodes (book : HealthBook) (node : NodeId) (outcome : Outcome)
    (now : Nat) :
    (book.recordObservations node outcome now).nodes = book.nodes ∧
      (book.recordObservations node outcome now).deploymentsOf = book.deploymentsOf := by
  rcases recordObservations_eq book node outcome now with ⟨deployments, observed⟩
  rw [observed]
  exact ⟨rfl, rfl⟩

/-- Every deployment that is up, or about to be, is on file, and in the copy of every planner. -/
structure Consistent (topology : Topology) (s : Readers) : Prop where
  listed : s.book.deploymentsOf = topology.deploymentsOn
  written : ∀ entry ∈ s.recording, ∀ deployment ∈ topology.deployments,
    describes entry.1 entry.2 deployment = true →
      (s.book.deployments deployment.id).isSome = true
  filed : ∀ deployment ∈ topology.deployments, Up s.book.nodes deployment →
    (s.book.deployments deployment.id).isSome = true
  copied : ∀ observed ∈ s.reading, ∀ deployment ∈ topology.deployments,
    Up s.book.nodes deployment → (observed deployment.id).isSome = true
  planned : ∀ snapshots ∈ s.planned, ∀ deployment ∈ topology.deployments,
    Up snapshots.health deployment → (snapshots.observed deployment.id).isSome = true

theorem consistent_new (topology : Topology) (policy : HealthPolicy) :
    Consistent topology (.new topology policy) where
  listed := rfl
  written := by simp [Readers.new]
  copied := by simp [Readers.new]
  planned := by simp [Readers.new]
  filed := by
    rintro deployment _ ⟨status, served, current, healthy, _⟩
    simp only [Readers.new, HealthBook.new] at current
    rcases Option.map_eq_some_iff.mp current with ⟨node, _, rfl⟩
    cases healthy

theorem consistent_step {topology : Topology} {s t : Readers} {action : ReadersAction}
    (met : NotBetweenReads topology s action) (consistent : Consistent topology s)
    (stepped : s.step action = some t) : Consistent topology t := by
  cases action with
  | recordObservations node outcome now =>
      cases stepped
      have same := recordObservations_nodes s.book node outcome now
      refine ⟨same.2.trans consistent.listed, ?_, ?_, ?_, consistent.planned⟩
      · intro entry member deployment configured described
        rcases List.mem_append.mp member with earlier | last
        · exact recordObservations_keeps _ _ _ _
            (consistent.written entry earlier deployment configured described)
        · rcases List.mem_singleton.mp last with rfl
          exact recordObservations_files topology _ _ _ _ consistent.listed configured described
      · intro deployment configured up
        rw [same.1] at up
        exact recordObservations_keeps _ _ _ _ (consistent.filed deployment configured up)
      · intro observed member deployment configured up
        rw [same.1] at up
        exact consistent.copied observed member deployment configured up
  | recordStatus call now =>
      rcases Option.map_eq_some_iff.mp stepped with ⟨⟨node, outcome⟩, current, rfl⟩
      have inFlight : (node, outcome) ∈ s.recording := List.mem_of_getElem? current
      refine ⟨consistent.listed, ?_, ?_, ?_, consistent.planned⟩
      · intro entry member
        exact consistent.written entry (List.mem_of_mem_eraseIdx member)
      · intro deployment configured up
        rcases recordStatus_up up with before | described
        · exact consistent.filed deployment configured before
        · exact consistent.written _ inFlight deployment configured described
      · intro observed member deployment configured up
        rcases recordStatus_up up with before | described
        · exact consistent.copied observed member deployment configured before
        · exact met _ current observed member deployment configured described
  | forgetModel node =>
      cases stepped
      refine ⟨consistent.listed, consistent.written, ?_, ?_, consistent.planned⟩
      · intro deployment configured up
        exact consistent.filed deployment configured (forgetModel_up up)
      · intro observed member deployment configured up
        exact consistent.copied observed member deployment configured (forgetModel_up up)
  | readObservations =>
      cases stepped
      refine ⟨consistent.listed, consistent.written, consistent.filed, ?_, consistent.planned⟩
      intro observed member
      rcases List.mem_append.mp member with earlier | last
      · exact consistent.copied observed earlier
      · rcases List.mem_singleton.mp last with rfl
        exact consistent.filed
  | readHealth planner =>
      rcases Option.map_eq_some_iff.mp stepped with ⟨observed, current, rfl⟩
      refine ⟨consistent.listed, consistent.written, consistent.filed, ?_, ?_⟩
      · intro other member
        exact consistent.copied other (List.mem_of_mem_eraseIdx member)
      · intro snapshots member
        rcases List.mem_append.mp member with earlier | last
        · exact consistent.planned snapshots earlier
        · rcases List.mem_singleton.mp last with rfl
          exact consistent.copied observed (List.mem_of_getElem? current)

theorem observed_if_available (topology : Topology) (policy : HealthPolicy) (s : Readers)
    (reached : Reaches Readers.step (NotBetweenReads topology) (.new topology policy) s) :
    ∀ snapshots ∈ s.planned, snapshots.ObservedIfAvailable topology := by
  have consistent : Consistent topology s :=
    reached.invariant (Consistent topology) (consistent_new topology policy)
      fun _ _ _ met consistent stepped => consistent_step met consistent stepped
  intro snapshots member node configured deployment listed hosted available
  rcases availability_eq_available.mp available with ⟨_, healthy, served, said, same⟩
  have seen : (snapshots.observed deployment.id).isSome = true := by
    apply consistent.planned snapshots member deployment listed
    rw [← hosted] at healthy said
    cases current : snapshots.health deployment.node with
    | none =>
        rw [current] at healthy
        cases healthy
    | some status =>
        rw [current] at healthy said
        exact ⟨status, served, current, healthy, said, same⟩
  refine ⟨seen, fun needs => ?_⟩
  rcases Option.isSome_iff_exists.mp seen with ⟨observation, copied⟩
  rw [copied]
  exact unobserved_not_mem_gaps needs observation

end Interleaved

section Sample

attribute [local instance] asciiLowercase

/-- A planner copies the observations, the first probe of its node is recorded whole, and the planner
copies the statuses. -/
def overtakenReads : List ReadersAction :=
  [.readObservations, .recordObservations ['a'] (.success servingProbe) 1, .recordStatus 0 2,
    .readHealth 0]

theorem available_unobserved_after_probe :
    ∃ s, run Readers.step (.new probedTopology ⟨1, by decide, by decide⟩) overtakenReads = some s ∧
      ∃ snapshots ∈ s.planned, ¬ snapshots.ObservedIfAvailable probedTopology := by
  refine ⟨_, rfl, _, List.mem_singleton_self _, ?_⟩
  intro promised
  have seen := promised probedNode (by decide) probedDeployment (by decide) rfl (by decide)
  exact absurd seen.1 (by decide)

theorem observed_if_available_probe_first :
    ∃ s, Reaches Readers.step (NotBetweenReads probedTopology)
        (.new probedTopology ⟨1, by decide, by decide⟩) s ∧
      s.planned.length = 1 ∧ ∀ snapshots ∈ s.planned, snapshots.ObservedIfAvailable probedTopology := by
  have observed : Reaches Readers.step (NotBetweenReads probedTopology)
      (.new probedTopology ⟨1, by decide, by decide⟩) _ :=
    Reaches.start.act (.recordObservations ['a'] (.success servingProbe) 1) trivial rfl
  have recorded := observed.act (.recordStatus 0 2) (fun _ _ _ member => by cases member) rfl
  have planned := (recorded.act .readObservations trivial rfl).act (.readHealth 0) trivial rfl
  exact ⟨_, planned, rfl, observed_if_available probedTopology _ _ planned⟩

end Sample

end Lightweight.Router
