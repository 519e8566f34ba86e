import Lightweight.Router.Config

/-! What an accepted configuration is: the invariants that the check of its nodes and routes keeps
from entry to entry, the topology they make, and what a client's name resolves to in it. -/

namespace Lightweight.Router

open Lightweight.Core Lightweight.Catalog

/-! ### Nodes -/

theorem NodeId.parse_eq_ok {raw : List Char} {id : NodeId} :
    NodeId.parse raw = .ok id ↔ id = trim raw ∧ trim raw ≠ [] ∧
      (trim raw).length ≤ maxNodeIdChars ∧ ∀ c ∈ trim raw, isNodeIdChar c = true := by
  unfold NodeId.parse
  dsimp only
  split_ifs with empty long
  · simp_all
  · simp only [false_iff, not_and]
    intro _ _ short
    exact absurd long (Nat.not_lt.mpr short)
  · have some' : trim raw ≠ [] := by simpa using empty
    split
    · rename_i bad found
      simp only [reduceCtorEq, false_iff, not_and, not_forall]
      intro _ _ _
      refine ⟨bad, List.mem_of_find?_eq_some found, ?_⟩
      simpa using List.find?_some found
    · rename_i none'
      rw [List.find?_eq_none] at none'
      constructor
      · intro same
        refine ⟨(Except.ok.inj same).symm, some', Nat.not_lt.mp long, ?_⟩
        intro c member
        simpa using none' c member
      · rintro ⟨rfl, _⟩
        rfl

theorem NodeId.parse_trim (raw : List Char) : NodeId.parse (trim raw) = NodeId.parse raw := by
  unfold NodeId.parse
  rw [trim_idempotent]

/-- An id that was parsed is parsed again as it is. -/
theorem NodeId.parse_parsed {raw : List Char} {id : NodeId} (parsed : NodeId.parse raw = .ok id) :
    NodeId.parse id = .ok id := by
  rw [(NodeId.parse_eq_ok.mp parsed).1, NodeId.parse_trim, ← (NodeId.parse_eq_ok.mp parsed).1]
  exact parsed

theorem isNodeIdChar_ne_slash {c : Char} (plain : isNodeIdChar c = true) : c ≠ '/' := by
  rintro rfl
  revert plain
  decide

/-- The nodes so far: their ids parse, are recorded as seen and differ in more than case. -/
structure GoodNodes (state : CheckedNodes) : Prop where
  parsed : ∀ node ∈ state.nodes, NodeId.parse node.id = .ok node.id
  seen : ∀ node ∈ state.nodes, node.id.map Char.toLower ∈ state.seen
  apart : state.nodes.Pairwise fun a b => eqIgnoreAsciiCase a.id b.id = false

theorem checkNode_good (around : Surroundings) {state : CheckedNodes} (good : GoodNodes state)
    (entry : NodeFile) : GoodNodes (checkNode around state entry) := by
  unfold checkNode
  split
  · exact ⟨good.parsed, good.seen, good.apart⟩
  · rename_i id parsed
    split
    · exact ⟨good.parsed, good.seen, good.apart⟩
    · rename_i fresh
      rw [List.contains_iff_mem] at fresh
      have earlier : ∀ node ∈ state.nodes,
          node.id.map Char.toLower ∈ state.seen ++ [id.map Char.toLower] := fun node member =>
        List.mem_append_left _ (good.seen node member)
      cases validateUrl around.parseUrl entry.url with
      | error problem => exact ⟨good.parsed, earlier, good.apart⟩
      | ok url =>
          constructor
          · intro node member
            rcases List.mem_append.mp member with old | last
            · exact good.parsed node old
            · rw [List.mem_singleton.mp last]
              exact NodeId.parse_parsed parsed
          · intro node member
            rcases List.mem_append.mp member with old | last
            · exact earlier node old
            · rw [List.mem_singleton.mp last]
              exact List.mem_append_right _ List.mem_cons_self
          · apply List.pairwise_append.mpr
            refine ⟨good.apart, List.pairwise_singleton _ _, ?_⟩
            intro node old other last
            rw [List.mem_singleton.mp last]
            by_contra same
            simp only [eqIgnoreAsciiCase, Bool.not_eq_false, beq_iff_eq] at same
            apply fresh
            rw [← same]
            exact good.seen node old

theorem validateNodes_good (around : Surroundings) (raw : List NodeFile)
    (errors : List ConfigError) : GoodNodes (validateNodes around raw errors) := by
  apply List.foldlRecOn raw (checkNode around) (motive := GoodNodes)
  · exact ⟨by simp, by simp, List.Pairwise.nil⟩
  · intro state good entry _
    exact checkNode_good around good entry

/-! ### Deployments -/

section Deployments

variable [Lowercase]

/-- The deployments so far: each is on a node, named for its node and model, and no two of one node
have the same model. -/
structure GoodDeployments (nodes : List Node) (deployments : List Deployment) : Prop where
  hosted : ∀ deployment ∈ deployments, deployment.node ∈ nodes.map Node.id
  named : ∀ deployment ∈ deployments,
    deployment.id = DeploymentId.of deployment.node deployment.remoteModel
  apart : deployments.Pairwise fun a b =>
    a.node = b.node → sameName a.remoteModel b.remoteModel = false

theorem GoodDeployments.append {nodes : List Node} {deployments : List Deployment}
    (good : GoodDeployments nodes deployments) {node : Node} (member : node ∈ nodes)
    {model : List Char} (fresh : ∀ deployment ∈ deployments,
      (deployment.node == node.id && sameName deployment.remoteModel model) = false) :
    GoodDeployments nodes
      (deployments ++ [⟨DeploymentId.of node.id model, node.id, model⟩]) := by
  constructor
  · intro deployment listed
    rcases List.mem_append.mp listed with old | last
    · exact good.hosted deployment old
    · rw [List.mem_singleton.mp last]
      exact List.mem_map_of_mem member
  · intro deployment listed
    rcases List.mem_append.mp listed with old | last
    · exact good.named deployment old
    · rw [List.mem_singleton.mp last]
  · apply List.pairwise_append.mpr
    refine ⟨good.apart, List.pairwise_singleton _ _, ?_⟩
    intro deployment old other last
    rw [List.mem_singleton.mp last]
    intro same
    have different := fresh deployment old
    rw [same, beq_self_eq_true, Bool.true_and] at different
    exact different

omit [Lowercase] in
/-- A node id has no slash in it, so a deployment's id tells its node and its model. -/
theorem DeploymentId.of_inj {node other : NodeId} (plain : ∀ c ∈ node, c ≠ '/')
    (plain' : ∀ c ∈ other, c ≠ '/') {model model' : List Char}
    (same : DeploymentId.of node model = DeploymentId.of other model') :
    node = other ∧ model = model' := by
  unfold DeploymentId.of at same
  induction node generalizing other with
  | nil =>
      cases other with
      | nil => exact ⟨rfl, (List.cons.inj same).2⟩
      | cons c rest => exact absurd (List.cons.inj same).1.symm (plain' c List.mem_cons_self)
  | cons c rest ih =>
      cases other with
      | nil => exact absurd (List.cons.inj same).1 (plain c List.mem_cons_self)
      | cons d others =>
          rcases List.cons.inj same with ⟨rfl, tail⟩
          have parts := ih (fun c member => plain c (List.mem_cons_of_mem _ member))
            (fun c member => plain' c (List.mem_cons_of_mem _ member)) tail
          exact ⟨by rw [parts.1], parts.2⟩

theorem GoodDeployments.ids {nodes : List Node} {deployments : List Deployment}
    (good : GoodDeployments nodes deployments)
    (parsed : ∀ node ∈ nodes, NodeId.parse node.id = .ok node.id) :
    (deployments.map Deployment.id).Nodup := by
  have plain : ∀ deployment ∈ deployments, ∀ c ∈ deployment.node, c ≠ '/' := by
    intro deployment listed c member
    rcases List.mem_map.mp (good.hosted deployment listed) with ⟨node, present, same⟩
    have checked := NodeId.parse_eq_ok.mp (parsed node present)
    rw [← same, checked.1] at member
    exact isNodeIdChar_ne_slash (checked.2.2.2 c member)
  rw [List.Nodup, List.pairwise_map]
  apply good.apart.imp_of_mem
  intro a b first second apart same
  rw [good.named a first, good.named b second] at same
  have parts := DeploymentId.of_inj (plain a first) (plain b second) same
  have different := apart parts.1
  rw [parts.2] at different
  simp [sameName] at different

/-- The deployment a listed pair stands for: the one that is there, or a new one. -/
theorem checkListed_some {nodes : List Node} {route : RouteName} {state : CheckedMembers}
    {listed : DeploymentFile} {node : Node}
    (found : nodes.find? (fun node => node.id == trim listed.node) = some node) :
    (∃ error, checkListed nodes route state listed =
      { state with errors := state.errors ++ [error] }) ∨
    ∃ id deployments, (deployments = state.deployments ∨
        deployments = state.deployments ++
          [⟨DeploymentId.of node.id (trim listed.model), node.id, trim listed.model⟩] ∧
        ∀ deployment ∈ state.deployments, (deployment.node == node.id &&
          sameName deployment.remoteModel (trim listed.model)) = false) ∧
      id ∈ deployments.map Deployment.id ∧
      ((∃ error, checkListed nodes route state listed =
          { state with deployments, errors := state.errors ++ [error] }) ∨
        id ∉ state.members ∧ checkListed nodes route state listed =
          { state with members := state.members ++ [id], deployments }) := by
  unfold checkListed
  rw [found]
  dsimp only
  split
  · exact Or.inl ⟨_, rfl⟩
  · split
    · exact Or.inl ⟨_, rfl⟩
    · right
      cases existing : state.deployments.find? fun deployment =>
          deployment.node == node.id && sameName deployment.remoteModel (trim listed.model) with
      | some deployment =>
          refine ⟨deployment.id, state.deployments, Or.inl rfl,
            List.mem_map_of_mem (List.mem_of_find?_eq_some existing), ?_⟩
          dsimp only
          split
          · exact Or.inl ⟨_, rfl⟩
          · rename_i fresh
            rw [List.contains_iff_mem] at fresh
            exact Or.inr ⟨fresh, rfl⟩
      | none =>
          rw [List.find?_eq_none] at existing
          refine ⟨DeploymentId.of node.id (trim listed.model), _, Or.inr ⟨rfl, ?_⟩, by simp, ?_⟩
          · intro deployment member
            simpa using existing deployment member
          · dsimp only
            split
            · exact Or.inl ⟨_, rfl⟩
            · rename_i fresh
              rw [List.contains_iff_mem] at fresh
              exact Or.inr ⟨fresh, rfl⟩

theorem checkListed_none {nodes : List Node} {route : RouteName} {state : CheckedMembers}
    {listed : DeploymentFile}
    (missing : nodes.find? (fun node => node.id == trim listed.node) = none) :
    (∃ error, checkListed nodes route state listed =
      { state with errors := state.errors ++ [error] }) ∨
    checkListed nodes route state listed = state ∧
      ((NodeId.parse listed.node).isOk = false ∨ state.errors ≠ []) := by
  unfold checkListed
  rw [missing]
  dsimp only
  split
  · exact Or.inl ⟨_, rfl⟩
  · rename_i quiet
    refine Or.inr ⟨rfl, ?_⟩
    rw [Bool.and_eq_true, not_and_or, Bool.not_eq_true] at quiet
    rcases quiet with malformed | reported
    · exact Or.inl malformed
    · right
      intro none'
      simp [none'] at reported

/-- The members of a route after the deployments `done` of its list. While nothing was refused,
there are members as soon as one names a node id that parses. -/
structure GoodMembers (nodes : List Node) (start : CheckedMembers) (done : List DeploymentFile)
    (state : CheckedMembers) : Prop where
  deployments : GoodDeployments nodes state.deployments
  kept : start.deployments <+: state.deployments
  refused : start.errors <+: state.errors
  once : state.members.Nodup
  listed : ∀ id ∈ state.members, id ∈ state.deployments.map Deployment.id
  clean : state.errors = [] → (state.members ≠ [] ↔
    ∃ listed ∈ done, (NodeId.parse listed.node).isOk = true)

section Members

variable {nodes : List Node} {start state : CheckedMembers} {done : List DeploymentFile}

/-- An entry that is refused. -/
theorem GoodMembers.refuse (good : GoodMembers nodes start done state) {deployments : List Deployment}
    (stored : GoodDeployments nodes deployments) (grown : state.deployments <+: deployments)
    (error : ConfigError) (listed : DeploymentFile) :
    GoodMembers nodes start (done ++ [listed])
      { state with deployments, errors := state.errors ++ [error] } where
  deployments := stored
  kept := good.kept.trans grown
  refused := good.refused.trans (List.prefix_append _ _)
  once := good.once
  listed := by
    intro id member
    rcases List.mem_map.mp (good.listed id member) with ⟨deployment, old, same⟩
    exact List.mem_map.mpr ⟨deployment, grown.subset old, same⟩
  clean := by simp

/-- An entry that is a member, on a node that is configured. -/
theorem GoodMembers.store (good : GoodMembers nodes start done state) {deployments : List Deployment}
    (stored : GoodDeployments nodes deployments) (grown : state.deployments <+: deployments)
    {id : DeploymentId} (present : id ∈ deployments.map Deployment.id) (fresh : id ∉ state.members)
    {listed : DeploymentFile} (parsed : (NodeId.parse listed.node).isOk = true) :
    GoodMembers nodes start (done ++ [listed])
      { state with members := state.members ++ [id], deployments } where
  deployments := stored
  kept := good.kept.trans grown
  refused := good.refused
  once := by
    rw [List.nodup_append]
    refine ⟨good.once, List.nodup_singleton id, ?_⟩
    intro old member last final same
    rw [same, List.mem_singleton.mp final] at member
    exact fresh member
  listed := by
    intro other member
    rcases List.mem_append.mp member with old | last
    · rcases List.mem_map.mp (good.listed other old) with ⟨deployment, held, same⟩
      exact List.mem_map.mpr ⟨deployment, grown.subset held, same⟩
    · rw [List.mem_singleton.mp last]
      exact present
  clean := by
    intro _
    simp only [ne_eq, List.append_eq_nil_iff, List.cons_ne_self, and_false, not_false_eq_true,
      true_iff]
    exact ⟨listed, List.mem_append_right _ List.mem_cons_self, parsed⟩

theorem checkListed_good (parsed : ∀ node ∈ nodes, NodeId.parse node.id = .ok node.id)
    (route : RouteName) (good : GoodMembers nodes start done state) (listed : DeploymentFile) :
    GoodMembers nodes start (done ++ [listed]) (checkListed nodes route state listed) := by
  cases found : nodes.find? fun node => node.id == trim listed.node with
  | none =>
      rcases checkListed_none found with ⟨error, refused⟩ | ⟨same, quiet⟩
      · rw [refused]
        exact good.refuse good.deployments List.prefix_rfl error listed
      · rw [same]
        refine ⟨good.deployments, good.kept, good.refused, good.once, good.listed, ?_⟩
        intro clean
        have malformed : (NodeId.parse listed.node).isOk = false := by
          rcases quiet with malformed | reported
          · exact malformed
          · exact absurd clean reported
        rw [good.clean clean]
        simp [malformed, or_and_right, exists_or]
  | some node =>
      have member := List.mem_of_find?_eq_some found
      have named : node.id = trim listed.node := by simpa using List.find?_some found
      have wellFormed : (NodeId.parse listed.node).isOk = true := by
        rw [← NodeId.parse_trim, ← named, parsed node member]
        rfl
      rcases checkListed_some found with ⟨error, refused⟩ | ⟨id, deployments, grown, present, ending⟩
      · rw [refused]
        exact good.refuse good.deployments List.prefix_rfl error listed
      · have stored : GoodDeployments nodes deployments ∧ state.deployments <+: deployments := by
          rcases grown with rfl | ⟨rfl, fresh⟩
          · exact ⟨good.deployments, List.prefix_rfl⟩
          · exact ⟨good.deployments.append member fresh, List.prefix_append _ _⟩
        rcases ending with ⟨error, refused⟩ | ⟨fresh, added⟩
        · rw [refused]
          exact good.refuse stored.1 stored.2 error listed
        · rw [added]
          exact good.store stored.1 stored.2 present fresh wellFormed

theorem foldl_checkListed_good (parsed : ∀ node ∈ nodes, NodeId.parse node.id = .ok node.id)
    (route : RouteName) (deployments : GoodDeployments nodes start.deployments)
    (empty : start.members = []) (all : List DeploymentFile) :
    GoodMembers nodes start all (all.foldl (checkListed nodes route) start) := by
  induction all using List.reverseRecOn with
  | nil =>
      refine ⟨deployments, List.prefix_rfl, List.prefix_rfl, ?_, ?_, ?_⟩
      · rw [List.foldl_nil, empty]
        exact List.nodup_nil
      · rw [List.foldl_nil, empty]
        simp
      · simp [empty]
  | append_singleton done listed ih =>
      rw [List.foldl_append]
      exact checkListed_good parsed route ih listed

end Members

end Deployments

/-! ### Placement -/

theorem pairwise_idxOf {α : Type} [BEq α] [LawfulBEq α] {xs : List α} (once : xs.Nodup) :
    xs.Pairwise fun a b => xs.idxOf a ≤ xs.idxOf b := by
  rw [List.pairwise_iff_getElem]
  intro i j low high less
  rw [once.idxOf_getElem, once.idxOf_getElem]
  exact less.le

/-- Sorted by where it stands in the list it is taken from, a selection is a sublist of it. -/
theorem insertionSort_idxOf_sublist {α : Type} [BEq α] [LawfulBEq α] {xs part : List α}
    (once : xs.Nodup) (once' : part.Nodup) (inside : part ⊆ xs) :
    (part.insertionSort fun a b => xs.idxOf a ≤ xs.idxOf b).Sublist xs := by
  let earlier : α → α → Prop := fun a b => xs.idxOf a ≤ xs.idxOf b
  have total : Std.Total earlier := ⟨fun a b => Nat.le_total _ _⟩
  have trans : IsTrans α earlier := ⟨fun a b c => Nat.le_trans⟩
  have permuted : (part.insertionSort earlier).Perm (xs.filter part.contains) := by
    rw [List.perm_ext_iff_of_nodup ((List.perm_insertionSort earlier part).nodup_iff.mpr once')
      (once.filter _)]
    intro a
    rw [(List.perm_insertionSort earlier part).mem_iff, List.mem_filter, List.contains_iff_mem]
    exact ⟨fun member => ⟨inside member, member⟩, fun both => both.2⟩
  have same : part.insertionSort earlier = xs.filter part.contains := by
    refine List.Perm.eq_of_pairwise ?_ (List.pairwise_insertionSort earlier part)
      ((pairwise_idxOf once).filter _) permuted
    intro a b first _ below above
    rw [(List.perm_insertionSort earlier part).mem_iff] at first
    exact (List.idxOf_inj (inside first)).mp (Nat.le_antisymm below above)
  show (part.insertionSort earlier).Sublist xs
  rw [same]
  exact List.filter_sublist

theorem mem_membersOn {members : List DeploymentId} {deployments : List Deployment}
    {node : List Char} {id : DeploymentId} : id ∈ membersOn members deployments node ↔
      id ∈ members ∧ ∃ deployment ∈ deployments, deployment.id = id ∧
        deployment.node.map Char.toLower = node.map Char.toLower := by
  simp [membersOn, eqIgnoreAsciiCase]

/-- Nodes that differ in more than case have no members in common, so nothing is allowed twice. -/
theorem allowedOn_once {members : List DeploymentId} {deployments : List Deployment}
    (unique : (deployments.map Deployment.id).Nodup) (once : members.Nodup)
    {nodes : List (List Char)} {named : List (List Char)} {allowed result : List DeploymentId}
    (nodup : allowed.Nodup) (inside : allowed ⊆ members)
    (from' : ∀ id ∈ allowed, ∃ deployment ∈ deployments, deployment.id = id ∧
      deployment.node.map Char.toLower ∈ named)
    (accepted : allowedOn members deployments nodes named allowed = .ok result) :
    result.Nodup ∧ result ⊆ members := by
  induction nodes generalizing named allowed with
  | nil =>
      cases accepted
      exact ⟨nodup, inside⟩
  | cons node rest ih =>
      unfold allowedOn at accepted
      split at accepted
      · cases accepted
      · rename_i fresh
        rw [List.contains_iff_mem] at fresh
        split at accepted
        · cases accepted
        · apply ih _ _ _ accepted
          · rw [List.nodup_append]
            refine ⟨nodup, once.filter _, ?_⟩
            intro id before other found same
            rw [← same] at found
            rcases from' id before with ⟨deployment, held, rfl, old⟩
            rcases (mem_membersOn.mp found).2 with ⟨twin, listed, sameId, here⟩
            rw [List.inj_on_of_nodup_map unique listed held sameId] at here
            rw [here] at old
            exact fresh old
          · intro id member
            rcases List.mem_append.mp member with before | found
            · exact inside before
            · exact (mem_membersOn.mp found).1
          · intro id member
            rcases List.mem_append.mp member with before | found
            · rcases from' id before with ⟨deployment, held, same, old⟩
              exact ⟨deployment, held, same, List.mem_append_left _ old⟩
            · rcases (mem_membersOn.mp found).2 with ⟨deployment, held, same, here⟩
              refine ⟨deployment, held, same, List.mem_append_right _ ?_⟩
              rw [here]
              exact List.mem_cons_self

theorem validateRoutePlacement_allowed {raw : RoutePlacementFile} {members : List DeploymentId}
    {deployments : List Deployment} (unique : (deployments.map Deployment.id).Nodup)
    (once : members.Nodup) {placement : RoutePlacement}
    (accepted : validateRoutePlacement raw members deployments = .ok placement) :
    placement.allowed.Sublist members := by
  unfold validateRoutePlacement at accepted
  split at accepted
  · cases accepted
  · split at accepted
    · cases accepted
    · split at accepted
      · cases accepted
      · rename_i allowed found
        dsimp only at accepted
        split at accepted
        · cases accepted
        · cases accepted
          have part := allowedOn_once unique once List.nodup_nil (List.nil_subset members)
            (by simp) found
          exact insertionSort_idxOf_sublist once part.1 part.2

/-! ### Routes -/

theorem RouteName.parse_unreserved {raw : List Char} {name : RouteName}
    (accepted : RouteName.parse raw = .ok name) : isReserved name = false := by
  unfold RouteName.parse validateAlias at accepted
  dsimp only at accepted
  split_ifs at accepted with _ _ reserved
  split at accepted
  · cases accepted
  · cases accepted
    simpa using reserved

section Routes

variable [Lowercase]

/-- An entry is refused, or is one more route. -/
theorem checkRoute_cases (nodes : List Node) (state : CheckedRoutes) (entry : RouteFile) :
    (∃ error, checkRoute nodes state entry = { state with errors := state.errors ++ [error] }) ∨
    ∃ name checked placement later, RouteName.parse entry.name = .ok name ∧
      (∀ route ∈ state.routes, sameName route.name name = false) ∧
      checked = entry.deployments.foldl (checkListed nodes name)
        ⟨[], state.deployments, state.errors⟩ ∧
      (∀ placed ∈ placement, ∃ raw,
        validateRoutePlacement raw checked.members checked.deployments = .ok placed) ∧
      checkRoute nodes state entry =
        ⟨state.routes ++ [⟨name, entry.strategy, checked.members, placement⟩],
          checked.deployments, checked.errors ++ later⟩ := by
  unfold checkRoute
  split
  · exact Or.inl ⟨_, rfl⟩
  · exact Or.inl ⟨_, rfl⟩
  · rename_i name parsed
    split
    · exact Or.inl ⟨_, rfl⟩
    · rename_i fresh
      split
      · exact Or.inl ⟨_, rfl⟩
      · right
        dsimp only
        rw [List.append_assoc]
        refine ⟨name, _, _, _, parsed, ?_, rfl, ?_, rfl⟩
        · intro route member
          simp only [RouteName.matches, List.any_eq_true, not_exists, not_and,
            Bool.not_eq_true] at fresh
          exact fresh route member
        · intro placed member
          rcases Option.bind_eq_some_iff.mp member with ⟨outcome, mapped, okay⟩
          rcases Option.map_eq_some_iff.mp mapped with ⟨raw, _, rfl⟩
          refine ⟨raw, ?_⟩
          cases checkedPlacement : validateRoutePlacement raw _ _ with
          | error problem =>
              rw [checkedPlacement] at okay
              cases okay
          | ok found =>
              rw [checkedPlacement] at okay
              cases okay
              rfl

/-- The routes after the entries `done` of the file. While nothing was refused there is one for
each, with a deployment just when the entry lists one whose node id parses. -/
structure GoodRoutes (nodes : List Node) (start : List ConfigError) (done : List RouteFile)
    (state : CheckedRoutes) : Prop where
  deployments : GoodDeployments nodes state.deployments
  refused : start <+: state.errors
  names : state.routes.Pairwise fun a b => sameName a.name b.name = false
  unreserved : ∀ route ∈ state.routes, isReserved route.name = false
  listed : ∀ route ∈ state.routes, ∀ id ∈ route.deployments,
    id ∈ state.deployments.map Deployment.id
  once : ∀ route ∈ state.routes, route.deployments.Nodup
  allowed : ∀ route ∈ state.routes, ∀ placement ∈ route.placement,
    placement.allowed.Sublist route.deployments
  clean : state.errors = [] → List.Forall₂ (fun entry route => route.deployments ≠ [] ↔
    ∃ listed ∈ entry.deployments, (NodeId.parse listed.node).isOk = true) done state.routes

theorem checkRoute_good {nodes : List Node}
    (parsed : ∀ node ∈ nodes, NodeId.parse node.id = .ok node.id) {start : List ConfigError}
    {done : List RouteFile} {state : CheckedRoutes} (good : GoodRoutes nodes start done state)
    (entry : RouteFile) :
    GoodRoutes nodes start (done ++ [entry]) (checkRoute nodes state entry) := by
  rcases checkRoute_cases nodes state entry with
    ⟨error, refused⟩ | ⟨name, checked, placement, later, named, fresh, folded, placed, grown⟩
  · rw [refused]
    exact ⟨good.deployments, good.refused.trans (List.prefix_append _ _), good.names,
      good.unreserved, good.listed, good.once, good.allowed, by simp⟩
  · have members : GoodMembers nodes ⟨[], state.deployments, state.errors⟩ entry.deployments
        checked := by
      rw [folded]
      exact foldl_checkListed_good parsed name good.deployments rfl entry.deployments
    rw [grown]
    constructor
    · exact members.deployments
    · exact (good.refused.trans members.refused).trans (List.prefix_append _ _)
    · apply List.pairwise_append.mpr
      refine ⟨good.names, List.pairwise_singleton _ _, ?_⟩
      intro route old other last
      rw [List.mem_singleton.mp last]
      exact fresh route old
    · intro route member
      rcases List.mem_append.mp member with old | last
      · exact good.unreserved route old
      · rw [List.mem_singleton.mp last]
        exact RouteName.parse_unreserved named
    · intro route member id listed
      rcases List.mem_append.mp member with old | last
      · rcases List.mem_map.mp (good.listed route old id listed) with ⟨deployment, held, same⟩
        exact List.mem_map.mpr ⟨deployment, members.kept.subset held, same⟩
      · rw [List.mem_singleton.mp last] at listed
        exact members.listed id listed
    · intro route member
      rcases List.mem_append.mp member with old | last
      · exact good.once route old
      · rw [List.mem_singleton.mp last]
        exact members.once
    · intro route member allowed present
      rcases List.mem_append.mp member with old | last
      · exact good.allowed route old allowed present
      · rw [List.mem_singleton.mp last] at present ⊢
        rcases placed allowed present with ⟨raw, accepted⟩
        exact validateRoutePlacement_allowed (members.deployments.ids parsed) members.once accepted
    · intro clean
      have quiet : checked.errors = [] := (List.append_eq_nil_iff.mp clean).1
      have before : state.errors = [] := by
        have shorter := members.refused
        rw [quiet] at shorter
        exact List.prefix_nil.mp shorter
      exact List.rel_append (good.clean before)
        (List.Forall₂.cons (members.clean quiet) List.Forall₂.nil)

theorem validateRoutes_good {nodes : List Node}
    (parsed : ∀ node ∈ nodes, NodeId.parse node.id = .ok node.id) (raw : List RouteFile)
    (errors : List ConfigError) :
    GoodRoutes nodes errors raw (validateRoutes raw nodes errors) := by
  unfold validateRoutes
  induction raw using List.reverseRecOn with
  | nil => exact ⟨⟨by simp, by simp, List.Pairwise.nil⟩, List.prefix_rfl, List.Pairwise.nil, by simp,
      by simp, by simp, by simp, fun _ => List.Forall₂.nil⟩
  | append_singleton done entry ih =>
      rw [List.foldl_append]
      exact checkRoute_good parsed ih entry

end Routes

end Lightweight.Router
