import Lightweight.Router.ConfigTopology

/-! Accepting a configuration (`validate` of `lightweight-router/src/config.rs`), what a client's
`model` field names in the topology it gives (`Topology::resolve` of
`lightweight-router/src/domain.rs`), and when that topology is unambiguous. -/

namespace Lightweight.Router

open Lightweight.Core Lightweight.Catalog

section Validate

variable [Lowercase]

theorem findDefaultRoute_lt {routes : List Route} {name : Option (List Char)} :
    ∀ index ∈ (findDefaultRoute routes name).1, index < routes.length := by
  intro index found
  unfold findDefaultRoute at found
  split at found
  · cases found
  · split at found
    · cases found
    · split at found
      · cases found
      · rename_i position
        cases found
        exact (List.findIdx?_eq_some_iff_getElem.mp position).1

/-- The topology of nodes and routes that were checked, whatever they were refused for. -/
def Topology.ofChecked (nodes : CheckedNodes) (goodNodes : GoodNodes nodes) (raw : List RouteFile)
    (default : Option (List Char)) : Topology :=
  let routes := validateRoutes raw nodes.nodes nodes.errors
  have good : GoodRoutes nodes.nodes nodes.errors raw routes :=
    validateRoutes_good goodNodes.parsed raw nodes.errors
  { nodes := nodes.nodes
    deployments := routes.deployments
    routes := routes.routes
    defaultRoute := (findDefaultRoute routes.routes default).1
    nodeIds := by
      rw [List.Nodup, List.pairwise_map]
      apply goodNodes.apart.imp
      intro a b apart same
      simp [eqIgnoreAsciiCase, same] at apart
    deploymentIds := good.deployments.ids goodNodes.parsed
    routeNames := good.names
    hosted := good.deployments.hosted
    listed := good.listed
    once := good.once
    allowed := good.allowed
    unreserved := good.unreserved
    default := findDefaultRoute_lt }

/-- A file has to have a node and a route. -/
def missingSections (file : RouterFile) : List ConfigError :=
  (if file.nodes.isEmpty then [.noNodes] else []) ++ (if file.routes.isEmpty then [.noRoutes] else [])

/-- `earlier` is what the sections before the nodes were refused for, and `auto` what the section
about choosing a route is, once the routes are known. -/
def RouterFile.validate (around : Surroundings) (earlier : List ConfigError)
    (auto : List Route → List ConfigError) (file : RouterFile) :
    Except (List ConfigError) Topology :=
  let before := earlier ++ missingSections file
  let nodes := validateNodes around file.nodes before
  let routes := validateRoutes file.routes nodes.nodes nodes.errors
  let errors := routes.errors ++ (findDefaultRoute routes.routes file.defaultRoute).2 ++
    auto routes.routes
  if errors.isEmpty then
    .ok (Topology.ofChecked nodes (validateNodes_good around file.nodes before) file.routes
      file.defaultRoute)
  else .error errors

/-- A file that is accepted was refused for nothing. -/
theorem RouterFile.validate_eq_ok {around : Surroundings} {earlier : List ConfigError}
    {auto : List Route → List ConfigError} {file : RouterFile} {topology : Topology}
    (accepted : RouterFile.validate around earlier auto file = .ok topology) :
    ∃ nodes : CheckedNodes, GoodNodes nodes ∧ nodes.nodes = topology.nodes ∧
      ∃ routes : CheckedRoutes, GoodRoutes nodes.nodes nodes.errors file.routes routes ∧
        routes.errors = [] ∧ routes.routes = topology.routes ∧
        routes.deployments = topology.deployments := by
  unfold RouterFile.validate at accepted
  dsimp only at accepted
  split at accepted
  · rename_i clean
    cases accepted
    have good := validateNodes_good around file.nodes (earlier ++ missingSections file)
    rw [List.isEmpty_iff, List.append_eq_nil_iff, List.append_eq_nil_iff] at clean
    exact ⟨_, good, rfl, _, validateRoutes_good good.parsed file.routes _, clean.1.1, rfl, rfl⟩
  · cases accepted

end Validate

/-! ### What a name resolves to -/

namespace Topology

variable [Lowercase]

/-- The method `default_route`: the route the index stands for. -/
def defaultRouteEntry (topology : Topology) : Option Route :=
  topology.defaultRoute.bind fun index => topology.routes[index]?

/-- Resolve a client's `model` field to a route. -/
def resolve (topology : Topology) (requested : Option (List Char)) : Except RoutingFailure Route :=
  match ModelSelector.parse requested with
  | .default =>
      match topology.defaultRouteEntry with
      | some route => .ok route
      | none => .error .noDefaultRoute
  | .named name =>
      match topology.routes.find? fun route => RouteName.matches route.name name with
      | some route => .ok route
      | none => .error (.unknownRoute name)

/-- A name is the name of one route at most. -/
theorem matches_unique (topology : Topology) (name : List Char) :
    (topology.routes.filter fun route => RouteName.matches route.name name).length ≤ 1 := by
  have apart := topology.routeNames
  generalize topology.routes = routes at apart
  induction routes with
  | nil => simp
  | cons route rest ih =>
      rw [List.pairwise_cons] at apart
      cases same : RouteName.matches route.name name with
      | false =>
          rw [List.filter_cons_of_neg (by simp [same])]
          exact ih apart.2
      | true =>
          have alone : rest.filter (fun other => RouteName.matches other.name name) = [] := by
            rw [List.filter_eq_nil_iff]
            intro other member twin
            have different := apart.1 other member
            rw [← Bool.not_eq_true, sameName_iff] at different
            exact different ((sameName_iff.mp same).trans (sameName_iff.mp twin).symm)
          rw [List.filter_cons_of_pos (by simpa using same), alone]
          exact Nat.le_refl 1

/-- A name that is asked for is answered by the route that has it, and by no other. -/
theorem resolve_named (topology : Topology) {requested : Option (List Char)} {name : List Char}
    (asked : ModelSelector.parse requested = .named name) (route : Route) :
    topology.resolve requested = .ok route ↔
      route ∈ topology.routes ∧ RouteName.matches route.name name = true := by
  unfold resolve
  rw [asked]
  dsimp only
  cases found : topology.routes.find? fun route => RouteName.matches route.name name with
  | none =>
      simp only [reduceCtorEq, false_iff, not_and]
      exact fun member => List.find?_eq_none.mp found route member
  | some first =>
      have here := List.mem_of_find?_eq_some found
      have same := List.find?_some found
      simp only [Except.ok.injEq]
      constructor
      · rintro rfl
        exact ⟨here, same⟩
      · rintro ⟨member, other⟩
        have few := topology.matches_unique name
        have two : ∀ route ∈ topology.routes, RouteName.matches route.name name = true →
            route ∈ topology.routes.filter fun route => RouteName.matches route.name name :=
          fun route member same => List.mem_filter.mpr ⟨member, same⟩
        rcases List.length_eq_one_iff.mp (Nat.le_antisymm few
          (List.length_pos_of_mem (two first here same))) with ⟨only, single⟩
        have one := two first here same
        have another := two route member other
        rw [single, List.mem_singleton] at one another
        rw [one, another]

end Topology

/-! ### When the topology is unambiguous -/

section Unambiguous

variable [Lowercase]

/-- Of the characters outside ASCII, `str::to_lowercase` makes ASCII text of the Kelvin sign alone,
which becomes a `k`. -/
def KelvinAlone : Prop :=
  ∀ text : List Char, (∀ c ∈ Lowercase.toLowercase text, c.toNat < 128 ∧ c ≠ 'k') →
    ∀ c ∈ text, c.toNat < 128

omit [Lowercase] in
theorem toNat_of_toLower {c : Char} (low : c.toLower.toNat < 128) : c.toNat < 128 := by
  unfold Char.toLower at low
  split at low
  · rename_i upper
    have bound : c.val ≤ 'Z'.val := upper.2
    have wide : 'Z'.val.toNat < 128 := by decide
    exact lt_of_le_of_lt (UInt32.le_iff_toNat_le.mp bound) wide
  · exact low

/-- A name whose letters, each lowered alone, make an ASCII key has that key. -/
theorem lookupKey_of_map {name key : List Char} (low : ∀ c ∈ key, c.toNat < 128)
    (lowered : (trim name).map Char.toLower = key) : lookupKey name = key := by
  rw [← lowered]
  apply Lowercase.ascii
  intro c member
  apply toNat_of_toLower
  apply low
  rw [← lowered]
  exact List.mem_map_of_mem member

/-- A name whose lower case has no `k` and nothing outside ASCII is lowered letter by letter. -/
theorem lookupKey_eq_map (kelvin : KelvinAlone) {name key : List Char}
    (plain : ∀ c ∈ key, c.toNat < 128 ∧ c ≠ 'k') :
    lookupKey name = key ↔ (trim name).map Char.toLower = key := by
  constructor
  · rintro rfl
    exact (Lowercase.ascii _ (kelvin _ plain)).symm
  · exact lookupKey_of_map fun c member => (plain c member).1

/-- Whether a name asks for the default route shows in the form it is compared in. -/
theorem parse_eq_default (kelvin : KelvinAlone) {name : List Char} :
    ModelSelector.parse (some name) = .default ↔
      lookupKey name = [] ∨ lookupKey name = ['d', 'e', 'f', 'a', 'u', 'l', 't'] := by
  rw [lookupKey_eq_map kelvin (by simp), lookupKey_eq_map kelvin (by simp), List.map_eq_nil_iff,
    ← trim_idempotent name, ← isReserved_iff, trim_idempotent]
  simp only [ModelSelector.parse, Option.getD_some]
  split
  · rename_i standing
    simpa using standing
  · rename_i named
    simpa using named

omit [Lowercase] in
theorem parse_eq_named {name : List Char} (asked : ModelSelector.parse (some name) ≠ .default) :
    ModelSelector.parse (some name) = .named (trim name) := by
  simp only [ModelSelector.parse, Option.getD_some] at asked ⊢
  split
  · rename_i standing
    rw [if_pos standing] at asked
    exact absurd rfl asked
  · rfl

/-- Two spellings of one name are answered by one route, or by none. -/
theorem Topology.resolve_caseless (kelvin : KelvinAlone) (topology : Topology) {a b : List Char}
    (same : sameName a b = true) :
    (topology.resolve (some a)).toOption = (topology.resolve (some b)).toOption := by
  rw [sameName_iff] at same
  by_cases standing : ModelSelector.parse (some a) = .default
  · have other : ModelSelector.parse (some b) = .default := by
      rw [parse_eq_default kelvin] at standing ⊢
      rw [← same]
      exact standing
    unfold Topology.resolve
    rw [standing, other]
  · have other : ¬ ModelSelector.parse (some b) = .default := by
      rw [parse_eq_default kelvin] at standing ⊢
      rw [← same]
      exact standing
    have key : ∀ route : Route,
        RouteName.matches route.name (trim a) = RouteName.matches route.name (trim b) := by
      intro route
      simp only [RouteName.matches, sameName, lookupKey, trim_idempotent]
      simp only [lookupKey] at same
      rw [same]
    unfold Topology.resolve
    rw [parse_eq_named standing, parse_eq_named other]
    dsimp only
    simp only [key]
    cases topology.routes.find? fun route => RouteName.matches route.name (trim b) <;> rfl

/-- No name, id or pair in the topology stands for two things. -/
structure Unambiguous (topology : Topology) : Prop where
  nodeIds : topology.nodes.Pairwise fun a b => eqIgnoreAsciiCase a.id b.id = false
  deploymentIds : (topology.deployments.map Deployment.id).Nodup
  models : topology.deployments.Pairwise fun a b =>
    a.node = b.node → sameName a.remoteModel b.remoteModel = false
  hosted : ∀ deployment ∈ topology.deployments, deployment.node ∈ topology.nodes.map Node.id
  nonempty : ∀ route ∈ topology.routes, route.deployments ≠ []
  once : ∀ route ∈ topology.routes, route.deployments.Nodup
  routeNames : topology.routes.Pairwise fun a b => sameName a.name b.name = false
  atMostOne : ∀ name,
    (topology.routes.filter fun route => RouteName.matches route.name name).length ≤ 1
  resolved : ∀ requested name, ModelSelector.parse requested = .named name → ∀ route,
    topology.resolve requested = .ok route ↔
      route ∈ topology.routes ∧ RouteName.matches route.name name = true
  caseless : ∀ a b, sameName a b = true →
    (topology.resolve (some a)).toOption = (topology.resolve (some b)).toOption

/-- An accepted file gives an unambiguous topology just when each of its routes lists a deployment
whose node id is well formed: one whose node id is not is passed over in silence. -/
theorem accepted_unambiguous (kelvin : KelvinAlone) {around : Surroundings}
    {earlier : List ConfigError} {auto : List Route → List ConfigError} {file : RouterFile}
    {topology : Topology} (accepted : RouterFile.validate around earlier auto file = .ok topology) :
    Unambiguous topology ↔ ∀ route ∈ file.routes,
      ∃ listed ∈ route.deployments, (NodeId.parse listed.node).isOk = true := by
  rcases RouterFile.validate_eq_ok accepted with
    ⟨nodes, goodNodes, sameNodes, routes, good, clean, sameRoutes, sameDeployments⟩
  have paired := good.clean clean
  rw [sameRoutes] at paired
  constructor
  · intro unambiguous entry member
    rcases List.mem_iff_getElem.mp member with ⟨i, low, rfl⟩
    have high : i < topology.routes.length := paired.length_eq ▸ low
    exact (paired.get low high).mp
      (unambiguous.nonempty _ (List.getElem_mem high))
  · intro lists
    refine ⟨?_, topology.deploymentIds, ?_, topology.hosted, ?_, topology.once, topology.routeNames,
      topology.matches_unique, fun _ _ asked => topology.resolve_named asked,
      fun _ _ => topology.resolve_caseless kelvin⟩
    · rw [← sameNodes]
      exact goodNodes.apart
    · rw [← sameDeployments]
      exact good.deployments.apart
    · intro route member
      rcases List.mem_iff_getElem.mp member with ⟨i, high, rfl⟩
      have low : i < file.routes.length := paired.length_eq ▸ high
      exact (paired.get low high).mpr (lists _ (List.getElem_mem low))

end Unambiguous

section Sample

attribute [local instance] asciiLowercase

/-- Every variable is set, and every URL is that of a host. -/
def sampleSurroundings : Surroundings where
  env _ := some ['k']
  parseUrl text := some ⟨['h', 't', 't', 'p'], some text, [], none, none, none⟩

/-- One node, and one route that lists one deployment, on `node`. -/
def sampleFile (node : List Char) : RouterFile where
  defaultRoute := some ['r']
  nodes := [⟨['a'], ['h'], true, some ['K', 'E', 'Y']⟩]
  routes := [⟨['R'], .priority, none, [⟨node, ['m']⟩], none⟩]

theorem kelvinAlone_ascii : KelvinAlone := by
  intro text plain c member
  exact toNat_of_toLower (plain c.toLower (List.mem_map_of_mem member)).1

theorem accepted_unambiguous_sample :
    ∃ topology, RouterFile.validate sampleSurroundings [] (fun _ => []) (sampleFile ['a']) = .ok topology ∧
      Unambiguous topology := by
  cases accepted : RouterFile.validate sampleSurroundings [] (fun _ => []) (sampleFile ['a']) with
  | error refused =>
      have impossible : (RouterFile.validate sampleSurroundings [] (fun _ => [])
          (sampleFile ['a'])).isOk = true := by decide
      rw [accepted] at impossible
      cases impossible
  | ok topology =>
      refine ⟨topology, rfl, (accepted_unambiguous kelvinAlone_ascii accepted).mpr ?_⟩
      decide

/-- A route whose one deployment names the node `a b` is accepted without a deployment. -/
theorem accepted_without_deployment :
    ∃ topology, RouterFile.validate sampleSurroundings [] (fun _ => []) (sampleFile ['a', ' ', 'b']) =
      .ok topology ∧ topology.routes.map Route.deployments = [[]] ∧ ¬ Unambiguous topology := by
  have empty : (RouterFile.validate sampleSurroundings [] (fun _ => [])
      (sampleFile ['a', ' ', 'b'])).toOption.map
        (fun topology => topology.routes.map Route.deployments) = some [[]] := by decide
  rcases Option.map_eq_some_iff.mp empty with ⟨topology, accepted, routes⟩
  refine ⟨topology, ?_, routes, ?_⟩
  · cases outcome : RouterFile.validate sampleSurroundings [] (fun _ => []) (sampleFile ['a', ' ', 'b']) with
    | error refused =>
        rw [outcome] at accepted
        cases accepted
    | ok found =>
        rw [outcome] at accepted
        cases accepted
        rfl
  · intro unambiguous
    rcases List.map_eq_singleton_iff.mp routes with ⟨route, only, none'⟩
    apply unambiguous.nonempty route _ none'
    rw [only]
    exact List.mem_cons_self

end Sample

end Lightweight.Router
