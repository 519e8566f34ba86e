import Lightweight.Router.AutoRoute
import Lightweight.Router.FallbackLists

/-! The names that an accepted configuration uses are those of its routes: the names `Auto` can
resolve to, those of the routes that only classify, and those in its fallback lists. -/

namespace Lightweight.Router

open Lightweight.Core Lightweight.Catalog

/-- An accepted name is some text, with no white space around it. -/
theorem validateAlias_trimmed {raw name : List Char} (accepted : validateAlias raw = .ok name) :
    trim name = name ∧ name ≠ [] := by
  unfold validateAlias at accepted
  dsimp only at accepted
  split_ifs at accepted with empty
  split at accepted
  · cases accepted
  · cases accepted
    exact ⟨trim_idempotent raw, by simpa using empty⟩

section Names

variable [Lowercase]

/-- A route's name is some text, with no white space around it. -/
theorem validateRoutes_trimmed (raw : List RouteFile) (nodes : List Node) (errors : List ConfigError) :
    ∀ route ∈ (validateRoutes raw nodes errors).routes,
      trim route.name = route.name ∧ route.name ≠ [] := by
  unfold validateRoutes
  induction raw using List.reverseRecOn with
  | nil => simp
  | append_singleton done entry ih =>
      rw [List.foldl_append, List.foldl_cons, List.foldl_nil]
      rcases checkRoute_cases nodes (done.foldl (checkRoute nodes) ⟨[], [], errors⟩) entry with
        ⟨error, refused⟩ | ⟨name, checked, placement, later, named, _, _, _, grown⟩
      · rw [refused]
        exact ih
      · rw [grown]
        intro route member
        rcases List.mem_append.mp member with old | last
        · exact ih route old
        · rw [List.mem_singleton.mp last]
          exact validateAlias_trimmed named

end Names

namespace Classifier

variable [Lowercase]

theorem configured_listed {name : List Char} {routes : List Described} {route : RouteName}
    (found : configured name routes = .ok route) : route ∈ routes.map Described.name := by
  unfold configured at found
  split_ifs at found
  split at found
  · rename_i named searched
    cases found
    exact List.mem_map_of_mem (List.mem_of_find?_eq_some searched)
  · cases found

theorem checkCandidates_listed (routes : List Described) (names : List (List Char)) :
    ∀ candidate ∈ (checkCandidates routes names).candidates,
      candidate.route ∈ routes.map Described.name := by
  apply List.foldlRecOn names (checkCandidate routes)
    (motive := fun state => ∀ candidate ∈ state.candidates,
      candidate.route ∈ routes.map Described.name)
  · simp
  · intro state listed name _
    unfold checkCandidate
    split
    · rename_i route found
      split
      · exact listed
      · intro candidate member
        rcases List.mem_append.mp member with old | last
        · exact listed candidate old
        · rw [List.mem_singleton.mp last]
          exact configured_listed found
    · exact listed

omit [Lowercase] in
theorem report_result {α : Type} {say : TargetProblem → Problem} {found : Except TargetProblem α}
    {result : α} (reported : (report say found).result = some result) : found = .ok result := by
  cases found with
  | error problem => cases reported
  | ok found => exact congrArg _ (Option.some.inj reported)

theorem checkLightweight_listed {raw : ClassifierFile} {routes : List Described}
    {lightweight : LightweightClassifier}
    (checked : (checkLightweight raw routes).result = some lightweight) :
    lightweight.route ∈ routes.map Described.name := by
  unfold checkLightweight at checked
  split at checked
  · rename_i block place _
    unfold validateLightweight at checked
    dsimp only at checked
    split at checked
    · rename_i route limits found _
      cases checked
      exact configured_listed (report_result found)
    · cases checked
  · cases checked

/-- Every route that an accepted classifier names is configured. -/
structure Listed (routes : List RouteName) (classifier : RouteClassifier) : Prop where
  candidates : ∀ candidate ∈ classifier.candidates, candidate.route ∈ routes
  fallback : classifier.fallback ∈ routes
  providers : ∀ provider ∈ classifier.provider :: classifier.standby.toList,
    ∀ route, Auto.providerRoute provider = some route → route ∈ routes

omit [Lowercase] in
theorem assign_lightweight {kind : ProviderKind} {lightweight : Option LightweightClassifier}
    {jev : Option JevClassifier} {provider : ClassifierProvider} {route : RouteName}
    (assigned : (assign kind lightweight jev).1 = some provider ∨
      (assign kind lightweight jev).2 = some provider)
    (routed : Auto.providerRoute provider = some route) :
    ∃ found, lightweight = some found ∧ found.route = route := by
  cases provider with
  | jev found => cases routed
  | lightweight found =>
      refine ⟨found, ?_, Option.some.inj routed⟩
      cases kind <;> simpa [assign] using assigned

theorem validate_listed {urls : UrlReader} {raw : ClassifierFile} {routes : List Described}
    {autoFallback : List Char} {env stored : Env} {classifier : RouteClassifier}
    (validated : validate urls raw routes autoFallback env stored = .ok classifier) :
    Listed (routes.map Described.name) classifier := by
  unfold validate at validated
  dsimp only at validated
  split at validated
  · split at validated
    · rename_i provider fallback assigned found
      cases validated
      refine ⟨checkCandidates_listed routes raw.routes, configured_listed (report_result found), ?_⟩
      intro other member route routed
      have either : (assign raw.provider (checkLightweight raw routes).result
          (checkJev urls raw env stored).1.result).1 = some other ∨
          (assign raw.provider (checkLightweight raw routes).result
            (checkJev urls raw env stored).1.result).2 = some other := by
        rcases List.mem_cons.mp member with rfl | standby
        · exact .inl assigned
        · exact .inr (by simpa using standby)
      obtain ⟨lightweight, checked, rfl⟩ := assign_lightweight either routed
      exact checkLightweight_listed checked
    · cases validated
  · cases validated

end Classifier

namespace Auto

open Classifier

variable [Lowercase]

theorem target_listed {name : List Char} {routes : List Route} {route : RouteName}
    (found : target name routes = .ok route) : route ∈ routes.map Route.name := by
  unfold target at found
  split_ifs at found
  split at found
  · rename_i named searched
    cases found
    exact List.mem_map_of_mem (List.mem_of_find?_eq_some searched)
  · cases found

theorem checkRules_listed {raw : AutoRouteFile} {routes : List Route}
    {classifier : Option RouteClassifier}
    (fallback : ∀ found ∈ classifier, found.fallback ∈ routes.map Route.name) :
    ∀ rule ∈ (checkRules raw routes classifier).rules, rule.route ∈ routes.map Route.name := by
  have ruleRoute_listed {entry : AutoRuleFile} {route : RouteName}
      (routed : (ruleRoute raw routes classifier entry).1 = some route) :
      route ∈ routes.map Route.name := by
    unfold ruleRoute at routed
    split at routed
    · cases routed
    · cases routed
    · split at routed
      · rename_i found
        cases routed
        exact fallback found rfl
      · cases routed
    · split at routed
      · rename_i found
        cases routed
        exact target_listed found
      · cases routed
  apply List.foldlRecOn raw.rules.zipIdx (checkRule raw routes classifier)
    (motive := fun state => ∀ rule ∈ state.rules, rule.route ∈ routes.map Route.name)
  · simp
  · intro state listed numbered _
    unfold checkRule
    dsimp only
    split
    · rename_i route _ routed
      intro rule member
      rcases List.mem_append.mp member with old | last
      · exact listed rule old
      · rw [List.mem_singleton.mp last]
        exact ruleRoute_listed routed
    · exact listed

/-- The roles of the routes under an `auto_route` section, or without one. -/
def rolesOf (routes : List Route) (auto : Option AutoRoute) : Roles where
  names := routes.map Route.name
  reachable := auto.toList.flatMap fun auto => reachable auto.rules auto.fallback auto.classifier
  classifierRoutes := auto.toList.flatMap fun auto => classifierRoutes auto.classifier

/-- The lists of a section, or none. -/
def runningLists (auto : Option AutoRoute) : CrossRouteFallback :=
  (auto.map AutoRoute.crossRouteFallback).getD ⟨[]⟩

/-- What an accepted section resolves to is configured, and its lists may stand together. -/
structure Sound (routes : List Route) (auto : Option AutoRoute) : Prop where
  reachable : ∀ name ∈ (rolesOf routes auto).reachable, name ∈ routes.map Route.name
  classifier : ∀ name ∈ (rolesOf routes auto).classifierRoutes, name ∈ routes.map Route.name
  lists : ∃ written, ∃ lists, Acceptable (rolesOf routes auto) written lists ∧
    (runningLists auto).chains.Perm lists

theorem acceptable_nil (roles : Roles) : Acceptable roles [] [] where
  fits := .nil
  distinct := List.nodup_nil
  acyclic := by
    have none_ : findCycle [] = none := rfl
    exact findCycle_none none_

theorem sound_none (routes : List Route) : Sound routes none where
  reachable := by simp [rolesOf]
  classifier := by simp [rolesOf]
  lists := ⟨[], [], acceptable_nil _, .refl _⟩

theorem checkClassifier_listed {urls : UrlReader} {raw : AutoRouteFile} {described : List Described}
    {env stored : Env} {classifier : RouteClassifier}
    (checked : (checkClassifier urls raw described env stored).1 = some classifier) :
    Listed (described.map Described.name) classifier := by
  unfold checkClassifier at checked
  split at checked
  · cases checked
  · split at checked
    · rename_i found validated
      cases checked
      exact validate_listed validated
    · cases checked

theorem checkCrossRoute_lists (kelvin : KelvinAlone) {raw : AutoRouteFile} {routes : List Route}
    (apart : Apart (routes.map Route.name)) {clean : Bool} {fallback : RouteName}
    {rules : List AutoRule} {classifier : Option RouteClassifier} {found : CrossRouteFallback}
    (checked : (checkCrossRoute raw routes clean (some fallback) rules classifier).1 = some found) :
    ∃ written, ∃ lists, Acceptable ⟨routes.map Route.name, Auto.reachable rules fallback classifier,
      Auto.classifierRoutes classifier⟩ written lists ∧ found.chains.Perm lists := by
  unfold checkCrossRoute at checked
  split at checked
  · rename_i lists fallback' _ same_fallback
    cases same_fallback
    split at checked
    · rename_i accepted validated
      cases checked
      obtain ⟨lists, acceptable, perm⟩ := validate_acceptable kelvin apart validated
      exact ⟨_, lists, acceptable, perm⟩
    · cases checked
  · cases checked
    exact ⟨[], [], acceptable_nil _, .refl _⟩

/-- What an accepted section was made of. -/
theorem validate_eq_ok {urls : UrlReader} {raw : AutoRouteFile} {routes : List Route}
    {described : List Described} {env stored : Env} {auto : AutoRoute}
    (validated : validate urls raw routes described env stored = .ok auto) :
    auto.classifier = (checkClassifier urls raw described env stored).1 ∧
      target raw.fallbackRoute routes = .ok auto.fallback ∧
      auto.rules = (checkRules raw routes auto.classifier).rules ∧
      ∃ clean, (checkCrossRoute raw routes clean (some auto.fallback) auto.rules
        auto.classifier).1 = some auto.crossRouteFallback := by
  unfold validate assemble at validated
  dsimp only at validated
  generalize checkClassifier urls raw described env stored = classifier at validated ⊢
  split at validated
  · rename_i fallback found _ aimed cross
    cases validated
    have aim : (target raw.fallbackRoute routes).toOption = some fallback := aimed
    have crossed : (checkCrossRoute raw routes _ (target raw.fallbackRoute routes).toOption
        (checkRules raw routes classifier.1).rules classifier.1).1 = some found := cross
    rw [aim] at crossed
    refine ⟨rfl, ?_, rfl, _, crossed⟩
    cases found : target raw.fallbackRoute routes with
    | error problem =>
        rw [found] at aim
        cases aim
    | ok route =>
        rw [found] at aim
        exact congrArg _ (Option.some.inj aim)
  · cases validated

theorem validate_sound (kelvin : KelvinAlone) {urls : UrlReader} {raw : AutoRouteFile}
    {routes : List Route} (apart : Apart (routes.map Route.name)) {described : List Described}
    (names : described.map Described.name = routes.map Route.name) {env stored : Env}
    {auto : AutoRoute} (validated : validate urls raw routes described env stored = .ok auto) :
    Sound routes (some auto) := by
  obtain ⟨classifier, fallback, rules, clean, cross⟩ := validate_eq_ok validated
  have listed : ∀ found ∈ auto.classifier, Listed (routes.map Route.name) found := by
    intro found there
    rw [classifier] at there
    exact names ▸ checkClassifier_listed there
  have rule_listed : ∀ rule ∈ auto.rules, rule.route ∈ routes.map Route.name := by
    rw [rules]
    exact checkRules_listed fun found there => (listed found there).fallback
  refine ⟨?_, ?_, ?_⟩
  · intro name member
    simp only [rolesOf, Option.toList_some, List.flatMap_singleton, Auto.reachable, List.mem_append,
      List.mem_map, List.mem_singleton, List.mem_flatMap, Option.mem_toList] at member
    rcases member with (⟨rule, there, rfl⟩ | rfl) | ⟨found, there, candidate | rfl⟩
    · exact rule_listed rule there
    · exact target_listed fallback
    · obtain ⟨candidate, there', rfl⟩ := candidate
      exact (listed found there).candidates candidate there'
    · exact (listed found there).fallback
  · intro name member
    simp only [rolesOf, Option.toList_some, List.flatMap_singleton, Auto.classifierRoutes,
      List.mem_flatMap, Option.mem_toList, List.mem_filterMap] at member
    obtain ⟨found, there, provider, here, routed⟩ := member
    exact (listed found there).providers provider here name routed
  · obtain ⟨written, lists, acceptable, perm⟩ := checkCrossRoute_lists kelvin apart cross
    have roles : rolesOf routes (some auto) = ⟨routes.map Route.name,
        Auto.reachable auto.rules auto.fallback auto.classifier,
        Auto.classifierRoutes auto.classifier⟩ := by
      simp [rolesOf]
    rw [roles]
    exact ⟨written, lists, acceptable, perm⟩

/-- An accepted file: its topology's names and what its section makes of them. -/
theorem validateWithStore_sound (kelvin : KelvinAlone) {urls : UrlReader} {whole : WholeFile}
    {env stored : Env} {config : RouterConfig}
    (accepted : validateWithStore urls whole env stored = .ok config) :
    Apart (config.topology.routes.map Route.name) ∧
      (∀ route ∈ config.topology.routes, trim route.name = route.name ∧ route.name ≠ []) ∧
      Sound config.topology.routes config.auto := by
  unfold validateWithStore at accepted
  dsimp only at accepted
  split at accepted
  · rename_i clean
    cases accepted
    have apart : Apart ((checkedRoutes urls whole env).routes.map Route.name) := by
      unfold Apart
      rw [List.pairwise_map]
      exact (Topology.ofChecked (checkedNodes urls whole env)
        (validateNodes_good ⟨env, urls.parse⟩ whole.file.nodes _) whole.file.routes
        whole.file.defaultRoute).routeNames
    refine ⟨apart, validateRoutes_trimmed _ _ _, ?_⟩
    dsimp only
    have same_routes : (Topology.ofChecked (checkedNodes urls whole env)
        (validateNodes_good ⟨env, urls.parse⟩ whole.file.nodes _) whole.file.routes
        whole.file.defaultRoute).routes = (checkedRoutes urls whole env).routes := rfl
    rw [same_routes]
    unfold checkAuto
    split
    · exact sound_none _
    · split
      · rename_i auto validated
        refine validate_sound kelvin apart ?_ validated
        rw [List.map_map]
        rfl
      · exact sound_none _
  · cases accepted

end Auto

end Lightweight.Router
