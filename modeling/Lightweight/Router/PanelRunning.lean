import Lightweight.Catalog.FreeId
import Lightweight.Router.AutoNames
import Lightweight.Router.PanelFallbackAgrees

/-! What a running router reports to the panel's fallback screen, and how far the two agree on its
lists. -/

namespace Lightweight.Router.Panel

open Lightweight.Core Lightweight.Catalog Auto Classifier

section Running

variable [Lowercase]

/-- What the panel reads from a running router. -/
def panelContext (config : RouterConfig) : FallbackContext :=
  contextFrom (autoView config.auto) (config.topology.routes.map Route.name)

omit [Lowercase] in
theorem mem_foldl_addTo {names set : List RouteName} {name : RouteName} :
    name ∈ names.foldl addTo set ↔ name ∈ set ∨ name ∈ names := by
  induction names generalizing set with
  | nil => simp
  | cons first names ih =>
      rw [List.foldl_cons, ih, mem_addTo, List.mem_cons, or_assoc]

omit [Lowercase] in
/-- The classifier's routes, as the view gives them, are those of its providers. -/
theorem mem_classifierView {classifier : RouteClassifier} {name : RouteName} :
    name ∈ (classifierView classifier).route.toList ++
        (classifierView classifier).lightweightRoute.toList ↔
      name ∈ (classifier.provider :: classifier.standby.toList).filterMap providerRoute := by
  unfold classifierView
  dsimp only
  cases classifier.standby with
  | none =>
      cases routed : providerRoute classifier.provider with
      | none => simp [routed]
      | some route => simp [routed]
  | some standby =>
      cases routed : providerRoute classifier.provider with
      | none =>
          cases other : providerRoute standby with
          | none => simp [routed, other]
          | some second => simp [routed, other]
      | some route =>
          cases other : providerRoute standby with
          | none => simp [routed, other]
          | some second => simp [routed, other]

omit [Lowercase] in
theorem filter_given {name : RouteName} (visible : name ≠ []) :
    [name].filter (fun name => !name.isEmpty) = [name] := by
  rw [List.filter_cons, List.filter_nil, if_pos (by simpa using visible)]

/-- Names that are some text pass the panel's filters. -/
theorem mem_contextFrom_reachable {routes : List Route} {auto : Option AutoRoute}
    (visible : ∀ name ∈ (rolesOf routes auto).reachable, name ≠ []) {name : RouteName} :
    name ∈ (contextFrom (autoView auto) (routes.map Route.name)).reachable ↔
      name ∈ (rolesOf routes auto).reachable := by
  cases auto with
  | none => simp [contextFrom, autoView, rolesOf]
  | some auto =>
      have fallback := filter_given (visible auto.fallback (by simp [rolesOf, Auto.reachable]))
      cases found : auto.classifier with
      | none =>
          simp only [contextFrom, autoView, rolesOf, Auto.reachable, mem_foldl_addTo, found,
            Option.toList_some, Option.map_some, Option.bind_some, Option.map_none, fallback,
            Option.toList_none, List.flatMap_singleton]
          simp
      | some classifier =>
          have second := filter_given
            (visible classifier.fallback (by simp [rolesOf, Auto.reachable, found]))
          simp only [contextFrom, autoView, classifierView, rolesOf, Auto.reachable,
            mem_foldl_addTo, found, Option.toList_some, Option.map_some, Option.bind_some,
            fallback, second, List.flatMap_singleton]
          simp

theorem mem_contextFrom_classifierRoutes {routes : List Route} {auto : Option AutoRoute}
    (visible : ∀ name ∈ (rolesOf routes auto).classifierRoutes, name ≠ []) {name : RouteName} :
    name ∈ (contextFrom (autoView auto) (routes.map Route.name)).classifierRoutes ↔
      name ∈ (rolesOf routes auto).classifierRoutes := by
  cases auto with
  | none => simp [contextFrom, autoView, rolesOf]
  | some auto =>
      cases found : auto.classifier with
      | none => simp [contextFrom, autoView, rolesOf, Auto.classifierRoutes, found]
      | some classifier =>
          have roles : (rolesOf routes (some auto)).classifierRoutes =
              (classifier.provider :: classifier.standby.toList).filterMap providerRoute := by
            simp [rolesOf, Auto.classifierRoutes, found]
          have context : (contextFrom (autoView (some auto)) (routes.map Route.name)).classifierRoutes =
              ((classifierView classifier).route.toList ++
                (classifierView classifier).lightweightRoute.toList).filter
                  fun name => !name.isEmpty := by
            simp [contextFrom, autoView, found]
          rw [context, List.mem_filter, mem_classifierView, roles]
          rw [roles] at visible
          constructor
          · exact fun member => member.1
          · intro member
            exact ⟨member, by simpa using visible name member⟩

theorem reported_rolesOf {routes : List Route} {auto : Option AutoRoute}
    (visible : ∀ name ∈ routes.map Route.name, name ≠ []) (sound : Sound routes auto) :
    Reported (contextFrom (autoView auto) (routes.map Route.name)) (rolesOf routes auto) where
  routes := rfl
  reachable := fun _ => mem_contextFrom_reachable fun name member =>
    visible name (sound.reachable name member)
  classifier := fun _ => mem_contextFrom_classifierRoutes fun name member =>
    visible name (sound.classifier name member)

/-- The names that an accepted file makes the router use. -/
theorem goodRoles_rolesOf {config : RouterConfig}
    (apart : Apart (config.topology.routes.map Route.name))
    (trimmed : ∀ route ∈ config.topology.routes, trim route.name = route.name)
    (sound : Sound config.topology.routes config.auto) :
    GoodRoles (rolesOf config.topology.routes config.auto) where
  apart := apart
  trimmed := by
    intro name member
    obtain ⟨route, listed, rfl⟩ := List.mem_map.mp member
    exact trimmed route listed
  reachable := sound.reachable
  classifier := sound.classifier

/-- What the panel writes for a draft is accepted, and has the list of each row. -/
structure Carried (config : RouterConfig) (rows : List ChainDraft) : Prop where
  accepted : ∃ fallback, validate (fallbackSection rows (panelContext config)) config.topology.routes
    (rolesOf config.topology.routes config.auto).reachable
    (rolesOf config.topology.routes config.auto).classifierRoutes = .ok fallback
  each : ∃ lists, List.Forall₂ (WrittenAs (panelContext config)) rows lists ∧
    (fallbackSection rows (panelContext config)).toList.Perm lists

/-- The running lists, read into a draft, are a draft without a problem that stands for them. -/
structure ReadsBack (config : RouterConfig) (entries : List (List Char × List (List Char))) : Prop where
  clean : hasChainProblems (validateChains (draftFrom entries) (panelContext config)) = false
  same : fallbackSection (draftFrom entries) (panelContext config) = view (runningLists config.auto)

/-- In every configuration that the router accepts, a draft without a problem is carried over to the
router exactly where no row names a route spelled as the key that cannot be set; and the running
lists, in whatever order they are told, read back exactly where no list is of that route and no
target has a comma. -/
theorem fallback_lists_agree (kelvin : KelvinAlone) (commas : CommaKept) {urls : UrlReader}
    {whole : WholeFile} {env stored : Env} {config : RouterConfig}
    (accepted : validateWithStore urls whole env stored = .ok config) :
    (∀ rows, hasChainProblems (validateChains rows (panelContext config)) = false →
      (Carried config rows ↔ ∀ row ∈ rows,
        ¬ (protoKey ∈ config.topology.routes.map Route.name ∧ sameName protoKey row.source = true))) ∧
    ∀ entries : List (List Char × List (List Char)),
      entries.Perm (view (runningLists config.auto)).toList →
        (ReadsBack config entries ↔ ∀ list ∈ (runningLists config.auto).chains,
          list.1 ≠ protoKey ∧ ∀ target ∈ list.2, ',' ∉ target) := by
  obtain ⟨apart, named, sound⟩ := validateWithStore_sound kelvin accepted
  have good := goodRoles_rolesOf apart (fun route member => (named route member).1) sound
  have visible : ∀ name ∈ config.topology.routes.map Route.name, name ≠ [] := by
    intro name member
    obtain ⟨route, listed, rfl⟩ := List.mem_map.mp member
    exact (named route listed).2
  have reported := reported_rolesOf visible sound
  constructor
  · intro rows clean
    have exact_ := draft_accepted_iff kelvin good reported rfl clean
    exact ⟨fun carried => exact_.mp ⟨carried.accepted, carried.each⟩,
      fun apart => ⟨(exact_.mpr apart).1, (exact_.mpr apart).2⟩⟩
  · intro entries listed
    obtain ⟨_, lists, acceptable, perm⟩ := sound.lists
    have exact_ := running_lists_iff kelvin commas good reported (acceptable.self perm) listed
    exact ⟨fun back => exact_.mp ⟨back.clean, back.same⟩,
      fun plain => ⟨(exact_.mpr plain).1, (exact_.mpr plain).2⟩⟩

end Running

section Sample

attribute [local instance] asciiLowercase

theorem commaKept_ascii : CommaKept := by
  intro text
  have lowered : Lowercase.toLowercase text = text.map Char.toLower := rfl
  rw [lowered, List.mem_map]
  constructor
  · rintro ⟨c, member, same⟩
    by_cases upper : 65 ≤ c.toNat ∧ c.toNat ≤ 90
    · have shifted := toNat_toLower_of_upper upper
      rw [same] at shifted
      have comma : ','.toNat = 44 := rfl
      omega
    · rw [toLower_of_not_upper upper] at same
      exact same ▸ member
  · intro member
    exact ⟨',', member, rfl⟩

/-- Every URL is one of a host, which is no address. -/
def sampleReader : UrlReader where
  parse := sampleSurroundings.parseUrl
  asStr url := url.host.getD []
  isLoopbackIp _ := false

/-- Two routes, of which `Auto` can resolve to the first, and the list of the first. -/
def sampleLists (source target : List Char) : WholeFile where
  file :=
    { sampleFile ['a'] with
      defaultRoute := some source
      routes := [⟨source, .priority, none, [⟨['a'], ['m']⟩], none⟩,
        ⟨target, .priority, none, [⟨['a'], ['m']⟩], none⟩] }
  earlier _ := []
  autoRoute := some
    { enabled := true
      fallbackRoute := source
      rules := []
      classifier := none
      adaptiveScoring := none
      crossRouteFallback := some ((∅ : CrossRouteFallbackFile).insert source [target]) }

def sampleStart (source target : List Char) : Except (List StartRefusal) RouterConfig :=
  validateWithStore sampleReader (sampleLists source target) sampleSurroundings.env fun _ => none

/-- What is read off a start that succeeds. -/
theorem sampleStart_read {α : Type} (source target : List Char) (read : RouterConfig → α) (value : α)
    (evaluated : (sampleStart source target).toOption.map read = some value) :
    ∃ config, sampleStart source target = .ok config ∧ read config = value := by
  obtain ⟨config, started, same⟩ := Option.map_eq_some_iff.mp evaluated
  refine ⟨config, ?_, same⟩
  cases outcome : sampleStart source target with
  | error refused =>
      rw [outcome] at started
      cases started
  | ok found =>
      rw [outcome] at started
      exact congrArg _ (Option.some.inj started)

theorem fallback_lists_agree_sample :
    ∃ config, sampleStart ['A'] ['B'] = .ok config ∧
      (∀ rows, hasChainProblems (validateChains rows (panelContext config)) = false →
        Carried config rows) ∧
      ReadsBack config (view (runningLists config.auto)).toList := by
  obtain ⟨config, accepted, read⟩ := sampleStart_read ['A'] ['B']
    (fun config => (config.topology.routes.map Route.name, (runningLists config.auto).chains))
    ([['A'], ['B']], [(['A'], [['B']])]) (by decide +kernel)
  obtain ⟨names, chains⟩ := Prod.mk.inj read
  obtain ⟨drafts, running⟩ := fallback_lists_agree kelvinAlone_ascii commaKept_ascii accepted
  refine ⟨config, accepted, ?_, ?_⟩
  · intro rows clean
    rw [drafts rows clean, names]
    intro row _ named
    exact absurd named.1 (by decide)
  · rw [running _ (.refl _), chains]
    decide

/-- The list of a route whose one target is called `B,C` reads back as one with two targets, neither
of them a route; and a draft for the route `__proto__`, which has no problem, makes an empty section. -/
theorem sampleLists_disagree :
    (∃ config, sampleStart ['A'] ['B', ',', 'C'] = .ok config ∧
      ¬ ReadsBack config (view (runningLists config.auto)).toList) ∧
    ∃ config, sampleStart protoKey ['B'] = .ok config ∧
      hasChainProblems (validateChains [⟨1, protoKey, ['B']⟩] (panelContext config)) = false ∧
        ¬ Carried config [⟨1, protoKey, ['B']⟩] := by
  constructor
  · obtain ⟨config, accepted, read⟩ := sampleStart_read ['A'] ['B', ',', 'C']
      (fun config =>
        hasChainProblems (validateChains (draftFrom (view (runningLists config.auto)).toList)
          (panelContext config)))
      true (by decide +kernel)
    refine ⟨config, accepted, ?_⟩
    intro back
    have clean := back.clean
    rw [read] at clean
    cases clean
  · obtain ⟨config, accepted, read⟩ := sampleStart_read protoKey ['B']
      (fun config =>
        (hasChainProblems (validateChains [⟨1, protoKey, ['B']⟩] (panelContext config)),
          (fallbackSection [⟨1, protoKey, ['B']⟩] (panelContext config)).toList))
      (false, []) (by decide +kernel)
    obtain ⟨clean, empty⟩ := Prod.mk.inj read
    refine ⟨config, accepted, clean, ?_⟩
    intro carried
    obtain ⟨lists, as, perm⟩ := carried.each
    have count := as.length_eq
    rw [empty] at perm
    rw [← perm.length_eq] at count
    cases count

end Sample

end Lightweight.Router.Panel
