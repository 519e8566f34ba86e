import Lightweight.Collect
import Lightweight.Router.ConfigAccepted
import Lightweight.Router.FallbackCycles

/-! What fallback lists may say, whatever the texts they are written in: a relation between the lists
as written and the lists they stand for, and that `fallback::validate` accepts exactly what it
relates. -/

namespace Lightweight.Router

open Lightweight.Core Lightweight.Catalog Lightweight.Digraph

theorem mem_of_mem_trim {c : Char} {text : List Char} (member : c ∈ trim text) : c ∈ text :=
  (List.dropWhile_sublist _).subset ((List.rdropWhile_prefix _ _).subset member)

theorem ascii_of_all {text : List Char} (all : text.all (fun c => decide (c.toNat < 128)) = true) :
    ∀ c ∈ text, c.toNat < 128 := by
  simpa using all

section Names

variable [Lowercase]

/-- The forms of the two names that no route can be asked for under. -/
def autoKey : List Char := ['a', 'u', 't', 'o']

def defaultKey : List Char := ['d', 'e', 'f', 'a', 'u', 'l', 't']

/-- A name that may be a route's. -/
structure Logical (name : List Char) : Prop where
  visible : lookupKey name ≠ []
  notAuto : lookupKey name ≠ autoKey
  notDefault : lookupKey name ≠ defaultKey

/-- The answering route that a name stands for. -/
structure Names (names classifierRoutes : List RouteName) (name : List Char) (route : RouteName) :
    Prop where
  logical : Logical name
  listed : route ∈ names
  same : sameName route name = true
  answers : route ∉ classifierRoutes

theorem Logical.of_same {name other : List Char} (logical : Logical name)
    (same : lookupKey other = lookupKey name) : Logical other :=
  ⟨same ▸ logical.visible, same ▸ logical.notAuto, same ▸ logical.notDefault⟩

/-- A route's own name stands for it. -/
theorem Names.self {names classifierRoutes : List RouteName} {name : List Char} {route : RouteName}
    (stands : Names names classifierRoutes name route) : Names names classifierRoutes route route where
  logical := stands.logical.of_same (sameName_iff.mp stands.same)
  listed := stands.listed
  same := sameName_iff.mpr rfl
  answers := stands.answers

/-- Names of which no two are compared as the same. -/
def Apart (names : List RouteName) : Prop := names.Pairwise fun a b => sameName a b = false

theorem Apart.eq {names : List RouteName} (apart : Apart names) {a b : RouteName}
    (left : a ∈ names) (right : b ∈ names) (same : sameName a b = true) : a = b := by
  induction names with
  | nil => cases left
  | cons first rest ih =>
      obtain ⟨here, later⟩ := List.pairwise_cons.mp apart
      rcases List.mem_cons.mp left with rfl | leftRest
      · rcases List.mem_cons.mp right with rfl | rightRest
        · rfl
        · rw [here b rightRest] at same
          cases same
      · rcases List.mem_cons.mp right with rfl | rightRest
        · rw [sameName_comm, here a leftRest] at same
          cases same
        · exact ih later leftRest rightRest

/-- A search for a name finds the route with that name. -/
theorem Apart.find?_eq_some {names : List RouteName} (apart : Apart names) {name : List Char}
    {route : RouteName} :
    names.find? (sameName · name) = some route ↔ route ∈ names ∧ sameName route name = true := by
  constructor
  · intro found
    have named := List.find?_some found
    exact ⟨List.mem_of_find?_eq_some found, named⟩
  · rintro ⟨listed, same⟩
    cases found : names.find? (sameName · name) with
    | none => exact absurd same (List.find?_eq_none.mp found route listed)
    | some other =>
        have named := List.find?_some found
        rw [sameName_iff] at same named
        rw [apart.eq (List.mem_of_find?_eq_some found) listed
          (sameName_iff.mpr (named.trans same.symm))]

theorem lookupKey_trim (name : List Char) : lookupKey (trim name) = lookupKey name := by
  rw [lookupKey, trim_idempotent, lookupKey]

theorem isAuto_iff {name : List Char} : isAuto name = true ↔ lookupKey name = autoKey := by
  have auto : lookupKey autoRoute = autoKey := Lowercase.ascii _ (ascii_of_all (by decide))
  rw [isAuto, sameName_iff, auto, eq_comm]

theorem lookupKey_eq_nil (kelvin : KelvinAlone) {name : List Char} :
    lookupKey name = [] ↔ trim name = [] := by
  rw [lookupKey_eq_map kelvin (by simp), List.map_eq_nil_iff]

theorem isReserved_iff_lookupKey (kelvin : KelvinAlone) {name : List Char} :
    isReserved name = true ↔ lookupKey name = defaultKey := by
  rw [isReserved_iff, lookupKey_eq_map kelvin (by simp [defaultKey]), defaultKey]

/-- `concrete` finds the route a name stands for. -/
theorem concrete_eq_ok (kelvin : KelvinAlone) {routes : List Route}
    (apart : Apart (routes.map Route.name)) {classifierRoutes : List RouteName} {name : List Char}
    {route : RouteName} :
    concrete name routes classifierRoutes = .ok route ↔
      Names (routes.map Route.name) classifierRoutes name route := by
  have search : (routes.find? fun route => RouteName.matches route.name name).map Route.name =
      (routes.map Route.name).find? (sameName · name) := by
    rw [List.find?_map]
    rfl
  unfold concrete
  constructor
  · intro found
    split_ifs at found with empty auto reserved
    rw [List.isEmpty_iff, ← lookupKey_eq_nil kelvin] at empty
    rw [isAuto_iff] at auto
    rw [isReserved_iff_lookupKey kelvin] at reserved
    split at found
    · cases found
    · rename_i named searched
      split_ifs at found with classifies
      cases found
      rw [searched, Option.map_some, eq_comm, apart.find?_eq_some] at search
      exact ⟨⟨empty, auto, reserved⟩, search.1, search.2, by simpa using classifies⟩
  · rintro ⟨logical, listed, same, answers⟩
    rw [if_neg (by rw [List.isEmpty_iff, ← lookupKey_eq_nil kelvin]; exact logical.visible),
      if_neg (by rw [isAuto_iff]; exact logical.notAuto),
      if_neg (by rw [isReserved_iff_lookupKey kelvin]; exact logical.notDefault)]
    rw [apart.find?_eq_some.mpr ⟨listed, same⟩] at search
    obtain ⟨found, searched, rfl⟩ := Option.map_eq_some_iff.mp search
    rw [searched]
    exact if_neg (by simpa using answers)

end Names

section Lists

variable [Lowercase]

/-- The names a list may use: those of the routes, of the routes `Auto` can resolve to, and of the
routes that only answer a classifier. -/
structure Roles where
  names : List RouteName
  reachable : List RouteName
  classifierRoutes : List RouteName

variable (roles : Roles)

abbrev Roles.Names : List Char → RouteName → Prop := Router.Names roles.names roles.classifierRoutes

/-- The targets that a list stands for, each another route and none of them twice. -/
structure FitTargets (initial : RouteName) (written : List (List Char)) (targets : List RouteName) :
    Prop where
  stand : List.Forall₂ (fun name route => roles.Names name route ∧ route ≠ initial) written targets
  once : targets.Nodup

/-- The list that a written one stands for. -/
structure FitList (written : List Char × List (List Char)) (list : RouteName × List RouteName) :
    Prop where
  source : roles.Names written.1 list.1
  reachable : list.1 ∈ roles.reachable
  some : written.2 ≠ []
  few : written.2.length ≤ maxFallbackRoutes
  targets : FitTargets roles list.1 written.2 list.2

/-- Written lists that may stand together, and what they stand for. -/
structure Acceptable (written : List (List Char × List (List Char)))
    (lists : List (RouteName × List RouteName)) : Prop where
  fits : List.Forall₂ (FitList roles) written lists
  distinct : (lists.map Prod.fst).Nodup
  acyclic : ¬ HasCycle (Lists lists)

variable {roles}

theorem FitTargets.self {initial : RouteName} {written : List (List Char)}
    {targets : List RouteName} (fit : FitTargets roles initial written targets) :
    FitTargets roles initial targets targets where
  stand := forall₂_self (fun stands => ⟨stands.1.self, stands.2⟩) fit.stand
  once := fit.once

/-- A list stands for itself. -/
theorem FitList.self {written : List Char × List (List Char)} {list : RouteName × List RouteName}
    (fit : FitList roles written list) : FitList roles list list where
  source := fit.source.self
  reachable := fit.reachable
  some := by
    intro empty
    have same := fit.targets.stand.length_eq
    rw [empty] at same
    exact fit.some (List.length_eq_zero_iff.mp same)
  few := fit.targets.stand.length_eq ▸ fit.few
  targets := fit.targets.self

omit [Lowercase] in
theorem Lists.perm {lists others : List (RouteName × List RouteName)}
    (distinct : (lists.map Prod.fst).Nodup) (perm : others.Perm lists) :
    Lists others = Lists lists := by
  funext route target
  have others_distinct : (others.map Prod.fst).Nodup := (perm.map Prod.fst).nodup_iff.mpr distinct
  rw [eq_iff_iff, lists_union others_distinct, lists_union distinct]
  simp only [perm.mem_iff]

/-- Lists that may stand together stand for themselves, in any order. -/
theorem Acceptable.self {written : List (List Char × List (List Char))}
    {lists others : List (RouteName × List RouteName)} (acceptable : Acceptable roles written lists)
    (perm : others.Perm lists) : Acceptable roles others others where
  fits := by
    have own := forall₂_self (fun fit => fit.self) acceptable.fits
    rw [List.forall₂_same] at own ⊢
    exact fun list member => own list (perm.mem_iff.mp member)
  distinct := (perm.map Prod.fst).nodup_iff.mpr acceptable.distinct
  acyclic := by
    rw [Lists.perm acceptable.distinct perm]
    exact acceptable.acyclic

/-! ### The router's check -/

variable {routes : List Route} {reachable classifierRoutes : List RouteName}

variable (classifierRoutes) in
theorem checkTarget_collects (kelvin : KelvinAlone) (apart : Apart (routes.map Route.name))
    (initial : RouteName) :
    Collects (fun state : List RouteName × List FallbackProblem => state.2 = []) Prod.fst
      (checkTarget routes classifierRoutes initial)
      (fun name route => Names (routes.map Route.name) classifierRoutes name route ∧ route ≠ initial)
      id where
  sound := by
    intro state target clean
    unfold checkTarget at clean ⊢
    cases found : concrete target routes classifierRoutes with
    | error problem => simp [found] at clean
    | ok route =>
        rw [found] at clean
        dsimp only at clean ⊢
        split_ifs at clean ⊢ with own twice
        · simp at clean
        · simp at clean
        · refine ⟨clean, route, ⟨(concrete_eq_ok kelvin apart).mp found, own⟩, ?_, rfl⟩
          simpa using twice
  complete := by
    intro state target route clean fit fresh
    unfold checkTarget
    rw [(concrete_eq_ok kelvin apart).mpr fit.1]
    dsimp only
    rw [if_neg fit.2, if_neg (by simpa using fresh)]
    exact ⟨clean, rfl⟩

/-- The targets of a list stand for a chain exactly where the check of each of them finds none
wrong. -/
theorem foldl_checkTarget_iff (kelvin : KelvinAlone) (apart : Apart (routes.map Route.name))
    {initial : RouteName} {written : List (List Char)} {chain : List RouteName} :
    written.foldl (checkTarget routes classifierRoutes initial) ([], []) = (chain, []) ↔
      FitTargets ⟨routes.map Route.name, reachable, classifierRoutes⟩ initial written chain := by
  have run := (checkTarget_collects classifierRoutes kelvin apart initial).foldl_iff written ([], [])
    rfl rfl chain
  rw [List.map_id] at run
  constructor
  · intro checked
    obtain ⟨stand, once⟩ := run.mp (by rw [checked]; exact ⟨rfl, rfl⟩)
    exact ⟨stand, once⟩
  · rintro ⟨stand, once⟩
    obtain ⟨clean, collected⟩ := run.mpr ⟨stand, once⟩
    exact Prod.ext collected clean

variable (reachable classifierRoutes) in
theorem checkList_collects (kelvin : KelvinAlone) (apart : Apart (routes.map Route.name)) :
    Collects (fun state : List (RouteName × List RouteName) × List FallbackProblem => state.2 = [])
      Prod.fst (checkList routes reachable classifierRoutes)
      (FitList ⟨routes.map Route.name, reachable, classifierRoutes⟩) Prod.fst where
  sound := by
    rintro ⟨chains, problems⟩ ⟨source, targets⟩ clean
    unfold checkList at clean ⊢
    dsimp only at clean ⊢
    cases found : concrete source routes classifierRoutes with
    | error problem => simp [found] at clean
    | ok initial =>
        rw [found] at clean
        dsimp only at clean ⊢
        split_ifs at clean ⊢ with foreign again none_ many
        any_goals simp at clean
        split at clean
        · rename_i chain checked
          refine ⟨clean, (initial, chain), ⟨(concrete_eq_ok kelvin apart).mp found, ?_, ?_, ?_, ?_⟩, ?_,
            rfl⟩
          · simpa using foreign
          · simpa using none_
          · exact not_lt.mp many
          · exact (foldl_checkTarget_iff kelvin apart).mp checked
          · simpa using again
        · rename_i wrong refused _
          have nothing := (List.append_eq_nil_iff.mp clean).2
          exact (refused nothing).elim
  complete := by
    rintro ⟨chains, problems⟩ ⟨source, targets⟩ ⟨initial, chain⟩ clean fit fresh
    have found : concrete source routes classifierRoutes = .ok initial :=
      (concrete_eq_ok kelvin apart).mpr fit.source
    have checked : targets.foldl (checkTarget routes classifierRoutes initial) ([], []) = (chain, []) :=
      (foldl_checkTarget_iff kelvin apart).mpr fit.targets
    have within : initial ∈ reachable := fit.reachable
    have some : targets ≠ [] := fit.some
    have few : targets.length ≤ maxFallbackRoutes := fit.few
    unfold checkList
    dsimp only
    rw [found]
    dsimp only
    rw [checked, if_neg (by simpa using within), if_neg (by simpa using fresh),
      if_neg (by simpa using some), if_neg (not_lt.mpr few)]
    exact ⟨clean, rfl⟩

theorem foldl_checkList_iff (kelvin : KelvinAlone) (apart : Apart (routes.map Route.name))
    {written : List (List Char × List (List Char))} {chains : List (RouteName × List RouteName)} :
    written.foldl (checkList routes reachable classifierRoutes) ([], []) = (chains, []) ↔
      List.Forall₂ (FitList ⟨routes.map Route.name, reachable, classifierRoutes⟩) written chains ∧
        (chains.map Prod.fst).Nodup := by
  have run := (checkList_collects reachable classifierRoutes kelvin apart).foldl_iff written ([], [])
    rfl rfl chains
  constructor
  · intro checked
    exact run.mp (by rw [checked]; exact ⟨rfl, rfl⟩)
  · intro fitting
    obtain ⟨clean, collected⟩ := run.mpr fitting
    exact Prod.ext collected clean

/-- The lists of an accepted section are what it stands for. -/
theorem validate_acceptable (kelvin : KelvinAlone) (apart : Apart (routes.map Route.name))
    {raw : CrossRouteFallbackFile} {fallback : CrossRouteFallback}
    (validated : validate raw routes reachable classifierRoutes = .ok fallback) :
    ∃ lists, Acceptable ⟨routes.map Route.name, reachable, classifierRoutes⟩ raw.toList lists ∧
      fallback.chains.Perm lists := by
  unfold validate at validated
  split at validated
  · rename_i chains checked
    obtain ⟨fits, distinct⟩ := (foldl_checkList_iff kelvin apart).mp checked
    split at validated
    · cases validated
    · rename_i searched
      cases validated
      exact ⟨chains, ⟨fits, distinct, findCycle_none searched⟩, List.perm_insertionSort _ chains⟩
  · cases validated

/-- A section whose lists may stand together is accepted. -/
theorem validate_of_acceptable (kelvin : KelvinAlone) (apart : Apart (routes.map Route.name))
    {raw : CrossRouteFallbackFile} {lists : List (RouteName × List RouteName)}
    (acceptable : Acceptable ⟨routes.map Route.name, reachable, classifierRoutes⟩ raw.toList lists) :
    ∃ fallback, validate raw routes reachable classifierRoutes = .ok fallback := by
  have checked := (foldl_checkList_iff kelvin apart).mpr ⟨acceptable.fits, acceptable.distinct⟩
  unfold validate
  rw [checked]
  dsimp only
  cases searched : findCycle lists with
  | none => exact ⟨_, rfl⟩
  | some path => exact absurd (findCycle_cycle searched).hasCycle acceptable.acyclic

end Lists

end Lightweight.Router
