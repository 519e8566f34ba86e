import Std.Data.ExtTreeMap
import Mathlib.Data.List.Lex
import Mathlib.Data.List.Sort
import Mathlib.Data.List.Nodup
import Lightweight.Router.Domain

/-! Explicit cross-route fallback (`lightweight-router/src/fallback.rs`): the lists of routes an
`Auto` request may move to, and the check they pass before the router starts. -/

namespace Lightweight.Router

open Lightweight.Core Lightweight.Catalog

def maxFallbackRoutes : Nat := 3

def autoRoute : RouteName := ['A', 'u', 't', 'o']

/-- An initial route's name, and the routes to try after it, as written. -/
abbrev CrossRouteFallbackFile := Std.ExtTreeMap (List Char) (List (List Char)) compare

structure CrossRouteFallback where
  chains : List (RouteName × List RouteName)
deriving DecidableEq, Repr

/-- `route`'s list, or nothing. -/
def chainIn (chains : List (RouteName × List RouteName)) (route : RouteName) : List RouteName :=
  ((chains.find? fun (initial, _) => initial == route).map Prod.snd).getD []

def CrossRouteFallback.chain (fallback : CrossRouteFallback) (route : RouteName) :
    List RouteName :=
  chainIn fallback.chains route

/-- Why a name in the section is no route that answers clients. -/
inductive ConcreteProblem where
  | empty
  | auto
  | reserved
  | unconfigured
  | classifier
deriving DecidableEq, Repr

inductive FallbackProblem where
  | source (source : List Char) (problem : ConcreteProblem)
  | unreachable (source : List Char)
  | moreThanOneList (initial : RouteName)
  | emptyList (initial : RouteName)
  | tooManyRoutes (initial : RouteName) (count : Nat)
  | entry (initial : RouteName) (target : List Char) (problem : ConcreteProblem)
  | listsItself (initial : RouteName)
  | listedTwice (initial route : RouteName)
  | cycle (path : List RouteName)
deriving DecidableEq, Repr

inductive Mark where
  | new
  | opened
  | done
deriving DecidableEq, Repr

abbrev Marks := List (RouteName × Mark)

def Marks.of (marks : Marks) (node : RouteName) : Mark :=
  ((marks.find? fun (seen, _) => seen == node).map Prod.snd).getD .new

/-- The first entry of `node`, marked done. -/
def Marks.close : Marks → RouteName → Marks
  | [], _ => []
  | (seen, mark) :: rest, node =>
      if seen = node then (seen, .done) :: rest else (seen, mark) :: Marks.close rest node

/-- The loop over a node's edges: the first cycle found ends it. -/
def visitEach (visit : RouteName → Marks → Option (List RouteName) × Marks) :
    List RouteName → Marks → Option (List RouteName) × Marks
  | [], marks => (none, marks)
  | next :: rest, marks =>
      match visit next marks with
      | (some cycle, marks) => (some cycle, marks)
      | (none, marks) => visitEach visit rest marks

/-- Depth first from `node`, with the nodes above it in `path`; `fuel` is more than the names there
are. -/
def visit (chains : List (RouteName × List RouteName)) :
    Nat → RouteName → List RouteName → Marks → Option (List RouteName) × Marks
  | 0, _, _, marks => (none, marks)
  | fuel + 1, node, path, marks =>
      match Marks.of marks node with
      | .done => (none, marks)
      | .opened =>
          let start := (path.findIdx? (· == node)).getD 0
          (some (path.drop start ++ [node]), marks)
      | .new =>
          match visitEach (fun next marks => visit chains fuel next (path ++ [node]) marks)
              (chainIn chains node) (marks ++ [(node, .opened)]) with
          | (some cycle, marks) => (some cycle, marks)
          | (none, marks) => (none, Marks.close marks node)

/-- A cycle in the union of every list, if there is one. -/
def findCycle (chains : List (RouteName × List RouteName)) : Option (List RouteName) :=
  let names := chains.flatMap fun (initial, chain) => initial :: chain
  (visitEach (fun initial marks => visit chains (names.length + 1) initial [] marks)
    (chains.map Prod.fst) []).1

section Validate

variable [Lowercase]

/-- Whether `name` is `Auto`, compared the way route names are. -/
def isAuto (name : List Char) : Bool :=
  sameName autoRoute name

/-- The configured, concrete, answering route `name` refers to. -/
def concrete (name : List Char) (routes : List Route) (classifierRoutes : List RouteName) :
    Except ConcreteProblem RouteName :=
  if (trim name).isEmpty then .error .empty
  else if isAuto name then .error .auto
  else if isReserved name then .error .reserved
  else
    match routes.find? fun route => RouteName.matches route.name name with
    | none => .error .unconfigured
    | some route =>
        if classifierRoutes.contains route.name then .error .classifier else .ok route.name

/-- One entry of `initial`'s list: the routes so far, and the problems with it. -/
def checkTarget (routes : List Route) (classifierRoutes : List RouteName) (initial : RouteName)
    (state : List RouteName × List FallbackProblem) (target : List Char) :
    List RouteName × List FallbackProblem :=
  match concrete target routes classifierRoutes with
  | .error problem => (state.1, state.2 ++ [.entry initial target problem])
  | .ok route =>
      if route = initial then (state.1, state.2 ++ [.listsItself initial])
      else if state.1.contains route then (state.1, state.2 ++ [.listedTwice initial route])
      else (state.1 ++ [route], state.2)

/-- One list of the section: the lists accepted so far, and the problems. -/
def checkList (routes : List Route) (reachable classifierRoutes : List RouteName)
    (state : List (RouteName × List RouteName) × List FallbackProblem)
    (list : List Char × List (List Char)) :
    List (RouteName × List RouteName) × List FallbackProblem :=
  let (chains, problems) := state
  let (source, targets) := list
  match concrete source routes classifierRoutes with
  | .error problem => (chains, problems ++ [.source source problem])
  | .ok initial =>
      if !reachable.contains initial then (chains, problems ++ [.unreachable source])
      else if chains.any fun (seen, _) => seen == initial then
        (chains, problems ++ [.moreThanOneList initial])
      else if targets.isEmpty then (chains, problems ++ [.emptyList initial])
      else if maxFallbackRoutes < targets.length then
        (chains, problems ++ [.tooManyRoutes initial targets.length])
      else
        match targets.foldl (checkTarget routes classifierRoutes initial) ([], []) with
        | (chain, []) => (chains ++ [(initial, chain)], problems)
        | (_, found) => (chains, problems ++ found)

/-- Where a route stands in the file, for a stable view. -/
def configuredAt (routes : List Route) (name : RouteName) : Nat :=
  ((routes.findIdx? fun route => route.name == name).map (· + 1)).getD 0

/-- Check the section against the configured routes. -/
def validate (raw : CrossRouteFallbackFile) (routes : List Route)
    (reachable classifierRoutes : List RouteName) :
    Except (List FallbackProblem) CrossRouteFallback :=
  match raw.toList.foldl (checkList routes reachable classifierRoutes) ([], []) with
  | (chains, []) =>
      match findCycle chains with
      | some path => .error [.cycle path]
      | none => .ok ⟨chains.insertionSort fun a b =>
          configuredAt routes a.1 ≤ configuredAt routes b.1⟩
  | (_, problems) => .error problems

/-- A list that a request can follow: other routes of the configuration, each once. -/
structure GoodChain (routes : List Route) (initial : RouteName) (chain : List RouteName) :
    Prop where
  once : chain.Nodup
  others : initial ∉ chain
  configured : ∀ name ∈ chain, name ∈ routes.map Route.name

theorem concrete_configured {name : List Char} {routes : List Route}
    {classifierRoutes : List RouteName} {route : RouteName}
    (found : concrete name routes classifierRoutes = .ok route) :
    route ∈ routes.map Route.name := by
  unfold concrete at found
  split_ifs at found
  split at found
  · cases found
  · rename_i named search
    split_ifs at found
    cases found
    exact List.mem_map_of_mem (List.mem_of_find?_eq_some search)

theorem checkTarget_good {routes : List Route} {classifierRoutes : List RouteName}
    {initial : RouteName} {state : List RouteName × List FallbackProblem} (target : List Char)
    (good : GoodChain routes initial state.1) :
    GoodChain routes initial (checkTarget routes classifierRoutes initial state target).1 := by
  unfold checkTarget
  split
  · exact good
  · rename_i route found
    split
    · exact good
    · rename_i other
      split
      · exact good
      · rename_i fresh
        rw [List.contains_iff_mem] at fresh
        constructor
        · rw [List.nodup_append]
          refine ⟨good.once, List.nodup_singleton route, ?_⟩
          intro name old last final same
          rw [same, List.mem_singleton.mp final] at old
          exact fresh old
        · rw [List.mem_append, List.mem_singleton]
          rintro (old | same)
          · exact good.others old
          · exact other same.symm
        · intro name member
          rcases List.mem_append.mp member with old | final
          · exact good.configured name old
          · rw [List.mem_singleton.mp final]
            exact concrete_configured found

theorem checkList_good {routes : List Route} {reachable classifierRoutes : List RouteName}
    {state : List (RouteName × List RouteName) × List FallbackProblem}
    (list : List Char × List (List Char))
    (good : ∀ chain ∈ state.1, GoodChain routes chain.1 chain.2) :
    ∀ chain ∈ (checkList routes reachable classifierRoutes state list).1,
      GoodChain routes chain.1 chain.2 := by
  unfold checkList
  dsimp only
  split
  · exact good
  · rename_i initial found
    have targets : GoodChain routes initial
        (list.2.foldl (checkTarget routes classifierRoutes initial) ([], [])).1 := by
      apply List.foldlRecOn list.2 (checkTarget routes classifierRoutes initial)
        (motive := fun state => GoodChain routes initial state.1)
      · exact ⟨List.nodup_nil, List.not_mem_nil, by simp⟩
      · intro state kept target _
        exact checkTarget_good target kept
    split
    · exact good
    · split
      · exact good
      · split
        · exact good
        · split
          · exact good
          · split
            · rename_i chain accepted
              rw [accepted] at targets
              intro other member
              rcases List.mem_append.mp member with old | final
              · exact good other old
              · rw [List.mem_singleton.mp final]
                exact targets
            · exact good

/-- The lists of a validated section. -/
theorem validate_good {raw : CrossRouteFallbackFile} {routes : List Route}
    {reachable classifierRoutes : List RouteName} {fallback : CrossRouteFallback}
    (validated : validate raw routes reachable classifierRoutes = .ok fallback)
    (route : RouteName) : GoodChain routes route (fallback.chain route) := by
  have lists : ∀ chain ∈ (raw.toList.foldl (checkList routes reachable classifierRoutes)
      ([], [])).1, GoodChain routes chain.1 chain.2 := by
    apply List.foldlRecOn raw.toList (checkList routes reachable classifierRoutes)
      (motive := fun state => ∀ chain ∈ state.1, GoodChain routes chain.1 chain.2)
    · simp
    · intro state kept list _
      exact checkList_good list kept
  unfold validate at validated
  split at validated
  · rename_i chains accepted
    rw [accepted] at lists
    split at validated
    · cases validated
    · cases validated
      unfold CrossRouteFallback.chain chainIn
      cases found : (chains.insertionSort fun a b =>
          configuredAt routes a.1 ≤ configuredAt routes b.1).find?
            fun (initial, _) => initial == route with
      | none => exact ⟨List.nodup_nil, List.not_mem_nil, by simp⟩
      | some chain =>
          have member := List.mem_of_find?_eq_some found
          rw [List.mem_insertionSort] at member
          have named : chain.1 = route := by simpa using List.find?_some found
          rw [← named]
          exact lists chain member
  · cases validated

end Validate

end Lightweight.Router
