import Lightweight.Router.AutoRoute
import Lightweight.Router.PanelClassifier

/-! The rules of the panel's fallback screen (`frontend/src/screens/router/fallbackModel.ts`): the
running lists as a draft, the check of a draft, and the section made of it. -/

namespace Lightweight.Router.Panel

open Lightweight.Core Lightweight.Catalog Classifier

/-- The most fallback routes one list may name. -/
def maxFallbackRoutes : Nat := 3

/-- What the router's administration tells of a classifier's routes. -/
structure ClassifierView where
  route : Option RouteName
  candidates : List RouteName
  fallbackRoute : RouteName
  lightweightRoute : Option RouteName

/-- What it tells of `Auto`; without the section there is nothing to tell. -/
structure AutoView where
  rules : List RouteName
  fallbackRoute : Option RouteName
  classifier : Option ClassifierView

structure FallbackContext where
  routes : List RouteName
  reachable : List RouteName
  classifierRoutes : List RouteName

/-- An initial route and its fallback routes, as typed. -/
structure ChainDraft where
  id : Nat
  source : List Char
  targets : List Char

/-- Why a name refers to no route. -/
inductive NameProblem where
  | empty
  | auto (name : List Char)
  | reserved (name : List Char)
  | unconfigured (name : List Char)
  | classifier (route : RouteName)
deriving DecidableEq, Repr

inductive ChainProblem where
  | chooseSource
  | source (problem : NameProblem)
  | neverResolved (source : RouteName)
  | hasList (source : RouteName)
  | noTargets
  | tooMany (count : Nat)
  | target (problem : NameProblem)
  | itself
  | listedTwice (target : RouteName)
deriving DecidableEq, Repr

/-- The problems by the ids of their rows, and a cycle across the lists. -/
structure ChainProblems where
  rows : List (Nat × ChainProblem)
  cycle : Option (List RouteName)

/-- The rows looked at, of which `seen` have a source. -/
structure Checking where
  problems : List (Nat × ChainProblem)
  resolved : List (RouteName × List RouteName)
  seen : List RouteName

def Checking.fail (state : Checking) (row : ChainDraft) (problem : ChainProblem) : Checking :=
  { state with problems := state.problems ++ [(row.id, problem)] }

/-- The running lists, as `Object.entries` lists them, in rows. -/
def draftFrom (entries : List (List Char × List (List Char))) : List ChainDraft :=
  entries.zipIdx.map fun ((source, targets), index) =>
    { id := index + 1, source, targets := (", ".toList).intercalate targets }

def parseTargets (text : List Char) : List (List Char) :=
  ((text.splitOn ',').map trim).filter fun name => !name.isEmpty

/-- `Set.add`. -/
def addTo (set : List RouteName) (name : RouteName) : List RouteName :=
  if set.contains name then set else set ++ [name]

/-! ### The search for a cycle -/

/-- The loop over the routes a route points at. -/
def visitEach
    (visit : RouteName → List RouteName → Option (Option (List RouteName) × List RouteName)) :
    List RouteName → List RouteName → Option (Option (List RouteName) × List RouteName)
  | [], done => some (none, done)
  | next :: rest, done =>
      match visit next done with
      | none => none
      | some (some cycle, done) => some (some cycle, done)
      | some (none, done) => visitEach visit rest done

/-- One visit, unless its calls are nested deeper than the fuel. -/
def visit (edges : RouteName → List RouteName) :
    Nat → RouteName → List RouteName → List RouteName →
      Option (Option (List RouteName) × List RouteName)
  | 0, _, _, _ => none
  | fuel + 1, node, path, done =>
      if path.contains node then some (some (path.drop (path.idxOf node) ++ [node]), done)
      else if done.contains node then some (none, done)
      else
        match visitEach (fun next done => visit edges fuel next (path ++ [node]) done) (edges node)
            done with
        | none => none
        | some (some cycle, done) => some (some cycle, done)
        | some (none, done) => some (none, addTo done node)

/-- `new Map(chains)`, where the last list of a route counts. -/
def edges (chains : List (RouteName × List RouteName)) (node : RouteName) : List RouteName :=
  ((chains.reverse.find? fun (source, _) => source == node).map Prod.snd).getD []

def findCycleWithin (fuel : Nat) (chains : List (RouteName × List RouteName)) :
    Option (Option (List RouteName)) :=
  (visitEach (fun source done => visit (edges chains) fuel source [] done) (chains.map Prod.fst)
    []).map Prod.fst

/-- The search, with fuel for every name there is. -/
def findCycle (chains : List (RouteName × List RouteName)) : Option (List RouteName) :=
  (findCycleWithin ((listedNames chains).length + 1) chains).getD none

section Panel

variable [Lowercase]

def same (a b : List Char) : Bool :=
  Lowercase.toLowercase (trim a) == Lowercase.toLowercase (trim b)

/-- The routes and roles the running router reports. -/
def contextFrom (auto : AutoView) (routes : List RouteName) : FallbackContext :=
  let given (name : RouteName) : Bool := !name.isEmpty
  { routes := routes.filter isLogicalRoute
    reachable := (auto.rules ++ auto.fallbackRoute.toList.filter given ++
      auto.classifier.toList.flatMap fun classifier =>
        classifier.candidates ++ [classifier.fallbackRoute].filter given).foldl addTo []
    classifierRoutes := (auto.classifier.toList.flatMap fun classifier =>
      classifier.route.toList ++ classifier.lightweightRoute.toList).filter given }

/-- The configured route `name` refers to, or why it refers to none. -/
def concrete (name : List Char) (ctx : FallbackContext) : Except NameProblem RouteName :=
  let trimmed := trim name
  if trimmed.isEmpty then .error .empty
  else if same trimmed "auto".toList then .error (.auto trimmed)
  else if same trimmed "default".toList then .error (.reserved trimmed)
  else
    match (ctx.routes.find? (same · trimmed)).filter fun route => !route.isEmpty with
    | none => .error (.unconfigured trimmed)
    | some route =>
        if ctx.classifierRoutes.any (same · route) then .error (.classifier route) else .ok route

/-- The targets of a row, up to the first that is wrong. -/
def checkTargets (ctx : FallbackContext) (source : RouteName) :
    List RouteName → List (List Char) → Except ChainProblem (List RouteName)
  | targets, [] => .ok targets
  | targets, name :: names =>
      match concrete name ctx with
      | .error problem => .error (.target problem)
      | .ok target =>
          if same target source then .error .itself
          else if targets.any (same · target) then .error (.listedTwice target)
          else checkTargets ctx source (targets ++ [target]) names

def checkRow (ctx : FallbackContext) (state : Checking) (row : ChainDraft) : Checking :=
  if (trim row.source).isEmpty then state.fail row .chooseSource
  else
    match concrete row.source ctx with
    | .error problem => state.fail row (.source problem)
    | .ok source =>
        if !ctx.reachable.any (same · source) then state.fail row (.neverResolved source)
        else if state.seen.any (same · source) then state.fail row (.hasList source)
        else
          let state := { state with seen := state.seen ++ [source] }
          let names := parseTargets row.targets
          if names.isEmpty then state.fail row .noTargets
          else if maxFallbackRoutes < names.length then state.fail row (.tooMany names.length)
          else
            match checkTargets ctx source [] names with
            | .error problem => state.fail row problem
            | .ok targets => { state with resolved := state.resolved ++ [(source, targets)] }

def validateChains (rows : List ChainDraft) (ctx : FallbackContext) : ChainProblems :=
  let checked := rows.foldl (checkRow ctx) ⟨[], [], []⟩
  { rows := checked.problems, cycle := findCycle checked.resolved }

def hasChainProblems (problems : ChainProblems) : Bool :=
  problems.cycle.isSome || !problems.rows.isEmpty

/-- A member of an object is set. -/
def setMember (object : CrossRouteFallbackFile) (key : List Char) (value : List (List Char)) :
    CrossRouteFallbackFile :=
  if key = protoKey then object else object.insert key value

/-- The section, spelled as the router spells its routes. -/
def fallbackSection (rows : List ChainDraft) (ctx : FallbackContext) : CrossRouteFallbackFile :=
  rows.foldl (fun object row =>
    match concrete row.source ctx with
    | .error _ => object
    | .ok source =>
        setMember object source
          ((parseTargets row.targets).filterMap fun name => (concrete name ctx).toOption)) ∅

end Panel

/-! ### What the router reports -/

/-- The lists, as the admin view shows them. -/
def view (fallback : CrossRouteFallback) : CrossRouteFallbackFile :=
  fallback.chains.foldl (fun chains (initial, chain) => chains.insert initial chain) ∅

def classifierView (classifier : RouteClassifier) : ClassifierView where
  route := Auto.providerRoute classifier.provider
  candidates := classifier.candidates.map Candidate.route
  fallbackRoute := classifier.fallback
  -- A block for each provider, under the name of its kind: of two for one kind the last counts.
  lightweightRoute := ((classifier.provider :: classifier.standby.toList).filterMap
    Auto.providerRoute).getLast?

def autoView (auto : Option Auto.AutoRoute) : AutoView where
  rules := auto.toList.flatMap fun auto => auto.rules.map Auto.AutoRule.route
  fallbackRoute := auto.map Auto.AutoRoute.fallback
  classifier := auto.bind fun auto => auto.classifier.map classifierView

end Lightweight.Router.Panel
