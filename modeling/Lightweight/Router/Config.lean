import Mathlib.Data.List.Sort
import Lightweight.Catalog.Names
import Lightweight.Router.Select

/-! The configuration file and the check that makes a topology of it
(`lightweight-router/src/config.rs`). Every reason to refuse is collected; only a file without one
is accepted. The sections that say nothing of nodes and routes are told by their errors. -/

namespace Lightweight.Router

open Lightweight.Core Lightweight.Catalog

def maxNodeIdChars : Nat := 64

inductive NodeIdProblem where
  | empty
  | tooLong
  | character (bad : Char)
deriving DecidableEq, Repr

def isNodeIdChar (c : Char) : Bool :=
  isAsciiAlphanumeric c || c == '.' || c == '_' || c == '-'

def NodeId.parse (raw : List Char) : Except NodeIdProblem NodeId :=
  let id := trim raw
  if id.isEmpty then .error .empty
  else if maxNodeIdChars < id.length then .error .tooLong
  else match id.find? fun c => !isNodeIdChar c with
    | some bad => .error (.character bad)
    | none => .ok id

def RouteName.parse (raw : List Char) : Except AliasProblem RouteName :=
  validateAlias raw

structure NodeFile where
  id : List Char
  url : List Char
  enabled : Bool
  apiKeyEnv : Option (List Char)
deriving DecidableEq, Repr

structure DeploymentFile where
  node : List Char
  model : List Char
deriving DecidableEq, Repr

structure RoutePlacementFile where
  minReady : Nat
  warmStandby : Nat
  allowedNodes : List (List Char)
deriving DecidableEq, Repr

structure RouteFile where
  name : List Char
  strategy : RoutePolicy
  description : Option (List Char)
  deployments : List DeploymentFile
  placement : Option RoutePlacementFile
deriving DecidableEq, Repr

structure RouterFile where
  defaultRoute : Option (List Char)
  nodes : List NodeFile
  routes : List RouteFile
deriving DecidableEq, Repr

inductive UrlProblem where
  | invalid
  | scheme
  | noHost
  | credentials
  | queryOrFragment
deriving DecidableEq, Repr

inductive DescriptionProblem where
  | empty
  | tooLong
  | controlCharacter
deriving DecidableEq, Repr

inductive PlacementProblem where
  | minReadyZero
  | noAllowedNodes
  | listedTwice (node : List Char)
  | noDeployment (node : List Char)
  | tooFewDeployments (target reachable : Nat)
deriving DecidableEq, Repr

/-- `section` is any reason of the sections that are left out. -/
inductive ConfigError where
  | noNodes
  | noRoutes
  | badNodeId (id : List Char) (problem : NodeIdProblem)
  | duplicateNode (id : NodeId)
  | badUrl (node : NodeId) (url : List Char) (problem : UrlProblem)
  | badEnvName (owner var : List Char)
  | missingEnv (owner var : List Char)
  | badRouteName (name : List Char) (problem : AliasProblem)
  | reservedRouteName (name : List Char)
  | duplicateRoute (name : RouteName)
  | emptyRoute (route : RouteName)
  | unknownNode (route : RouteName) (node : List Char)
  | emptyModel (route : RouteName) (node : NodeId)
  | badModel (route : RouteName) (node : NodeId)
  | duplicateDeployment (route : RouteName) (deployment : DeploymentId)
  | unknownDefaultRoute (name : List Char)
  | badRoutePlacement (route : RouteName) (problem : PlacementProblem)
  | badRouteDescription (route : RouteName) (problem : DescriptionProblem)
  | otherSection (problem : List Char)
deriving DecidableEq, Repr

/-- What of a parsed URL is looked at. -/
structure Url where
  scheme : List Char
  host : Option (List Char)
  username : List Char
  password : Option (List Char)
  query : Option (List Char)
  fragment : Option (List Char)
deriving DecidableEq, Repr

/-- The process environment, and the URL parser. -/
structure Surroundings where
  env : List Char → Option (List Char)
  parseUrl : List Char → Option Url

def validateUrl (parseUrl : List Char → Option Url) (raw : List Char) : Except UrlProblem Url :=
  match parseUrl (trim raw) with
  | none => .error .invalid
  | some url =>
      if url.scheme ≠ ['h', 't', 't', 'p'] ∧ url.scheme ≠ ['h', 't', 't', 'p', 's'] then
        .error .scheme
      else if url.host.all List.isEmpty then .error .noHost
      else if !url.username.isEmpty || url.password.isSome then .error .credentials
      else if url.query.isSome || url.fragment.isSome then .error .queryOrFragment
      else .ok url

/-- A name `readSecret` will look up. -/
def usableEnvName (var : List Char) : Bool :=
  !var.isEmpty && var.all (fun c => isAsciiAlphanumeric c || c == '_') &&
    !(var.head?.any fun c => '0' ≤ c && c ≤ '9')

def readSecret (owner var : List Char) (env : List Char → Option (List Char)) :
    Except ConfigError (List Char) :=
  if !usableEnvName var then .error (.badEnvName owner var)
  else match (env var).map trim with
    | some (c :: value) => .ok (c :: value)
    | _ => .error (.missingEnv owner var)

def maxDescriptionChars : Nat := 200

def validateDescription (raw : List Char) : Except DescriptionProblem (List Char) :=
  let description := trim raw
  if description.isEmpty then .error .empty
  else if maxDescriptionChars < description.length then .error .tooLong
  else if description.any isControl then .error .controlCharacter
  else .ok description

/-- Why something was refused, if it was. -/
def problems {ε α : Type} : Except ε α → List ε
  | .ok _ => []
  | .error problem => [problem]

structure CheckedNodes where
  seen : List (List Char)
  nodes : List Node
  errors : List ConfigError

/-- One node of the file. Ids are compared ignoring ASCII case; a disabled node's key is not
demanded. -/
def checkNode (around : Surroundings) (state : CheckedNodes) (entry : NodeFile) : CheckedNodes :=
  match NodeId.parse entry.id with
  | .error problem => { state with errors := state.errors ++ [.badNodeId entry.id problem] }
  | .ok id =>
      if state.seen.contains (id.map Char.toLower) then
        { state with errors := state.errors ++ [.duplicateNode id] }
      else
        let url := validateUrl around.parseUrl entry.url
        let auth := match entry.apiKeyEnv, entry.enabled with
          | some var, true => problems (readSecret id var around.env)
          | _, _ => []
        { seen := state.seen ++ [id.map Char.toLower]
          nodes := match url with
            | .ok _ => state.nodes ++ [⟨id, entry.enabled⟩]
            | .error _ => state.nodes
          errors := state.errors ++ (problems url).map (.badUrl id entry.url) ++ auth }

def validateNodes (around : Surroundings) (raw : List NodeFile) (errors : List ConfigError) :
    CheckedNodes :=
  raw.foldl (checkNode around) ⟨[], [], errors⟩

section Routes

variable [Lowercase]

structure CheckedMembers where
  members : List DeploymentId
  deployments : List Deployment
  errors : List ConfigError

/-- One deployment of a route. A pair of node and model that is there already is shared. A node id
that does not parse is passed over in silence, as reported by the node's own check. -/
def checkListed (nodes : List Node) (route : RouteName) (state : CheckedMembers)
    (listed : DeploymentFile) : CheckedMembers :=
  match nodes.find? fun node => node.id == trim listed.node with
  | none =>
      let reported := state.errors.any fun
        | .badUrl node _ _ => node == trim listed.node
        | _ => false
      if (NodeId.parse listed.node).isOk && !reported then
        { state with errors := state.errors ++ [.unknownNode route listed.node] }
      else state
  | some node =>
      let model := trim listed.model
      if model.isEmpty then { state with errors := state.errors ++ [.emptyModel route node.id] }
      else if model.any isControl then
        { state with errors := state.errors ++ [.badModel route node.id] }
      else
        let existing := state.deployments.find? fun deployment =>
          deployment.node == node.id && sameName deployment.remoteModel model
        let id := match existing with
          | some deployment => deployment.id
          | none => DeploymentId.of node.id model
        let deployments := match existing with
          | some _ => state.deployments
          | none => state.deployments ++ [⟨id, node.id, model⟩]
        if state.members.contains id then
          { state with deployments, errors := state.errors ++ [.duplicateDeployment route id] }
        else { state with members := state.members ++ [id], deployments }

/-- The members of a route on a node, compared ignoring ASCII case. -/
def membersOn (members : List DeploymentId) (deployments : List Deployment) (node : List Char) :
    List DeploymentId :=
  members.filter fun id => deployments.any fun deployment =>
    deployment.id == id && eqIgnoreAsciiCase deployment.node node

/-- The loop over `allowed_nodes`. -/
def allowedOn (members : List DeploymentId) (deployments : List Deployment) :
    List (List Char) → List (List Char) → List DeploymentId →
      Except PlacementProblem (List DeploymentId)
  | [], _, allowed => .ok allowed
  | node :: rest, named, allowed =>
      if named.contains (node.map Char.toLower) then .error (.listedTwice node)
      else
        match membersOn members deployments node with
        | [] => .error (.noDeployment node)
        | found =>
            allowedOn members deployments rest (named ++ [node.map Char.toLower]) (allowed ++ found)

/-- Check one route's placement against the deployments it actually has. -/
def validateRoutePlacement (raw : RoutePlacementFile) (members : List DeploymentId)
    (deployments : List Deployment) : Except PlacementProblem RoutePlacement :=
  if raw.minReady = 0 then .error .minReadyZero
  else if raw.allowedNodes.isEmpty then .error .noAllowedNodes
  else
    match allowedOn members deployments raw.allowedNodes [] [] with
    | .error problem => .error problem
    | .ok allowed =>
        let placement : RoutePlacement :=
          ⟨raw.minReady, raw.warmStandby,
            allowed.insertionSort fun a b => members.idxOf a ≤ members.idxOf b⟩
        if members.length < placement.target then
          .error (.tooFewDeployments placement.target members.length)
        else .ok placement

structure CheckedRoutes where
  routes : List Route
  deployments : List Deployment
  errors : List ConfigError

/-- One route of the file. -/
def checkRoute (nodes : List Node) (state : CheckedRoutes) (entry : RouteFile) : CheckedRoutes :=
  match RouteName.parse entry.name with
  | .error .reserved => { state with errors := state.errors ++ [.reservedRouteName entry.name] }
  | .error problem => { state with errors := state.errors ++ [.badRouteName entry.name problem] }
  | .ok name =>
      if state.routes.any fun route => RouteName.matches route.name name then
        { state with errors := state.errors ++ [.duplicateRoute name] }
      else if entry.deployments.isEmpty then
        { state with errors := state.errors ++ [.emptyRoute name] }
      else
        let checked := entry.deployments.foldl (checkListed nodes name)
          ⟨[], state.deployments, state.errors⟩
        let placement := entry.placement.map fun raw =>
          validateRoutePlacement raw checked.members checked.deployments
        let description := entry.description.map validateDescription
        { routes := state.routes ++
            [⟨name, entry.strategy, checked.members, placement.bind Except.toOption⟩]
          deployments := checked.deployments
          errors := checked.errors ++
            (placement.toList.flatMap problems).map (.badRoutePlacement name) ++
            (description.toList.flatMap problems).map (.badRouteDescription name) }

def validateRoutes (raw : List RouteFile) (nodes : List Node) (errors : List ConfigError) :
    CheckedRoutes :=
  raw.foldl (checkRoute nodes) ⟨[], [], errors⟩

/-- Where the default route stands, and why there is none if there should be. -/
def findDefaultRoute (routes : List Route) (name : Option (List Char)) :
    Option Nat × List ConfigError :=
  match name with
  | none => (none, [])
  | some name =>
      if isReserved name then (none, [.unknownDefaultRoute name])
      else
        match routes.findIdx? fun route => RouteName.matches route.name name with
        | none => (none, [.unknownDefaultRoute name])
        | some found => (some found, [])

end Routes

end Lightweight.Router
