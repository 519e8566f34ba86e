import Lightweight.Router.Capability
import Lightweight.Router.ConfigAccepted
import Lightweight.Router.Scoring

/-! The `auto_route` section and its check (`lightweight-router/src/auto_route.rs`), and with it the
check of a whole file as a start makes it (`validate_with_store` of
`lightweight-router/src/config.rs`). -/

namespace Lightweight.Router.Auto

open Lightweight.Core Lightweight.Catalog Classifier Scoring

def maxRuleNameChars : Nat := 64

def maxRules : Nat := 64

inductive AutoEndpoint where
  | chat
  | completion
deriving DecidableEq, Repr

/-- What a request must be for a rule to apply: every condition that is set. -/
structure AutoCondition where
  endpoint : Option AutoEndpoint := none
  requiresTools : Option Bool := none
  toolChoice : Option ToolChoiceRequirement := none
  requiresReasoning : Option Bool := none
  minPromptTokens : Option Nat := none
  maxPromptTokens : Option Nat := none
deriving DecidableEq, Repr

structure AutoRuleFile where
  name : List Char
  condition : AutoCondition
  route : Option (List Char)
  classify : Bool
deriving DecidableEq, Repr

/-- The section as written. -/
structure AutoRouteFile where
  enabled : Bool
  fallbackRoute : List Char
  rules : List AutoRuleFile
  classifier : Option ClassifierFile
  adaptiveScoring : Option AdaptiveScoringFile
  crossRouteFallback : Option CrossRouteFallbackFile

/-- The route of a classifying rule is the classifier's fallback. -/
structure AutoRule where
  name : List Char
  condition : AutoCondition
  route : RouteName
  classify : Bool
deriving DecidableEq, Repr

structure AutoRoute where
  enabled : Bool
  fallback : RouteName
  rules : List AutoRule
  classifier : Option RouteClassifier
  scoring : Option AdaptiveScoring
  crossRouteFallback : CrossRouteFallback
deriving DecidableEq, Repr

/-- Why no request could ever satisfy a condition. -/
inductive Contradiction where
  | promptTokens
  | completionTools
  | completionReasoning
  | completionToolChoice
  | toolChoiceWithoutTools
deriving DecidableEq, Repr

def AutoCondition.crossed (condition : AutoCondition) : Bool :=
  match condition.minPromptTokens, condition.maxPromptTokens with
  | some min, some max => decide (max < min)
  | _, _ => false

def AutoCondition.contradiction (condition : AutoCondition) : Option Contradiction :=
  -- A text completion carries no tools, tool choice or reasoning.
  let completion := condition.endpoint = some .completion
  if condition.crossed then some .promptTokens
  else if completion ∧ condition.requiresTools = some true then some .completionTools
  else if completion ∧ condition.requiresReasoning = some true then some .completionReasoning
  else if completion ∧ condition.toolChoice.any (· != .unspecified) then some .completionToolChoice
  else if condition.requiresTools = some false ∧
      (condition.toolChoice = some .required ∨ condition.toolChoice = some .function) then
    some .toolChoiceWithoutTools
  else none

inductive RuleNameProblem where
  | empty
  | tooLong
  | start
  | character (bad : Char)
deriving DecidableEq, Repr

/-- A rule's name becomes a label, and starts with a letter or digit so that it is never the
fallback's. -/
def ruleName (name : List Char) : Except RuleNameProblem Unit :=
  if name.isEmpty then .error .empty
  else if maxRuleNameChars < name.length then .error .tooLong
  else if !name.head?.any isAsciiAlphanumeric then .error .start
  else
    match name.find? fun c => !isNodeIdChar c with
    | some bad => .error (.character bad)
    | none => .ok ()

inductive RuleProblem where
  | name (problem : RuleNameProblem)
  | usedTwice
  | noConditions
  | minPromptTokens
  | maxPromptTokens
  | neverMatches (contradiction : Contradiction)
  | routeAndClassify
  | noRoute
  | noClassifier
  | route (name : List Char) (problem : TargetProblem)
deriving DecidableEq, Repr

/-- How a rule is named in an error: by its name, or by where it stands. -/
inductive RuleLabel where
  | named (name : List Char)
  | position (number : Nat)
deriving DecidableEq, Repr

inductive AutoProblem where
  | nameTaken (name : RouteName)
  | fallbackRoute (name : List Char) (problem : TargetProblem)
  | classifier (refusal : Classifier.Refusal)
  | scoring (problem : Scoring.Problem)
  | tooManyRules (count : Nat)
  | rule (label : RuleLabel) (problem : RuleProblem)
  | crossRoute (problem : FallbackProblem)
deriving DecidableEq, Repr

/-- The route a classifier sends its own request to, where it has one. -/
def providerRoute : ClassifierProvider → Option RouteName
  | .lightweight provider => some provider.route
  | .jev _ => none

section Validate

variable [Lowercase]

/-- The configured route `name` refers to, or why it refers to none. -/
def target (name : List Char) (routes : List Route) : Except TargetProblem RouteName :=
  if isAuto name then .error .auto
  else if isReserved name then .error .reserved
  else
    match routes.find? fun route => RouteName.matches route.name name with
    | some route => .ok route.name
    | none => .error .unconfigured

/-- What is wrong with a rule's conditions. -/
def conditionProblems (entry : AutoRuleFile) : List RuleProblem :=
  (if entry.condition = {} ∧ entry.classify = false then [.noConditions] else []) ++
    (if entry.condition.minPromptTokens = some 0 then [.minPromptTokens] else []) ++
    (if entry.condition.maxPromptTokens = some 0 then [.maxPromptTokens] else []) ++
    (entry.condition.contradiction.map RuleProblem.neverMatches).toList

/-- What is wrong with a rule's name, after those of the rules before it. -/
def nameProblems (seen : List (List Char)) (name : List Char) : List RuleProblem :=
  match ruleName name with
  | .error problem => [.name problem]
  | .ok () => if seen.any fun other => eqIgnoreAsciiCase other name then [.usedTwice] else []

/-- The route of a rule. One that classifies has none while the classifier is refused. -/
def ruleRoute (raw : AutoRouteFile) (routes : List Route) (classifier : Option RouteClassifier)
    (entry : AutoRuleFile) : Option RouteName × List RuleProblem :=
  match entry.route, entry.classify with
  | some _, true => (none, [.routeAndClassify])
  | none, false => (none, [.noRoute])
  | none, true =>
      match classifier with
      | some classifier => (some classifier.fallback, [])
      | none => (none, if raw.classifier.isNone then [.noClassifier] else [])
  | some name, false =>
      match target name routes with
      | .ok route => (some route, [])
      | .error problem => (none, [.route name problem])

structure CheckedRules where
  rules : List AutoRule
  seen : List (List Char)
  problems : List AutoProblem

def checkRule (raw : AutoRouteFile) (routes : List Route) (classifier : Option RouteClassifier)
    (state : CheckedRules) (numbered : AutoRuleFile × Nat) : CheckedRules :=
  let (entry, index) := numbered
  let name := trim entry.name
  let label := if name.isEmpty then RuleLabel.position (index + 1) else .named name
  let naming := nameProblems state.seen name
  let conditions := conditionProblems entry
  let (route, routing) := ruleRoute raw routes classifier entry
  { rules := match (naming ++ conditions).isEmpty, route with
      | true, some route =>
          state.rules ++ [⟨name, entry.condition, route, entry.classify⟩]
      | _, _ => state.rules
    seen := if naming.isEmpty then state.seen ++ [name] else state.seen
    problems := state.problems ++ (naming ++ conditions ++ routing).map (.rule label) }

def checkRules (raw : AutoRouteFile) (routes : List Route) (classifier : Option RouteClassifier) :
    CheckedRules :=
  raw.rules.zipIdx.foldl (checkRule raw routes classifier) ⟨[], [], []⟩

/-- Every route `Auto` can resolve to. -/
def reachable (rules : List AutoRule) (fallback : RouteName) (classifier : Option RouteClassifier) :
    List RouteName :=
  rules.map AutoRule.route ++ [fallback] ++
    classifier.toList.flatMap fun classifier =>
      classifier.candidates.map Candidate.route ++ [classifier.fallback]

/-- The routes that only answer a classifier. -/
def classifierRoutes (classifier : Option RouteClassifier) : List RouteName :=
  classifier.toList.flatMap fun classifier =>
    (classifier.provider :: classifier.standby.toList).filterMap providerRoute

/-- What comes of the section but for its classifier. -/
structure CheckedAuto where
  problems : List AutoProblem
  fallback : Option RouteName
  rules : List AutoRule
  scoring : Option AdaptiveScoring
  crossRouteFallback : Option CrossRouteFallback

def nameTaken (routes : List Route) : List AutoProblem :=
  ((routes.filter fun route => isAuto route.name).map Route.name).map .nameTaken

def checkScoring (raw : AutoRouteFile) (classifier : Option RouteClassifier) :
    Option AdaptiveScoring × List AutoProblem :=
  match raw.adaptiveScoring with
  | none => (none, [])
  | some scoring =>
      match Scoring.validate scoring classifier raw.classifier.isSome with
      | .ok scoring => (some scoring, [])
      | .error problems => (none, problems.map .scoring)

/-- The lists of routes to move to, checked last and only where all else is well. -/
def checkCrossRoute (raw : AutoRouteFile) (routes : List Route) (clean : Bool)
    (fallback : Option RouteName) (rules : List AutoRule) (classifier : Option RouteClassifier) :
    Option CrossRouteFallback × List AutoProblem :=
  match raw.crossRouteFallback, fallback, clean with
  | some lists, some fallback, true =>
      match Router.validate lists routes (reachable rules fallback classifier)
          (classifierRoutes classifier) with
      | .ok checked => (some checked, [])
      | .error problems => (none, problems.map .crossRoute)
  | _, _, _ => (some ⟨[]⟩, [])

/-- The checks around the classifier, which was found to be `classifier` with the problems given. -/
def check (raw : AutoRouteFile) (routes : List Route) (found : List AutoProblem)
    (classifier : Option RouteClassifier) : CheckedAuto :=
  let fallback := target raw.fallbackRoute routes
  let scoring := checkScoring raw classifier
  let many := if maxRules < raw.rules.length then [AutoProblem.tooManyRules raw.rules.length] else []
  let rules := checkRules raw routes classifier
  let before := nameTaken routes ++ (problems fallback).map (.fallbackRoute raw.fallbackRoute) ++
    found ++ scoring.2 ++ many ++ rules.problems
  let cross := checkCrossRoute raw routes before.isEmpty fallback.toOption rules.rules classifier
  { problems := before ++ cross.2
    fallback := fallback.toOption
    rules := rules.rules
    scoring := scoring.1
    crossRouteFallback := cross.1 }

def assemble (raw : AutoRouteFile) (classifier : Option RouteClassifier) (checked : CheckedAuto) :
    Except (List AutoProblem) AutoRoute :=
  match checked.problems.isEmpty, checked.fallback, checked.crossRouteFallback with
  | true, some fallback, some crossRouteFallback =>
      .ok { enabled := raw.enabled, fallback, rules := checked.rules, classifier
            scoring := checked.scoring, crossRouteFallback }
  | _, _, _ => .error checked.problems

/-- The classifier of the section, against the routes as the file describes them. -/
def checkClassifier (urls : UrlReader) (raw : AutoRouteFile) (described : List Described)
    (env stored : Env) : Option RouteClassifier × List AutoProblem :=
  match raw.classifier with
  | none => (none, [])
  | some written =>
      match Classifier.validate urls written described raw.fallbackRoute env stored with
      | .ok classifier => (some classifier, [])
      | .error refusals => (none, refusals.map .classifier)

/-- `auto_route::validate`. -/
def validate (urls : UrlReader) (raw : AutoRouteFile) (routes : List Route)
    (described : List Described) (env stored : Env) : Except (List AutoProblem) AutoRoute :=
  let classifier := checkClassifier urls raw described env stored
  assemble raw classifier.1 (check raw routes classifier.2 classifier.1)

/-! The whole file. -/

/-- A file as it is read. `earlier` is what the sections before the nodes are refused for. -/
structure WholeFile where
  file : RouterFile
  earlier : Env → List ConfigError
  autoRoute : Option AutoRouteFile

inductive StartRefusal where
  | config (error : ConfigError)
  | auto (problem : AutoProblem)
deriving DecidableEq, Repr

structure RouterConfig where
  topology : Topology
  auto : Option AutoRoute

/-- A route with what the operator said it is for. In a file that is accepted, a name is one entry's. -/
def describe (raw : List RouteFile) (route : Route) : Described where
  name := route.name
  description :=
    (raw.find? fun entry => (RouteName.parse entry.name).toOption == some route.name).bind fun entry =>
      entry.description.bind fun description => (validateDescription description).toOption

def checkAuto (urls : UrlReader) (whole : WholeFile) (routes : List Route) (env stored : Env) :
    Option AutoRoute × List AutoProblem :=
  match whole.autoRoute with
  | none => (none, [])
  | some raw =>
      match validate urls raw routes (routes.map (describe whole.file.routes)) env stored with
      | .ok auto => (some auto, [])
      | .error problems => (none, problems)

/-- The nodes and the routes of a file, checked. -/
def checkedNodes (urls : UrlReader) (whole : WholeFile) (env : Env) : CheckedNodes :=
  validateNodes ⟨env, urls.parse⟩ whole.file.nodes (whole.earlier env ++ missingSections whole.file)

def checkedRoutes (urls : UrlReader) (whole : WholeFile) (env : Env) : CheckedRoutes :=
  let nodes := checkedNodes urls whole env
  validateRoutes whole.file.routes nodes.nodes nodes.errors

/-- What is wrong with a file but for its `auto_route` section. -/
def topologyErrors (urls : UrlReader) (whole : WholeFile) (env : Env) : List ConfigError :=
  let routes := checkedRoutes urls whole env
  routes.errors ++ (findDefaultRoute routes.routes whole.file.defaultRoute).2

/-- `config::validate_with_store`. -/
def validateWithStore (urls : UrlReader) (whole : WholeFile) (env stored : Env) :
    Except (List StartRefusal) RouterConfig :=
  let auto := checkAuto urls whole (checkedRoutes urls whole env).routes env stored
  let errors := (topologyErrors urls whole env).map StartRefusal.config ++ auto.2.map .auto
  if errors.isEmpty then
    .ok { topology := Topology.ofChecked (checkedNodes urls whole env)
            (validateNodes_good ⟨env, urls.parse⟩ whole.file.nodes _) whole.file.routes
            whole.file.defaultRoute
          auto := auto.1 }
  else .error errors

/-- Whether the router would start from the file. -/
def Starts (urls : UrlReader) (whole : WholeFile) (env stored : Env) : Prop :=
  topologyErrors urls whole env = [] ∧
    (checkAuto urls whole (checkedRoutes urls whole env).routes env stored).2 = []

theorem validateWithStore_isOk {urls : UrlReader} {whole : WholeFile} {env stored : Env} :
    (validateWithStore urls whole env stored).isOk = true ↔ Starts urls whole env stored := by
  unfold validateWithStore
  dsimp only
  split
  · rename_i clean
    simpa [Starts, Except.isOk, Except.toBool] using clean
  · rename_i refused
    simpa [Starts, Except.isOk, Except.toBool] using refused

/-- The topology of a file that is accepted is the one that its nodes and routes give without the
section. -/
theorem validateWithStore_topology {urls : UrlReader} {whole : WholeFile} {env stored : Env}
    {config : RouterConfig} (accepted : validateWithStore urls whole env stored = .ok config) :
    RouterFile.validate ⟨env, urls.parse⟩ (whole.earlier env) (fun _ => []) whole.file =
      .ok config.topology := by
  unfold validateWithStore at accepted
  dsimp only at accepted
  split at accepted
  · rename_i clean
    cases accepted
    have none_ : topologyErrors urls whole env = [] := by
      rw [List.isEmpty_iff, List.append_eq_nil_iff, List.map_eq_nil_iff] at clean
      exact clean.1
    have clean : (topologyErrors urls whole env ++ []).isEmpty = true := by
      rw [none_, List.append_nil, List.isEmpty_nil]
    exact if_pos clean
  · cases accepted

end Validate

end Lightweight.Router.Auto
