import Lightweight.Binary64
import Lightweight.Utf8
import Lightweight.Router.Config
import Lightweight.Router.Fallback
import Lightweight.Router.Json

/-! Route classification (`lightweight-router/src/classifier/`): the check of the classifier section
against the configured routes and the environment, the two providers' answers, and the
classification that comes of one. -/

namespace Lightweight.Router.Classifier

open Lightweight.Core Lightweight.Catalog Binary64

def maxTimeoutMs : Nat := 120000

/-- The double next to 0.65. -/
def defaultMinConfidence : Exact := Binary64.value 0x3fe4cccccccccccd

def defaultMaxInputChars : Nat := 2000

def maxInputChars : Nat := 32000

def maxCandidates : Nat := 16

inductive ProviderKind where
  | lightweight
  | jev
deriving DecidableEq, Repr

/-- The `classifier.lightweight` block, as written. -/
structure LightweightFile where
  route : List Char
  timeoutMs : Option Nat
  minConfidence : Exact
  maxInputChars : Nat
deriving DecidableEq, Repr

/-- The `classifier.jev` block, as written. -/
structure JevFile where
  baseUrl : List Char
  apiKeyEnv : List Char
  model : Option (List Char)
  timeoutMs : Option Nat
  minConfidence : Exact
  maxInputChars : Nat
  includeUserText : Bool
deriving DecidableEq, Repr

/-- The `auto_route.classifier` section, as written. The last four are a shorthand for the
`lightweight` block. -/
structure ClassifierFile where
  provider : ProviderKind
  routes : List (List Char)
  fallbackRoute : Option (List Char)
  lightweight : Option LightweightFile
  jev : Option JevFile
  route : Option (List Char)
  timeoutMs : Option Nat
  minConfidence : Option Exact
  maxInputChars : Option Nat
deriving DecidableEq, Repr

/-- What the classifier's check reads of a configured route. -/
structure Described where
  name : RouteName
  description : Option (List Char)
deriving DecidableEq, Repr

/-- A route a classifier may recommend, and what the operator said it is for. -/
structure Candidate where
  route : RouteName
  description : Option (List Char)
deriving DecidableEq, Repr

/-- One provider's bounds; the timeout in milliseconds. -/
structure Limits where
  timeout : Nat
  minConfidence : Exact
  maxInputChars : Nat
deriving DecidableEq, Repr

structure LightweightClassifier where
  route : RouteName
  limits : Limits
deriving DecidableEq, Repr

/-- Where a Jev key was found. -/
inductive KeySource where
  | environment
  | credentialStore
  | missing
deriving DecidableEq, Repr

structure JevClassifier where
  baseUrl : List Char
  apiKeyEnv : List Char
  key : Option (List Char)
  keySource : KeySource
  model : List Char
  limits : Limits
  includeUserText : Bool
deriving DecidableEq, Repr

inductive ClassifierProvider where
  | lightweight (provider : LightweightClassifier)
  | jev (provider : JevClassifier)
deriving DecidableEq, Repr

def ClassifierProvider.kind : ClassifierProvider → ProviderKind
  | .lightweight _ => .lightweight
  | .jev _ => .jev

def ClassifierProvider.limits : ClassifierProvider → Limits
  | .lightweight provider => provider.limits
  | .jev provider => provider.limits

/-- The validated classifier; `standby` is the other provider, when its block is configured too. -/
structure RouteClassifier where
  candidates : List Candidate
  fallback : RouteName
  provider : ClassifierProvider
  standby : Option ClassifierProvider
deriving DecidableEq, Repr

def RouteClassifier.limits (classifier : RouteClassifier) : Limits := classifier.provider.limits

/-- The same classifier with another of its providers asked. -/
def RouteClassifier.asking (classifier : RouteClassifier) (provider : ClassifierProvider) :
    RouteClassifier :=
  { classifier with provider }

/-! The check. -/

/-- Why a name is no route for the classifier. -/
inductive TargetProblem where
  | auto
  | reserved
  | unconfigured
deriving DecidableEq, Repr

/-- A reason to refuse the section; `place` is where the field stands in it. -/
inductive Problem where
  | fallbackRoute (name : List Char) (problem : TargetProblem)
  | noRoutes
  | tooManyRoutes (count : Nat)
  | listedTwice (name : List Char)
  | routesEntry (name : List Char) (problem : TargetProblem)
  | blockAndShorthand
  | routeRequired
  | route (place name : List Char) (problem : TargetProblem)
  | minConfidence (place : List Char)
  | timeoutRequired (place : List Char)
  | timeoutRange (place : List Char)
  | maxInputChars (place : List Char)
  | baseUrlScheme (url : List Char)
  | baseUrl (url : List Char) (problem : UrlProblem)
  | modelRequired
  | modelEmpty
  | modelInvalid
  | lightweightMissing
  | jevMissing
deriving DecidableEq, Repr

/-- What a check found wrong, and its result. -/
structure Checked (α : Type) where
  problems : List Problem
  result : Option α

def report {α : Type} (say : TargetProblem → Problem) : Except TargetProblem α → Checked α
  | .ok result => ⟨[], some result⟩
  | .error problem => ⟨[say problem], none⟩

/-- Check one provider's bounds. -/
def validateLimits (place : List Char) (timeoutMs : Option Nat) (minConfidence : Exact)
    (inputChars : Nat) : Checked Limits :=
  let confidence :=
    if !Exact.within 0 1 minConfidence then [Problem.minConfidence place] else []
  let timeout := match timeoutMs with
    | none => [Problem.timeoutRequired place]
    | some timeout =>
        if timeout = 0 ∨ maxTimeoutMs < timeout then [Problem.timeoutRange place] else []
  let chars :=
    if inputChars = 0 ∨ maxInputChars < inputChars then [Problem.maxInputChars place] else []
  let problems := confidence ++ timeout ++ chars
  { problems
    result := if problems.isEmpty then
        some { timeout := timeoutMs.getD 1, minConfidence, maxInputChars := inputChars }
      else none }

/-- The URL parser, how it writes a URL, and which hosts are IP addresses of the machine itself. -/
structure UrlReader where
  parse : List Char → Option Url
  asStr : Url → List Char
  isLoopbackIp : List Char → Bool

def localhost : List Char := ['l', 'o', 'c', 'a', 'l', 'h', 'o', 's', 't']

def https : List Char := ['h', 't', 't', 'p', 's']

def isLoopback (urls : UrlReader) (url : Url) : Bool :=
  url.host.any fun host =>
    eqIgnoreAsciiCase host localhost ||
      urls.isLoopbackIp ((host.dropWhile (· == '[')).rdropWhile (· == ']'))

def validateBaseUrl (urls : UrlReader) (raw : List Char) : Checked (List Char) :=
  match validateUrl urls.parse raw with
  | .ok url =>
      if url.scheme = https ∨ isLoopback urls url = true then
        ⟨[], some ((urls.asStr url).rdropWhile (· == '/'))⟩
      else ⟨[.baseUrlScheme raw], none⟩
  | .error problem => ⟨[.baseUrl raw problem], none⟩

/-- The length in bytes. -/
def byteLength (text : List Char) : Nat := (Utf8.encode text).length

def validateModel (raw : Option (List Char)) : Checked (List Char) :=
  match raw.map trim with
  | none => ⟨[.modelRequired], none⟩
  | some model =>
      if model.isEmpty then ⟨[.modelEmpty], none⟩
      else if model.any isControl || decide (128 < byteLength model) then ⟨[.modelInvalid], none⟩
      else ⟨[], some model⟩

/-- A value that is there and not blank, trimmed. -/
def present (value : Option (List Char)) : Option (List Char) :=
  (value.map trim).filter fun value => !value.isEmpty

abbrev Env := List Char → Option (List Char)

/-- The owner named in the errors of the Jev block. -/
def jevOwner : List Char :=
  ['a', 'u', 't', 'o', '_', 'r', 'o', 'u', 't', 'e', '.', 'c', 'l', 'a', 's', 's', 'i', 'f', 'i', 'e',
    'r', '.', 'j', 'e', 'v']

/-- A key from the credential store, under a name that would be looked up. -/
def fromStore (stored : Env) (var : List Char) : Option (List Char) :=
  if usableEnvName var then present (stored var) else none

/-- The key of the Jev provider and where it was found. Only the active provider has to have one. -/
def findKey (raw : JevFile) (active : Bool) (env stored : Env) :
    Except ConfigError (Option (List Char) × KeySource) :=
  if active then
    match readSecret jevOwner raw.apiKeyEnv env with
    | .ok key => .ok (some key, .environment)
    | .error missing =>
        match fromStore stored raw.apiKeyEnv with
        | some value => .ok (some value, .credentialStore)
        | none => .error missing
  else
    match present (env raw.apiKeyEnv) with
    | some value => .ok (some value, .environment)
    | none =>
        match fromStore stored raw.apiKeyEnv with
        | some value => .ok (some value, .credentialStore)
        | none => .ok (none, .missing)

def jevPlace : List Char := ['j', 'e', 'v', '.']

/-- `jev::validate`, with the errors that it reports itself. -/
def validateJev (urls : UrlReader) (raw : JevFile) (active : Bool) (env stored : Env) :
    Checked JevClassifier × List ConfigError :=
  let baseUrl := validateBaseUrl urls raw.baseUrl
  let model := validateModel raw.model
  let limits := validateLimits jevPlace raw.timeoutMs raw.minConfidence raw.maxInputChars
  let problems := baseUrl.problems ++ model.problems ++ limits.problems
  match findKey raw active env stored with
  | .error missing => (⟨problems, none⟩, [missing])
  | .ok (key, keySource) =>
      (⟨problems,
        match baseUrl.result, model.result, limits.result with
        | some baseUrl, some model, some limits =>
            some { baseUrl, apiKeyEnv := raw.apiKeyEnv, key, keySource, model, limits
                   includeUserText := raw.includeUserText }
        | _, _, _ => none⟩, [])

section Validate

variable [Lowercase]

/-- The configured route `name` refers to, or why none. -/
def configured (name : List Char) (routes : List Described) : Except TargetProblem RouteName :=
  if isAuto name then .error .auto
  else if isReserved name then .error .reserved
  else
    match routes.find? fun route => RouteName.matches route.name name with
    | some route => .ok route.name
    | none => .error .unconfigured

/-- `lightweight::validate`. -/
def validateLightweight (raw : LightweightFile) (routes : List Described) (place : List Char) :
    Checked LightweightClassifier :=
  let route := report (.route place raw.route) (configured raw.route routes)
  let limits := validateLimits place raw.timeoutMs raw.minConfidence raw.maxInputChars
  { problems := route.problems ++ limits.problems
    result := match route.result, limits.result with
      | some route, some limits => some { route, limits }
      | _, _ => none }

structure CheckedCandidates where
  candidates : List Candidate
  problems : List Problem

/-- One entry of `routes`. -/
def checkCandidate (routes : List Described) (state : CheckedCandidates) (name : List Char) :
    CheckedCandidates :=
  match configured name routes with
  | .ok found =>
      if state.candidates.any fun candidate => candidate.route == found then
        { state with problems := state.problems ++ [.listedTwice name] }
      else
        let description := (routes.find? fun route => route.name == found).bind Described.description
        { state with candidates := state.candidates ++ [{ route := found, description }] }
  | .error problem => { state with problems := state.problems ++ [.routesEntry name problem] }

def checkCandidates (routes : List Described) (names : List (List Char)) : CheckedCandidates :=
  names.foldl (checkCandidate routes) ⟨[], []⟩

def lightweightPlace : List Char :=
  ['l', 'i', 'g', 'h', 't', 'w', 'e', 'i', 'g', 'h', 't', '.']

/-- The Lightweight provider's settings: its block, or the shorthand; and where they stand. -/
def lightweightFile (raw : ClassifierFile) : Checked (LightweightFile × List Char) :=
  let shorthand := raw.route.isSome || raw.timeoutMs.isSome || raw.minConfidence.isSome ||
    raw.maxInputChars.isSome
  match raw.lightweight, shorthand with
  | some _, true => ⟨[.blockAndShorthand], none⟩
  | some block, false => ⟨[], some (block, lightweightPlace)⟩
  | none, true =>
      match raw.route with
      | some route =>
          ⟨[], some
            ({ route, timeoutMs := raw.timeoutMs
               minConfidence := raw.minConfidence.getD defaultMinConfidence
               maxInputChars := raw.maxInputChars.getD defaultMaxInputChars }, [])⟩
      | none => ⟨[.routeRequired], none⟩
  | none, false => ⟨[], none⟩

/-- A reason to refuse a file: one of the classifier section's, or another. -/
inductive Refusal where
  | classifier (problem : Problem)
  | config (error : ConfigError)
deriving DecidableEq, Repr

/-- What is wrong with the list of routes. -/
def routesProblems (routes : List Described) (names : List (List Char)) : List Problem :=
  (if names.isEmpty then [.noRoutes] else []) ++
    (if maxCandidates < names.length then [.tooManyRoutes names.length] else []) ++
    (checkCandidates routes names).problems

def checkFallback (raw : ClassifierFile) (routes : List Described) (autoFallback : List Char) :
    Checked RouteName :=
  let name := raw.fallbackRoute.getD autoFallback
  report (.fallbackRoute name) (configured name routes)

def checkLightweight (raw : ClassifierFile) (routes : List Described) :
    Checked LightweightClassifier :=
  match (lightweightFile raw).result with
  | some (block, place) => validateLightweight block routes place
  | none => ⟨[], none⟩

def checkJev (urls : UrlReader) (raw : ClassifierFile) (env stored : Env) :
    Checked JevClassifier × List ConfigError :=
  match raw.jev with
  | some block => validateJev urls block (raw.provider == ProviderKind.jev) env stored
  | none => (⟨[], none⟩, [])

/-- The settings of the provider that classifies have to be there. -/
def missingProvider (raw : ClassifierFile) : List Problem :=
  match raw.provider with
  | .lightweight => if (lightweightFile raw).result.isNone then [.lightweightMissing] else []
  | .jev => if raw.jev.isNone then [.jevMissing] else []

/-- Everything wrong with the section. -/
def refusals (urls : UrlReader) (raw : ClassifierFile) (routes : List Described)
    (autoFallback : List Char) (env stored : Env) : List Refusal :=
  let jev := checkJev urls raw env stored
  let problems := (checkFallback raw routes autoFallback).problems ++ routesProblems routes raw.routes ++
    (lightweightFile raw).problems ++ (checkLightweight raw routes).problems ++ jev.1.problems ++
    missingProvider raw
  jev.2.map .config ++ problems.map .classifier

/-- The provider that classifies, and the other one. -/
def assign (kind : ProviderKind) (lightweight : Option LightweightClassifier)
    (jev : Option JevClassifier) : Option ClassifierProvider × Option ClassifierProvider :=
  match kind with
  | .lightweight => (lightweight.map .lightweight, jev.map .jev)
  | .jev => (jev.map .jev, lightweight.map .lightweight)

/-- `classifier::validate`. -/
def validate (urls : UrlReader) (raw : ClassifierFile) (routes : List Described)
    (autoFallback : List Char) (env stored : Env) : Except (List Refusal) RouteClassifier :=
  let errors := refusals urls raw routes autoFallback env stored
  if errors.isEmpty then
    let assigned := assign raw.provider (checkLightweight raw routes).result
      (checkJev urls raw env stored).1.result
    match assigned.1, (checkFallback raw routes autoFallback).result with
    | some provider, some fallback =>
        .ok { candidates := (checkCandidates routes raw.routes).candidates, fallback, provider
              standby := assigned.2 }
    -- Nothing was wrong, so neither is missing.
    | _, _ => .error []
  else .error errors

end Validate

/-! Answers and what comes of them. -/

/-- How one classification ended. -/
inductive ClassifierOutcome where
  | chosen
  | lowConfidence
  | invalid
  | unavailable
  | timeout
  | authError
  | rateLimited
  | connectionError
  | providerError
  | nested
  | requestBudgetExhausted
deriving DecidableEq, Repr

/-- A candidate a provider named, and how sure it said it was. -/
structure Verdict where
  route : RouteName
  confidence : Exact
  model : Option (List Char)
deriving DecidableEq, Repr

structure Classification where
  provider : ProviderKind
  outcome : ClassifierOutcome
  verdict : Option Verdict
  duration : Nat
  requestId : List Char
  inputTruncated : Bool
deriving DecidableEq, Repr

/-- The route this classification resolves the request to. -/
def Classification.route (classification : Classification) (classifier : RouteClassifier) :
    RouteName :=
  match classification.verdict, classification.outcome with
  | some verdict, .chosen => verdict.route
  | _, _ => classifier.fallback

def Classification.nested (provider : ProviderKind) : Classification :=
  { provider, outcome := .nested, verdict := none, duration := 0, requestId := []
    inputTruncated := false }

/-- `Value::as_f64`. -/
def asF64 : Value → Option Exact
  | .number (.posInt n) => some (some n)
  | .number (.negInt n) => some (some n)
  | .number (.float bits) => some (Binary64.value bits)
  | _ => none

/-- `serde_json::from_slice`. -/
def fromSlice (serde : Serde) (body : List UInt8) : Option Value :=
  (Utf8.fromUtf8 body).bind serde.fromStr

/-- Why an answer is none. -/
inductive AnswerProblem where
  | notJson
  | noAnswer
  | notAChoice
  | noChoice
  | unknownChoice
  | badConfidence
  | noContent
  | noObject
  | noRoute
  | unknownRoute
deriving DecidableEq, Repr

def okOr {α : Type} (problem : AnswerProblem) : Option α → Except AnswerProblem α
  | some found => .ok found
  | none => .error problem

/-- The member `confidence`, when it is a number from 0 to 1. -/
def confidenceOf (value : Option Value) : Except AnswerProblem Exact :=
  okOr .badConfidence ((value.bind asF64).filter (Exact.within 0 1))

/-- `jev::parse_response`: a choice that names one of the candidates exactly. -/
def parseResponse (serde : Serde) (body : List UInt8) (candidates : List Candidate) :
    Except AnswerProblem Verdict := do
  let response ← okOr .notJson (fromSlice serde body)
  let answer ← okOr .noAnswer
    ((response.get ['a', 'n', 's', 'w', 'e', 'r', 's']).bind (Value.get ['r', 'o', 'u', 't', 'e']))
  if (answer.get ['t', 'y', 'p', 'e']).bind asStr ≠ some ['c', 'h', 'o', 'i', 'c', 'e'] then
    throw .notAChoice
  let choice ← okOr .noChoice ((answer.get ['c', 'h', 'o', 'i', 'c', 'e']).bind asStr)
  let candidate ← okOr .unknownChoice (candidates.find? fun candidate => candidate.route == choice)
  let confidence ← confidenceOf (answer.get ['c', 'o', 'n', 'f', 'i', 'd', 'e', 'n', 'c', 'e'])
  let model := ((response.get ['m', 'o', 'd', 'e', 'l']).bind asStr).filter fun model =>
    decide (byteLength model ≤ 128) && !model.any isControl
  return { route := candidate.route, confidence, model }

/-- Indexing by a key or a position: null where there is nothing. -/
def member (key : List Char) (value : Value) : Value := (value.get key).getD .null

def item (index : Nat) : Value → Value
  | .array items => (items[index]?).getD .null
  | _ => .null

/-- From the first `{` to the last `}`. -/
def objectIn (content : List Char) : Option (List Char) :=
  let fromBrace := content.dropWhile (· != '\x7b')
  let found := fromBrace.rdropWhile (· != '\x7d')
  if found.isEmpty then none else some found

/-- `lightweight::parse_answer`: a chat completion whose text holds an object that names a
candidate. -/
def parseAnswer [Lowercase] (serde : Serde) (body : List UInt8) (candidates : List Candidate) :
    Except AnswerProblem Verdict := do
  let response ← okOr .notJson (fromSlice serde body)
  let choice := item 0 (member ['c', 'h', 'o', 'i', 'c', 'e', 's'] response)
  let message := member ['m', 'e', 's', 's', 'a', 'g', 'e'] choice
  let content ← okOr .noContent (asStr (member ['c', 'o', 'n', 't', 'e', 'n', 't'] message))
  let object ← okOr .noObject ((objectIn content).bind serde.fromStr)
  let named ← okOr .noRoute (asStr (member ['r', 'o', 'u', 't', 'e'] object))
  let candidate ← okOr .unknownRoute
    (candidates.find? fun candidate => RouteName.matches candidate.route named)
  let confidence ← confidenceOf (some (member ['c', 'o', 'n', 'f', 'i', 'd', 'e', 'n', 'c', 'e'] object))
  return { route := candidate.route, confidence, model := none }

def isSuccess (status : Nat) : Bool := 200 ≤ status && status ≤ 299

/-- The answer to the nested request of the Lightweight provider; the body is none where it broke off
or was too long. -/
structure NestedReply where
  exhausted : Bool
  status : Nat
  body : Option (List UInt8)

/-- `lightweight::call`, once the nested request is answered. -/
def lightweightCall [Lowercase] (serde : Serde) (candidates : List Candidate) (reply : NestedReply) :
    Except ClassifierOutcome Verdict :=
  if reply.exhausted then .error .requestBudgetExhausted
  else if !isSuccess reply.status then .error .unavailable
  else
    match reply.body with
    | none => .error .unavailable
    | some body => (parseAnswer serde body candidates).mapError fun _ => .invalid

/-- What came of the HTTPS request of the Jev provider. -/
inductive JevReply where
  | timedOut
  | unreached
  | answered (status : Nat) (body : Option (List UInt8))

def failureFor (status : Nat) : ClassifierOutcome :=
  if status = 401 ∨ status = 403 then .authError
  else if status = 429 ∨ status = 529 then .rateLimited
  else .providerError

/-- `jev::call`. -/
def jevCall (serde : Serde) (jev : JevClassifier) (candidates : List Candidate) (reply : JevReply) :
    Except ClassifierOutcome Verdict :=
  match jev.key with
  | none => .error .authError
  | some _ =>
      match reply with
      | .timedOut => .error .timeout
      | .unreached => .error .connectionError
      | .answered status body =>
          if !isSuccess status then .error (failureFor status)
          else
            match body with
            | none => .error .invalid
            | some body => (parseResponse serde body candidates).mapError fun _ => .invalid

/-- What a classification meets: whether the request's budget is spent at its start, whether the
request's deadline is no later than the provider's, whether a deadline passes first, and else the
provider's answer. -/
structure Circumstances where
  expired : Bool
  budgetFirst : Bool
  late : Bool
  nested : NestedReply
  jev : JevReply
  duration : Nat
  requestId : List Char
  inputTruncated : Bool

def askProvider [Lowercase] (serde : Serde) (classifier : RouteClassifier) (met : Circumstances) :
    Except ClassifierOutcome Verdict :=
  match classifier.provider with
  | .lightweight _ => lightweightCall serde classifier.candidates met.nested
  | .jev jev => jevCall serde jev classifier.candidates met.jev

def classifySuffix : List Char := ['-', 'c', 'l', 'a', 's', 's', 'i', 'f', 'y']

/-- How a provider's answer ends the classification. -/
def settle (limits : Limits) (met : Circumstances) (answer : Except ClassifierOutcome Verdict) :
    ClassifierOutcome × Option Verdict :=
  if met.late then
    if met.budgetFirst then (.requestBudgetExhausted, none) else (.timeout, none)
  else
    match answer with
    | .error outcome => (outcome, none)
    | .ok verdict =>
        if verdict.confidence.lt limits.minConfidence then (.lowConfidence, some verdict)
        else (.chosen, some verdict)

/-- Ask the configured provider which candidate should answer. -/
def classify [Lowercase] (serde : Serde) (classifier : RouteClassifier) (met : Circumstances) :
    Classification :=
  let provider := classifier.provider.kind
  if met.expired then
    { provider, outcome := .requestBudgetExhausted, verdict := none, duration := 0, requestId := []
      inputTruncated := met.inputTruncated }
  else
    let settled := settle classifier.limits met (askProvider serde classifier met)
    { provider, outcome := settled.1, verdict := settled.2, duration := met.duration
      requestId := match provider with
        | .lightweight => met.requestId ++ classifySuffix
        | .jev => []
      inputTruncated := met.inputTruncated }

/-! What a verdict says whatever was answered: a candidate, and a confidence from 0 to 1. -/

theorem bind_eq_ok {ε α β : Type} {x : Except ε α} {f : α → Except ε β} {b : β} :
    (x >>= f) = .ok b ↔ ∃ a, x = .ok a ∧ f a = .ok b := by
  cases x with
  | error e => simp [bind, Except.bind]
  | ok a => simp [bind, Except.bind]

theorem okOr_eq_ok {α : Type} {problem : AnswerProblem} {found : Option α} {a : α} :
    okOr problem found = .ok a ↔ found = some a := by
  cases found <;> simp [okOr]

theorem confidenceOf_within {value : Option Value} {confidence : Exact}
    (found : confidenceOf value = .ok confidence) : confidence.within 0 1 = true := by
  rw [confidenceOf, okOr_eq_ok, Option.filter_eq_some_iff] at found
  exact found.2

/-- A verdict for one of the candidates. -/
structure Verdict.Valid (candidates : List Candidate) (verdict : Verdict) : Prop where
  candidate : verdict.route ∈ candidates.map Candidate.route
  confidence : verdict.confidence.within 0 1 = true

theorem Verdict.Valid.found {candidates : List Candidate} {candidate : Candidate}
    {named : Candidate → Bool} {confidence : Exact} {value : Option Value}
    (model : Option (List Char)) (found : candidates.find? named = some candidate)
    (sure : confidenceOf value = .ok confidence) :
    Verdict.Valid candidates { route := candidate.route, confidence, model } where
  candidate := List.mem_map_of_mem (List.mem_of_find?_eq_some found)
  confidence := confidenceOf_within sure

theorem parseResponse_valid {serde : Serde} {body : List UInt8} {candidates : List Candidate}
    {verdict : Verdict} (parsed : parseResponse serde body candidates = .ok verdict) :
    verdict.Valid candidates := by
  simp only [parseResponse, bind_eq_ok, okOr_eq_ok] at parsed
  obtain ⟨response, -, answer, -, rest⟩ := parsed
  split at rest
  · obtain ⟨_, refused, -⟩ := bind_eq_ok.mp rest
    cases refused
  · simp only [bind_eq_ok, okOr_eq_ok] at rest
    obtain ⟨choice, -, candidate, found, confidence, sure, ⟨⟩⟩ := rest
    exact .found _ found sure

theorem mapError_eq_ok {α : Type} {answer : Except AnswerProblem α} {outcome : ClassifierOutcome}
    {a : α} (good : (answer.mapError fun _ => outcome) = .ok a) : answer = .ok a := by
  cases answer with
  | error problem => cases good
  | ok found =>
      cases good
      rfl

theorem validateLimits_confidence {place : List Char} {timeoutMs : Option Nat} {confidence : Exact}
    {inputChars : Nat} {limits : Limits}
    (found : (validateLimits place timeoutMs confidence inputChars).result = some limits) :
    limits.minConfidence.within 0 1 = true := by
  unfold validateLimits at found
  simp only [Option.ite_none_right_eq_some, List.isEmpty_iff, List.append_eq_nil_iff] at found
  obtain ⟨⟨⟨good, -⟩, -⟩, ⟨⟩⟩ := found
  by_contra bad
  simp [bad] at good

theorem validateJev_limits {urls : UrlReader} {raw : JevFile} {active : Bool} {env stored : Env}
    {provider : JevClassifier}
    (found : (validateJev urls raw active env stored).1.result = some provider) :
    provider.limits.minConfidence.within 0 1 = true := by
  unfold validateJev at found
  dsimp only at found
  split at found
  · cases found
  · dsimp only at found
    split at found
    · rename_i limits
      cases found
      exact validateLimits_confidence limits
    · cases found

variable [Lowercase]

theorem parseAnswer_valid {serde : Serde} {body : List UInt8} {candidates : List Candidate}
    {verdict : Verdict} (parsed : parseAnswer serde body candidates = .ok verdict) :
    verdict.Valid candidates := by
  simp only [parseAnswer, bind_eq_ok, okOr_eq_ok] at parsed
  obtain ⟨response, -, content, -, object, -, named, -, candidate, found, confidence, sure, ⟨⟩⟩ :=
    parsed
  exact .found _ found sure

theorem askProvider_valid {serde : Serde} {classifier : RouteClassifier} {met : Circumstances}
    {verdict : Verdict} (answered : askProvider serde classifier met = .ok verdict) :
    verdict.Valid classifier.candidates := by
  unfold askProvider at answered
  split at answered
  · unfold lightweightCall at answered
    split at answered
    · cases answered
    · split at answered
      · cases answered
      · split at answered
        · cases answered
        · exact parseAnswer_valid (mapError_eq_ok answered)
  · unfold jevCall at answered
    split at answered
    · cases answered
    · split at answered
      · cases answered
      · cases answered
      · split at answered
        · cases answered
        · split at answered
          · cases answered
          · exact parseResponse_valid (mapError_eq_ok answered)

/-- How a classification can have ended: with a verdict that the threshold takes, with one that it
does not, or with none. -/
inductive Classification.Ends (classifier : RouteClassifier) (classification : Classification) :
    Prop where
  | chosen (verdict : Verdict) : classification.verdict = some verdict →
      classification.outcome = .chosen → verdict.Valid classifier.candidates →
      verdict.confidence.lt classifier.limits.minConfidence = false →
      Ends classifier classification
  | rejected (verdict : Verdict) : classification.verdict = some verdict →
      classification.outcome = .lowConfidence →
      verdict.confidence.lt classifier.limits.minConfidence = true →
      Ends classifier classification
  | unanswered : classification.verdict = none → Ends classifier classification

theorem classify_ends (serde : Serde) (classifier : RouteClassifier) (met : Circumstances) :
    (classify serde classifier met).Ends classifier := by
  by_cases expired : met.expired = true
  · exact .unanswered (by simp [classify, expired])
  · by_cases late : met.late = true
    · refine .unanswered ?_
      simp only [classify, expired, settle, late, if_true, Bool.false_eq_true, if_false]
      split <;> rfl
    · cases answer : askProvider serde classifier met with
      | error outcome => exact .unanswered (by simp [classify, expired, settle, late, answer])
      | ok verdict =>
          cases sure : verdict.confidence.lt classifier.limits.minConfidence with
          | true =>
              apply Classification.Ends.rejected verdict _ _ sure
              all_goals simp [classify, expired, settle, late, answer, sure]
          | false =>
              apply Classification.Ends.chosen verdict _ _ (askProvider_valid answer) sure
              all_goals simp [classify, expired, settle, late, answer, sure]

theorem validateLightweight_limits {raw : LightweightFile} {routes : List Described}
    {place : List Char} {provider : LightweightClassifier}
    (found : (validateLightweight raw routes place).result = some provider) :
    provider.limits.minConfidence.within 0 1 = true := by
  unfold validateLightweight at found
  dsimp only at found
  split at found
  · rename_i limits
    cases found
    exact validateLimits_confidence limits
  · cases found

theorem checkLightweight_limits {raw : ClassifierFile} {routes : List Described}
    {provider : LightweightClassifier} (found : (checkLightweight raw routes).result = some provider) :
    provider.limits.minConfidence.within 0 1 = true := by
  unfold checkLightweight at found
  split at found
  · exact validateLightweight_limits found
  · cases found

omit [Lowercase] in
theorem checkJev_limits {urls : UrlReader} {raw : ClassifierFile} {env stored : Env}
    {provider : JevClassifier} (found : (checkJev urls raw env stored).1.result = some provider) :
    provider.limits.minConfidence.within 0 1 = true := by
  unfold checkJev at found
  split at found
  · exact validateJev_limits found
  · cases found

/-- Every threshold that can come to be applied is a number from 0 to 1. -/
theorem validate_limits {urls : UrlReader} {raw : ClassifierFile} {routes : List Described}
    {autoFallback : List Char} {env stored : Env} {classifier : RouteClassifier}
    (accepted : validate urls raw routes autoFallback env stored = .ok classifier) :
    ∀ provider ∈ classifier.provider :: classifier.standby.toList,
      provider.limits.minConfidence.within 0 1 = true := by
  have both : ∀ provider,
      provider ∈ (checkLightweight raw routes).result.map ClassifierProvider.lightweight ∨
        provider ∈ (checkJev urls raw env stored).1.result.map ClassifierProvider.jev →
      provider.limits.minConfidence.within 0 1 = true := by
    rintro provider (found | found)
    · obtain ⟨lightweight, checked, rfl⟩ := Option.map_eq_some_iff.mp found
      exact checkLightweight_limits checked
    · obtain ⟨jev, checked, rfl⟩ := Option.map_eq_some_iff.mp found
      exact checkJev_limits checked
  unfold validate at accepted
  dsimp only at accepted
  split at accepted
  · split at accepted
    · rename_i active fallback
      cases accepted
      intro provider member
      apply both
      unfold assign at active member
      cases kind : raw.provider with
      | lightweight =>
          simp only [kind] at active member
          rcases List.mem_cons.mp member with rfl | other
          · exact .inl active
          · exact .inr (Option.mem_toList.mp other)
      | jev =>
          simp only [kind] at active member
          rcases List.mem_cons.mp member with rfl | other
          · exact .inr active
          · exact .inl (Option.mem_toList.mp other)
    · cases accepted
  · cases accepted

end Lightweight.Router.Classifier
