import Lightweight.Router.Classifier
import Lightweight.Router.FallbackLists

/-! The rules of the panel's classifier screen
(`frontend/src/screens/router/classifierModel.ts`): the check of a draft, field by field, and the
section made of it. -/

namespace Lightweight.Router.Panel

open Lightweight.Core Lightweight.Catalog Classifier Binary64

def maxTimeoutMs : Nat := 120000

def maxInputChars : Nat := 32000

def maxCandidates : Nat := 16

def maxDescriptionChars : Nat := 200

def maxModelChars : Nat := 128

structure LightweightDraft where
  route : List Char
  timeoutMs : List Char
  minConfidence : List Char
  maxInputChars : List Char

structure JevDraft where
  baseUrl : List Char
  apiKeyEnv : List Char
  model : List Char
  timeoutMs : List Char
  minConfidence : List Char
  maxInputChars : List Char
  includeUserText : Bool

/-- A draft as typed; the descriptions are the entries of an object. -/
structure ClassifierDraft where
  provider : ProviderKind
  candidates : List (List Char)
  fallbackRoute : List Char
  descriptions : List (List Char × List Char)
  lightweight : LightweightDraft
  jev : JevDraft
  keepStandby : Bool

/-- A problem with one field. -/
inductive FieldProblem where
  | required
  | notWhole
  | outOfRange (most : Nat)
  | notConfidence
  | notUrl
  | notHttp
  | noHost
  | credentials
  | query
  | fragment
  | notHttps
  | envName
  | model
  | descriptionTooLong
  | descriptionControl
  | choose (what : List Char)
  | notLogical
  | notConfigured
  | noCandidates
  | tooManyCandidates
  | notACandidate (name : List Char)
deriving DecidableEq, Repr

/-- What a browser makes of texts: `new URL`, and `Number`, which is none where it is not finite. -/
structure Browser where
  parseUrl : List Char → Option Url
  number : List Char → Exact

/-! ### Fields -/

/-- What `Number` makes of digits. A double is rounded only beyond every bound it is compared with. -/
def wholeNumber (digits : List Char) : Nat := Nat.ofDigitChars 10 digits 0

/-- A number of digits from 1 to a bound. -/
def checkWhole (most : Nat) (raw : List Char) : Option FieldProblem :=
  let value := trim raw
  if value.isEmpty then some .required
  else if !value.all Char.isDigit then some .notWhole
  else if wholeNumber value < 1 ∨ most < wholeNumber value then some (.outOfRange most)
  else none

def checkTimeout : List Char → Option FieldProblem := checkWhole maxTimeoutMs

def checkMaxInput : List Char → Option FieldProblem := checkWhole maxInputChars

def checkConfidence (browser : Browser) (raw : List Char) : Option FieldProblem :=
  let value := trim raw
  if value.isEmpty then some .required
  else if !Exact.within 0 1 (browser.number value) then some .notConfidence
  else none

/-- Without a bracket at its start and one at its end. -/
def unbracketed (hostname : List Char) : List Char :=
  let host := if hostname.head? = some '[' then hostname.tail else hostname
  if host.getLast? = some ']' then host.dropLast else host

/-- Up to three digits. -/
def isOctet (piece : List Char) : Bool :=
  !piece.isEmpty && piece.all Char.isDigit && decide (piece.length ≤ 3)

/-- An IPv4 address that begins with 127, as far as its shape tells. -/
def looksLoopback (host : List Char) : Bool :=
  match host.splitOn '.' with
  | [first, a, b, c] => first == ['1', '2', '7'] && [a, b, c].all isOctet
  | _ => false

def http : List Char := ['h', 't', 't', 'p']

def checkEnvName (raw : List Char) : Option FieldProblem :=
  match trim raw with
  | [] => some .required
  | first :: rest =>
      if (first.isAlpha || first == '_') && rest.all fun c => c.isAlphanum || c == '_' then none
      else some .envName

/-- The length in UTF-16 code units. -/
def utf16Length (text : List Char) : Nat :=
  (text.map fun c => if c.toNat < 0x10000 then 1 else 2).sum

def checkModel (raw : List Char) : Option FieldProblem :=
  let value := trim raw
  if value.isEmpty then some .required
  else if maxModelChars < utf16Length value ∨ value.any isControl = true then some .model
  else none

def checkDescription (raw : List Char) : Option FieldProblem :=
  let value := trim raw
  if value.isEmpty then none
  else if maxDescriptionChars < value.length then some .descriptionTooLong
  else if value.any isControl then some .descriptionControl
  else none

/-- Setting this member of an object changes the object's prototype instead. -/
def protoKey : List Char := "__proto__".toList

/-- The router strips the slashes at the end. -/
def normalizeBaseUrl (raw : List Char) : List Char := (trim raw).rdropWhile (· == '/')

section Rules

variable [Lowercase]

def isLoopbackHost (hostname : List Char) : Bool :=
  let host := Lowercase.toLowercase (unbracketed hostname)
  host == "localhost".toList || host == "::1".toList || looksLoopback host

/-- Jev's base URL: https (http only for loopback), no credentials, query or fragment. -/
def checkBaseUrl (browser : Browser) (raw : List Char) : Option FieldProblem :=
  let value := trim raw
  if value.isEmpty then some .required
  else
    match browser.parseUrl value with
    | none => some .notUrl
    | some url =>
        let hostname := url.host.getD []
        if url.scheme ≠ https ∧ url.scheme ≠ http then some .notHttp
        else if hostname.isEmpty then some .noHost
        else if !url.username.isEmpty || !(url.password.getD []).isEmpty then some .credentials
        else if !(url.query.getD []).isEmpty || value.contains '?' then some .query
        else if !(url.fragment.getD []).isEmpty || value.contains '#' then some .fragment
        else if url.scheme = http ∧ isLoopbackHost hostname = false then some .notHttps
        else none

/-- `Auto` itself is never a classifier choice, nor `default`. -/
def isLogicalRoute (name : List Char) : Bool :=
  let lower := Lowercase.toLowercase (trim name)
  lower != "auto".toList && lower != "default".toList && lower != []

theorem isLogicalRoute_iff {name : List Char} : isLogicalRoute name = true ↔ Logical name := by
  have key : Lowercase.toLowercase (trim name) = lookupKey name := rfl
  simp only [isLogicalRoute, key, Bool.and_eq_true, bne_iff_ne]
  constructor
  · rintro ⟨⟨notAuto, notDefault⟩, visible⟩
    exact ⟨visible, notAuto, notDefault⟩
  · rintro ⟨visible, notAuto, notDefault⟩
    exact ⟨⟨notAuto, notDefault⟩, visible⟩

def routeProblem (name : List Char) (routes : List RouteName) (what : List Char) :
    Option FieldProblem :=
  if (trim name).isEmpty then some (.choose what)
  else if !isLogicalRoute name then some .notLogical
  else if !routes.any fun route => Lowercase.toLowercase route == Lowercase.toLowercase name then
    some .notConfigured
  else none

/-! ### The draft as a whole -/

/-- The problems of an object's fields, by their names. -/
abbrev FieldProblems := List (List Char × Option FieldProblem)

def FieldProblems.any (problems : FieldProblems) : Bool :=
  List.any problems fun (_, problem) => problem.isSome

def checkLightweight (browser : Browser) (draft : LightweightDraft) (routes : List RouteName) :
    FieldProblems :=
  [("route".toList, routeProblem draft.route routes "route that classifies".toList),
    ("timeout_ms".toList, checkTimeout draft.timeoutMs),
    ("min_confidence".toList, checkConfidence browser draft.minConfidence),
    ("max_input_chars".toList, checkMaxInput draft.maxInputChars)]

def checkJev (browser : Browser) (draft : JevDraft) : FieldProblems :=
  [("base_url".toList, checkBaseUrl browser draft.baseUrl),
    ("api_key_env".toList, checkEnvName draft.apiKeyEnv),
    ("model".toList, checkModel draft.model),
    ("timeout_ms".toList, checkTimeout draft.timeoutMs),
    ("min_confidence".toList, checkConfidence browser draft.minConfidence),
    ("max_input_chars".toList, checkMaxInput draft.maxInputChars)]

def checkCandidates (names : List (List Char)) (routes : List RouteName) : Option FieldProblem :=
  if names.isEmpty then some .noCandidates
  else if maxCandidates < names.length then some .tooManyCandidates
  else (names.find? fun name => (routeProblem name routes "route".toList).isSome).map .notACandidate

structure DraftProblems where
  candidates : Option FieldProblem
  fallbackRoute : Option FieldProblem
  descriptions : FieldProblems
  lightweight : FieldProblems
  jev : FieldProblems

/-- The block of a provider is written, and so checked: the provider is the selected one, or both are
kept. -/
def ClassifierDraft.writes (draft : ClassifierDraft) (kind : ProviderKind) : Bool :=
  draft.provider == kind || draft.keepStandby

/-- Every field's problem. -/
def validateDraft (browser : Browser) (draft : ClassifierDraft) (routes : List RouteName) :
    DraftProblems where
  candidates := checkCandidates draft.candidates routes
  fallbackRoute := routeProblem draft.fallbackRoute routes "fallback route".toList
  descriptions := (draft.descriptions.filter fun (route, _) => route != protoKey).map
    fun (route, description) => (route, checkDescription description)
  lightweight :=
    if draft.writes .lightweight then checkLightweight browser draft.lightweight routes else []
  jev := if draft.writes .jev then checkJev browser draft.jev else []

def hasProblems (problems : DraftProblems) : Bool :=
  problems.candidates.isSome || problems.fallbackRoute.isSome || problems.descriptions.any ||
    problems.lightweight.any || problems.jev.any

end Rules

/-! ### The section the draft becomes -/

def lightweightBlock (browser : Browser) (draft : LightweightDraft) : LightweightFile where
  route := trim draft.route
  timeoutMs := some (wholeNumber (trim draft.timeoutMs))
  minConfidence := browser.number (trim draft.minConfidence)
  maxInputChars := wholeNumber (trim draft.maxInputChars)

def jevBlock (browser : Browser) (draft : JevDraft) : JevFile where
  baseUrl := normalizeBaseUrl draft.baseUrl
  apiKeyEnv := trim draft.apiKeyEnv
  model := some (trim draft.model)
  timeoutMs := some (wholeNumber (trim draft.timeoutMs))
  minConfidence := browser.number (trim draft.minConfidence)
  maxInputChars := wholeNumber (trim draft.maxInputChars)
  includeUserText := draft.includeUserText

/-- The section, never in the shorthand. One is made only of a draft without a problem, whose whole
numbers are digits. -/
def classifierSection (browser : Browser) (draft : ClassifierDraft) : ClassifierFile where
  provider := draft.provider
  routes := draft.candidates
  fallbackRoute := some draft.fallbackRoute
  lightweight :=
    if draft.writes .lightweight then some (lightweightBlock browser draft.lightweight) else none
  jev := if draft.writes .jev then some (jevBlock browser draft.jev) else none
  route := none
  timeoutMs := none
  minConfidence := none
  maxInputChars := none

end Lightweight.Router.Panel
