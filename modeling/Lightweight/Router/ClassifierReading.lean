import Lightweight.Router.AutoRoute

/-! Reading the classifier section from JSON, as the deserialisers derived for `ClassifierFile` and
its blocks do (`lightweight-router/src/classifier/`). A struct is read from an object by the names of
its members, with no other member beside them, or from an array by their places; a missing member is
given its default. A unit variant is read from its name, or from an object with its name and nothing
in it. -/

namespace Lightweight.Router.Reading

open Lightweight.Core Classifier Auto

def autoRouteKey : List Char := ['a', 'u', 't', 'o', '_', 'r', 'o', 'u', 't', 'e']

def classifierKey : List Char := ['c', 'l', 'a', 's', 's', 'i', 'f', 'i', 'e', 'r']

def providerKey : List Char := ['p', 'r', 'o', 'v', 'i', 'd', 'e', 'r']

def routesKey : List Char := ['r', 'o', 'u', 't', 'e', 's']

def fallbackRouteKey : List Char :=
  ['f', 'a', 'l', 'l', 'b', 'a', 'c', 'k', '_', 'r', 'o', 'u', 't', 'e']

def lightweightKey : List Char := ['l', 'i', 'g', 'h', 't', 'w', 'e', 'i', 'g', 'h', 't']

def jevKey : List Char := ['j', 'e', 'v']

def routeKey : List Char := ['r', 'o', 'u', 't', 'e']

def apiKeyEnvKey : List Char := ['a', 'p', 'i', '_', 'k', 'e', 'y', '_', 'e', 'n', 'v']

def baseUrlKey : List Char := ['b', 'a', 's', 'e', '_', 'u', 'r', 'l']

def modelKey : List Char := ['m', 'o', 'd', 'e', 'l']

def timeoutKey : List Char := ['t', 'i', 'm', 'e', 'o', 'u', 't', '_', 'm', 's']

def minConfidenceKey : List Char :=
  ['m', 'i', 'n', '_', 'c', 'o', 'n', 'f', 'i', 'd', 'e', 'n', 'c', 'e']

def maxInputCharsKey : List Char :=
  ['m', 'a', 'x', '_', 'i', 'n', 'p', 'u', 't', '_', 'c', 'h', 'a', 'r', 's']

def includeUserTextKey : List Char :=
  ['i', 'n', 'c', 'l', 'u', 'd', 'e', '_', 'u', 's', 'e', 'r', '_', 't', 'e', 'x', 't']

def defaultBaseUrl : List Char :=
  ['h', 't', 't', 'p', 's', ':', '/', '/', 'a', 'p', 'i', '.', 't', 'y', 'p', 'e', 's', 'a', 'f', 'e',
    '.', 'a', 'i']

def defaultApiKeyEnv : List Char :=
  ['T', 'Y', 'P', 'E', 'S', 'A', 'F', 'E', '_', 'A', 'P', 'I', '_', 'K', 'E', 'Y']

def kindName : ProviderKind → List Char
  | .lightweight => lightweightKey
  | .jev => jevKey

/-! Structs and their members. -/

/-- A member of a struct. -/
def memberOf (fields : List (List Char)) (key : List Char) : Value → Option Value
  | .object members => Map.get key members
  | .array items => items[fields.idxOf key]?
  | _ => none

/-- Whether a value has the members of a struct and no others. -/
def hasFields (fields : List (List Char)) : Value → Bool
  | .object members => members.all fun member => fields.contains member.1
  | .array items => decide (items.length ≤ fields.length)
  | _ => false

section Members

variable {α : Type}

/-- A member that has a default. -/
def orDefault (default : α) (read : Value → Option α) : Option Value → Option α
  | none => some default
  | some value => read value

/-- A value that may be null. -/
def nullable (read : Value → Option α) : Value → Option (Option α)
  | .null => some none
  | value => (read value).map some

/-- A member that may be null or missing. -/
def optional (read : Value → Option α) : Option Value → Option (Option α) :=
  orDefault none (nullable read)

def readList (read : Value → Option α) : Value → Option (List α)
  | .array items => items.mapM read
  | _ => none

end Members

def readBool : Value → Option Bool
  | .bool b => some b
  | _ => none

def kindNamed (name : List Char) : Option ProviderKind :=
  if name = lightweightKey then some .lightweight else if name = jevKey then some .jev else none

def readProvider : Value → Option ProviderKind
  | .string name => kindNamed name
  | .object [(name, .null)] => kindNamed name
  | _ => none

/-! The blocks. -/

def lightweightFields : List (List Char) :=
  [routeKey, timeoutKey, minConfidenceKey, maxInputCharsKey]

def readLightweight (value : Value) : Option LightweightFile := do
  guard (hasFields lightweightFields value)
  let member key := memberOf lightweightFields key value
  let route ← (member routeKey).bind asStr
  let timeoutMs ← optional Value.asU64 (member timeoutKey)
  let minConfidence ← orDefault defaultMinConfidence asF64 (member minConfidenceKey)
  let maxInputChars ← orDefault defaultMaxInputChars Value.asU64 (member maxInputCharsKey)
  some { route, timeoutMs, minConfidence, maxInputChars }

def jevFields : List (List Char) :=
  [baseUrlKey, apiKeyEnvKey, modelKey, timeoutKey, minConfidenceKey, maxInputCharsKey,
    includeUserTextKey]

def readJev (value : Value) : Option JevFile := do
  guard (hasFields jevFields value)
  let member key := memberOf jevFields key value
  let baseUrl ← orDefault defaultBaseUrl asStr (member baseUrlKey)
  let apiKeyEnv ← orDefault defaultApiKeyEnv asStr (member apiKeyEnvKey)
  let model ← optional asStr (member modelKey)
  let timeoutMs ← optional Value.asU64 (member timeoutKey)
  let minConfidence ← orDefault defaultMinConfidence asF64 (member minConfidenceKey)
  let maxInputChars ← orDefault defaultMaxInputChars Value.asU64 (member maxInputCharsKey)
  let includeUserText ← orDefault true readBool (member includeUserTextKey)
  some { baseUrl, apiKeyEnv, model, timeoutMs, minConfidence, maxInputChars, includeUserText }

def classifierFields : List (List Char) :=
  [providerKey, routesKey, fallbackRouteKey, lightweightKey, jevKey, routeKey, timeoutKey,
    minConfidenceKey, maxInputCharsKey]

/-- The provider that a section is for, as a start reads it. -/
def providerIn (value : Value) : Option ProviderKind :=
  orDefault .lightweight readProvider (memberOf classifierFields providerKey value)

def readClassifier (value : Value) : Option ClassifierFile := do
  guard (hasFields classifierFields value)
  let member key := memberOf classifierFields key value
  let provider ← providerIn value
  let routes ← (member routesKey).bind (readList asStr)
  let fallbackRoute ← optional asStr (member fallbackRouteKey)
  let lightweight ← optional readLightweight (member lightweightKey)
  let jev ← optional readJev (member jevKey)
  let route ← optional asStr (member routeKey)
  let timeoutMs ← optional Value.asU64 (member timeoutKey)
  let minConfidence ← optional asF64 (member minConfidenceKey)
  let maxInputChars ← optional Value.asU64 (member maxInputCharsKey)
  some { provider, routes, fallbackRoute, lightweight, jev, route, timeoutMs, minConfidence
         maxInputChars }

theorem kindNamed_jev {name : List Char} (named : kindNamed name = some .jev) : name = jevKey := by
  unfold kindNamed at named
  split at named
  · cases named
  · rw [Option.ite_none_right_eq_some] at named
    exact named.1

theorem readClassifier_provider {value : Value} {raw : ClassifierFile}
    (read : readClassifier value = some raw) : providerIn value = some raw.provider := by
  simp only [readClassifier, Option.bind_eq_bind, Option.bind_eq_some_iff] at read
  obtain ⟨-, -, provider, found, rest⟩ := read
  obtain ⟨_, -, _, -, _, -, _, -, _, -, _, -, _, -, _, -, made⟩ := rest
  cases made
  exact found

/-! The file around the section. -/

def rulesKey : List Char := ['r', 'u', 'l', 'e', 's']

def enabledKey : List Char := ['e', 'n', 'a', 'b', 'l', 'e', 'd']

def adaptiveScoringKey : List Char :=
  ['a', 'd', 'a', 'p', 't', 'i', 'v', 'e', '_', 's', 'c', 'o', 'r', 'i', 'n', 'g']

def crossRouteFallbackKey : List Char :=
  ['c', 'r', 'o', 's', 's', '_', 'r', 'o', 'u', 't', 'e', '_', 'f', 'a', 'l', 'l', 'b', 'a', 'c', 'k']

def autoRouteFields : List (List Char) :=
  [enabledKey, fallbackRouteKey, rulesKey, classifierKey, adaptiveScoringKey, crossRouteFallbackKey]

def listenKey : List Char := ['l', 'i', 's', 't', 'e', 'n']

def defaultRouteKey : List Char :=
  ['d', 'e', 'f', 'a', 'u', 'l', 't', '_', 'r', 'o', 'u', 't', 'e']

def healthKey : List Char := ['h', 'e', 'a', 'l', 't', 'h']

def requestKey : List Char := ['r', 'e', 'q', 'u', 'e', 's', 't']

def sessionAffinityKey : List Char :=
  ['s', 'e', 's', 's', 'i', 'o', 'n', '_', 'a', 'f', 'f', 'i', 'n', 'i', 't', 'y']

def tracesKey : List Char := ['t', 'r', 'a', 'c', 'e', 's']

def placementKey : List Char := ['p', 'l', 'a', 'c', 'e', 'm', 'e', 'n', 't']

def nodesKey : List Char := ['n', 'o', 'd', 'e', 's']

def routerFields : List (List Char) :=
  [listenKey, apiKeyEnvKey, defaultRouteKey, healthKey, requestKey, sessionAffinityKey, tracesKey,
    placementKey, autoRouteKey, nodesKey, routesKey]

/-- The section as it is written in a document. -/
def writtenClassifier (document : Value) : Option Value :=
  (memberOf routerFields autoRouteKey document).bind (memberOf autoRouteFields classifierKey)

/-- The file that a document is, where the deserialisers of all but the classifier section read
`outside` from it. -/
def readFile (outside : WholeFile) (document : Value) : Option WholeFile :=
  match outside.autoRoute with
  | none => some outside
  | some auto =>
      (optional readClassifier (writtenClassifier document)).map fun classifier =>
        { outside with autoRoute := some { auto with classifier } }

/-- The provider that a file's classifier section is for. -/
def providerOf (whole : WholeFile) : Option ProviderKind :=
  whole.autoRoute.bind fun auto => auto.classifier.map ClassifierFile.provider

end Lightweight.Router.Reading
