import Lightweight.Router.Health

/-! What one request needs (`lightweight-router/src/requirements.rs`), and whether a deployment can
serve it (`gaps` of `lightweight-router/src/capability.rs`). -/

namespace Lightweight.Router

inductive Endpoint where
  | chatCompletions
  | completions
deriving DecidableEq, Repr

inductive ToolChoiceRequirement where
  | unspecified
  | auto
  | none
  | required
  | function
deriving DecidableEq, Repr

/-- `endpoint` is `none` only for a plan that is not for a request at all. -/
structure RequestRequirements where
  endpoint : Option Endpoint
  tools : Bool
  toolChoice : ToolChoiceRequirement
  reasoning : Bool
  promptTokens : Option Nat
  maxTokens : Option Nat
deriving DecidableEq, Repr

namespace RequestRequirements

/-- Nothing at all: every available deployment qualifies. -/
def none : RequestRequirements :=
  { endpoint := .none, tools := false, toolChoice := .unspecified, reasoning := false,
    promptTokens := .none, maxTokens := .none }

/-- Whether a deployment must honour `tool_choice` itself. -/
def needsToolChoice (needs : RequestRequirements) : Bool :=
  match needs.toolChoice with
  | .required => true
  | .function => true
  | .none => needs.tools
  | .unspecified => false
  | .auto => false

/-- The prompt, plus the one token a node must have left to generate anything. -/
def requiredContext (needs : RequestRequirements) : Option Nat :=
  needs.promptTokens.map fun tokens => saturatingAdd tokens 1

def requiresAnything (needs : RequestRequirements) : Bool :=
  needs.endpoint.isSome || needs.tools || needs.needsToolChoice || needs.reasoning ||
    needs.promptTokens.isSome

end RequestRequirements

/-- The endpoint's own feature, as far as `features` lacks it. -/
def endpointGap (endpoint : Option Endpoint) (features : FeatureSet) : List CapabilityGap :=
  match endpoint with
  | some .chatCompletions => if !features.chatCompletions then [.chatUnsupported] else []
  | some .completions => if !features.completions then [.completionUnsupported] else []
  | none => []

/-- The node refuses a prompt that leaves no room to generate. -/
def contextGap (required : Option Nat) (contextLength : Nat) : List CapabilityGap :=
  match required with
  | some required => if contextLength < required then [.contextTooSmall] else []
  | none => []

/-- Every requirement `seen` fails. Empty means the deployment can serve the request. -/
def gaps (needs : RequestRequirements) (seen : Option DeploymentObservation) : List CapabilityGap :=
  match seen with
  | none => if needs.requiresAnything then [.unobserved] else []
  | some seen =>
      let features := seen.capabilities
      endpointGap needs.endpoint features ++
      (if needs.tools && !features.tools then [.toolsUnsupported] else []) ++
      (if needs.needsToolChoice && !(features.tools && features.toolChoice) then
        [.toolChoiceUnsupported] else []) ++
      (if needs.reasoning && !features.reasoningContent then [.reasoningUnsupported] else []) ++
      contextGap needs.requiredContext seen.contextLength

/-- An observed deployment is never passed by for not having been observed. -/
theorem unobserved_not_mem_gaps (needs : RequestRequirements) (seen : DeploymentObservation) :
    CapabilityGap.unobserved ∉ gaps needs (some seen) := by
  have endpoint : CapabilityGap.unobserved ∉ endpointGap needs.endpoint seen.capabilities := by
    unfold endpointGap
    split
    · split <;> simp
    · split <;> simp
    · simp
  have context : CapabilityGap.unobserved ∉ contextGap needs.requiredContext seen.contextLength := by
    unfold contextGap
    split
    · split <;> simp
    · simp
  simp only [gaps, List.mem_append, not_or]
  refine ⟨⟨⟨⟨endpoint, ?_⟩, ?_⟩, ?_⟩, context⟩ <;> split <;> simp

end Lightweight.Router
