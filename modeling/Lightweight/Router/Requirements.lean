import Mathlib.Algebra.Ring.Nat
import Lightweight.Api.Chat
import Lightweight.Api.Completions
import Lightweight.Router.Capability

/-! Reading what a request needs from its body (`extract` of
`lightweight-router/src/requirements.rs`), or the gateway's own refusal of it. The typed reading of
the body is a parameter. -/

namespace Lightweight.Router

open Lightweight.Api Lightweight.Inference

def bytesPerTokenCeiling : Nat := 6

/-- A completion request, with the budget it asks for. -/
structure CompletionBody extends CompletionRequest where
  maxTokens : Option Nat

/-- `serde_json::from_slice` at the two request types: nothing where the body is not one. -/
structure BodyReader where
  chat : List UInt8 → Option ChatCompletionRequest
  completion : List UInt8 → Option CompletionBody

/-- The `400` of a request that the gateway would refuse. -/
inductive InvalidRequest where
  | chat (err : RequestError)
  | completion (err : CompletionError)
deriving DecidableEq, Repr

def ToolChoiceRequirement.ofChoice : ToolChoice → ToolChoiceRequirement
  | .unspecified => .unspecified
  | .auto => .auto
  | .none => .none
  | .required => .required
  | .function _ => .function

/-- The bytes of a text. -/
def byteLength (text : List Char) : Nat :=
  (text.map Char.utf8Size).sum

/-- The bytes of message text that a chat template is given. -/
def chatBytes (generation : GenerationRequest) : Nat :=
  match generation.prompt with
  | .chat messages => (messages.map fun message => byteLength message.content).sum
  | .text text => byteLength text

/-- A count that no tokenizer is expected to go under; a `u32`. -/
def tokensAtLeast (bytes : Nat) : Nat :=
  min ((bytes + bytesPerTokenCeiling - 1) / bytesPerTokenCeiling) u32Max

/-- Only an effort asks for reasoning. -/
def asksForReasoning : ReasoningControl → Bool
  | .effort _ => true
  | _ => false

def chatRequirements (generation : GenerationRequest) (maxTokens : Option Nat) :
    RequestRequirements where
  endpoint := some .chatCompletions
  tools := !generation.tools.isEmpty
  toolChoice := .ofChoice generation.toolChoice
  reasoning := asksForReasoning generation.reasoning
  promptTokens := some (tokensAtLeast (chatBytes generation))
  maxTokens := maxTokens

/-- The requirements of a body that could not be read. -/
def onlyEndpoint (endpoint : Endpoint) : RequestRequirements :=
  { RequestRequirements.none with endpoint := some endpoint }

/-- What `body`, sent to `endpoint`, requires. -/
def extract (reader : BodyReader) (endpoint : Endpoint) (body : List UInt8) :
    Except InvalidRequest RequestRequirements :=
  match endpoint with
  | .chatCompletions =>
      match reader.chat body with
      | none => .ok (onlyEndpoint endpoint)
      | some request =>
          match request.toGenerationRequest with
          | .error err => .error (.chat err)
          | .ok generation => .ok (chatRequirements generation request.requestedMaxTokens)
  | .completions =>
      match reader.completion body with
      | none => .ok (onlyEndpoint endpoint)
      | some request =>
          match request.expand with
          | .error err => .error (.completion err)
          | .ok prompts =>
              let largest := ((prompts.map byteLength).max?).getD 0
              .ok { onlyEndpoint endpoint with
                promptTokens := some (tokensAtLeast largest)
                maxTokens := request.maxTokens }

/-- What holds of the requirements of any request that is not refused. -/
structure Extracted (endpoint : Endpoint) (needs : RequestRequirements) : Prop where
  sentTo : needs.endpoint = some endpoint
  completion : endpoint = .completions →
    needs.tools = false ∧ needs.toolChoice = .unspecified ∧ needs.reasoning = false
  forced : needs.toolChoice = .required ∨ needs.toolChoice = .function → needs.tools = true

theorem extracted_onlyEndpoint (endpoint : Endpoint) :
    Extracted endpoint (onlyEndpoint endpoint) where
  sentTo := rfl
  completion _ := ⟨rfl, rfl, rfl⟩
  forced unforced := by simp [onlyEndpoint, RequestRequirements.none] at unforced

theorem chatRequirements_forced {request : ChatCompletionRequest} {generation : GenerationRequest}
    (accepted : request.toGenerationRequest = .ok generation) {maxTokens : Option Nat}
    (forced : (chatRequirements generation maxTokens).toolChoice = .required ∨
      (chatRequirements generation maxTokens).toolChoice = .function) :
    (chatRequirements generation maxTokens).tools = true := by
  have named : generation.toolChoice = .required ∨
      ∃ name, generation.toolChoice = .function name := by
    cases choice : generation.toolChoice <;>
      simp [chatRequirements, ToolChoiceRequirement.ofChoice, choice] at forced ⊢
  have declared := ChatCompletionRequest.toGenerationRequest_declared accepted named
  simpa [chatRequirements] using declared

theorem extract_spec {reader : BodyReader} {endpoint : Endpoint} {body : List UInt8}
    {needs : RequestRequirements} (accepted : extract reader endpoint body = .ok needs) :
    Extracted endpoint needs := by
  cases endpoint with
  | chatCompletions =>
      simp only [extract] at accepted
      split at accepted
      · cases accepted
        exact extracted_onlyEndpoint _
      · rename_i request _
        split at accepted
        · cases accepted
        · rename_i generation converted
          cases accepted
          exact ⟨rfl, by simp, chatRequirements_forced converted⟩
  | completions =>
      simp only [extract] at accepted
      split at accepted
      · cases accepted
        exact extracted_onlyEndpoint _
      · split at accepted
        · cases accepted
        · cases accepted
          have plain := extracted_onlyEndpoint .completions
          exact ⟨plain.sentTo, plain.completion, plain.forced⟩

end Lightweight.Router
