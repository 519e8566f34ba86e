import Lightweight.Router.Json

/-! A chat request as a client sends it (`lightweight-api/src/chat.rs`), and the engine-neutral
request made of it (`lightweight-inference/src/generation.rs`) or the refusal. -/

namespace Lightweight.Inference

inductive MessageRole where
  | system
  | user
  | assistant
  | tool
deriving DecidableEq, Repr

structure ToolDefinition where
  name : List Char
  description : Option (List Char)
  parameters : Router.Value

inductive ToolChoice where
  | unspecified
  | auto
  | none
  | required
  | function (name : List Char)
deriving DecidableEq, Repr

structure ToolCall where
  id : List Char
  name : List Char
  arguments : List Char
deriving DecidableEq, Repr

structure ChatMessage where
  role : MessageRole
  content : List Char
  name : Option (List Char)
  toolCallId : Option (List Char)
  toolCalls : List ToolCall
deriving DecidableEq, Repr

inductive ReasoningControl where
  | default
  | disabled
  | effort (level : List Char)
deriving DecidableEq, Repr

inductive Prompt where
  | chat (messages : List ChatMessage)
  | text (text : List Char)
deriving DecidableEq, Repr

structure GenerationRequest where
  prompt : Prompt
  tools : List ToolDefinition
  toolChoice : ToolChoice
  reasoning : ReasoningControl
  maxTokens : Option Nat

end Lightweight.Inference

namespace Lightweight.Api

open Lightweight.Core Lightweight.Inference

inductive RequestError where
  | noMessages
  | toolWithoutName (index : Nat)
  | unknownToolChoice (value : List Char)
  | toolChoiceNotDeclared (name : List Char)
  | toolChoiceWithoutTools
deriving DecidableEq, Repr

/-- The request field at fault. -/
def RequestError.param : RequestError → List Char
  | .noMessages => "messages".toList
  | .toolWithoutName _ => "tools".toList
  | .unknownToolChoice _ | .toolChoiceNotDeclared _ | .toolChoiceWithoutTools =>
      "tool_choice".toList

def RequestError.code : RequestError → List Char
  | .noMessages => "invalid_messages".toList
  | .toolWithoutName _ => "invalid_tools".toList
  | .unknownToolChoice _ | .toolChoiceNotDeclared _ | .toolChoiceWithoutTools =>
      "invalid_tool_choice".toList

/-- The parts that have a text, or what is not one. -/
inductive MessageContent where
  | text (text : List Char)
  | parts (texts : List (Option (List Char)))
  | other (value : Router.Value)

structure FunctionCall where
  name : Option (List Char)
  arguments : Option (List Char)

structure RequestToolCall where
  id : Option (List Char)
  function : Option FunctionCall

structure RequestMessage where
  role : Option (List Char)
  content : MessageContent
  name : Option (List Char)
  toolCallId : Option (List Char)
  toolCalls : List RequestToolCall

structure RequestFunctionDef where
  name : Option (List Char)
  description : Option (List Char)
  parameters : Option Router.Value

/-- A tool declaration: its function, where it has one. -/
structure RequestTool where
  function : Option RequestFunctionDef

/-- A word, or an object that may name a function. -/
inductive RequestToolChoice where
  | named (value : List Char)
  | function (name : Option (List Char))

structure ChatCompletionRequest where
  messages : List RequestMessage
  maxTokens : Option Nat
  maxCompletionTokens : Option Nat
  reasoningEffort : Option (List Char)
  tools : Option (List RequestTool)
  toolChoice : Option RequestToolChoice

def MessageContent.toText : MessageContent → List Char
  | .text plain => plain
  | .parts texts => ['\n'].intercalate (texts.filterMap id)
  | .other (.string plain) => plain
  | .other _ => []

def parseRole (role : Option (List Char)) : MessageRole :=
  let role := role.getD "user".toList
  if role = "system".toList ∨ role = "developer".toList then .system
  else if role = "assistant".toList then .assistant
  else if role = "tool".toList ∨ role = "function".toList then .tool
  else .user

def convertCall (call : RequestToolCall) : Option ToolCall := do
  let function ← call.function
  let name ← function.name
  pure ⟨call.id.getD [], name, function.arguments.getD []⟩

/-- A message with neither text nor calls is dropped. -/
def convertMessage (message : RequestMessage) : Option ChatMessage :=
  let text := message.content.toText
  let toolCalls := message.toolCalls.filterMap convertCall
  if text.isEmpty ∧ toolCalls.isEmpty then none
  else some
    { role := parseRole message.role, content := text, name := message.name,
      toolCallId := message.toolCallId, toolCalls }

/-- A name that is not blank, without the space around it. -/
def nonBlank (name : Option (List Char)) : Option (List Char) :=
  (name.map trim).filter fun name => !name.isEmpty

def toolDefinition (tool : RequestTool) (index : Nat) : Except RequestError ToolDefinition :=
  match nonBlank (tool.function.bind RequestFunctionDef.name) with
  | none => .error (.toolWithoutName index)
  | some name => .ok
      { name
        description := (tool.function.bind RequestFunctionDef.description).filter fun text =>
          !(trim text).isEmpty
        parameters := (tool.function.bind RequestFunctionDef.parameters).getD .null }

namespace ChatCompletionRequest

/-- The requested limit under either spelling, or the smaller of two. -/
def requestedMaxTokens (request : ChatCompletionRequest) : Option Nat :=
  match request.maxTokens, request.maxCompletionTokens with
  | some a, some b => some (min a b)
  | some value, none | none, some value => some value
  | none, none => none

def toolDefinitions (request : ChatCompletionRequest) :
    Except RequestError (List ToolDefinition) :=
  match request.tools with
  | none => .ok []
  | some tools => tools.zipIdx.mapM fun (tool, index) => toolDefinition tool index

/-- The choice as written, before it is checked against what is declared. -/
def readToolChoice : RequestToolChoice → Except RequestError ToolChoice
  | .named value =>
      let word := trim value
      if word = "auto".toList then .ok .auto
      else if word = "none".toList then .ok .none
      else if word = "required".toList then .ok .required
      else .error (.unknownToolChoice word)
  | .function name =>
      match nonBlank name with
      | none => .error (.unknownToolChoice "an object with no function name".toList)
      | some name => .ok (.function name)

def resolvedToolChoice (request : ChatCompletionRequest) (declared : List ToolDefinition) :
    Except RequestError ToolChoice :=
  match request.toolChoice with
  | none => .ok .unspecified
  | some written =>
      match readToolChoice written with
      | .error err => .error err
      | .ok .required =>
          if declared.isEmpty then .error .toolChoiceWithoutTools else .ok .required
      | .ok (.function name) =>
          if declared.isEmpty then .error .toolChoiceWithoutTools
          else if !declared.any fun tool => tool.name = name then
            .error (.toolChoiceNotDeclared name)
          else .ok (.function name)
      | .ok choice => .ok choice

def reasoningControl (request : ChatCompletionRequest) : ReasoningControl :=
  match request.reasoningEffort.map trim with
  | none => .default
  | some effort =>
      if effort = "none".toList then .disabled
      else if effort.isEmpty then .default
      else .effort effort

def toGenerationRequest (request : ChatCompletionRequest) :
    Except RequestError GenerationRequest :=
  let messages := request.messages.filterMap convertMessage
  if messages.isEmpty then .error .noMessages
  else do
    let tools ← request.toolDefinitions
    let toolChoice ← request.resolvedToolChoice tools
    pure { prompt := .chat messages, tools, toolChoice, reasoning := request.reasoningControl,
           maxTokens := request.requestedMaxTokens }

/-- A choice that forces a call stands only beside declared tools. -/
theorem resolvedToolChoice_declared {request : ChatCompletionRequest}
    {declared : List ToolDefinition} {choice : ToolChoice}
    (resolved : request.resolvedToolChoice declared = .ok choice)
    (forced : choice = .required ∨ ∃ name, choice = .function name) : declared ≠ [] := by
  intro undeclared
  unfold resolvedToolChoice at resolved
  rw [undeclared] at resolved
  split at resolved
  · cases resolved
    simp at forced
  · split at resolved
    · cases resolved
    · cases resolved
    · cases resolved
    · rename_i unforced _
      cases resolved
      rcases forced with required | function
      · simp_all
      · simp_all

/-- What an accepted request is made into. -/
theorem toGenerationRequest_ok {request : ChatCompletionRequest} {generation : GenerationRequest}
    (accepted : request.toGenerationRequest = .ok generation) :
    ∃ tools choice, request.resolvedToolChoice tools = .ok choice ∧
      generation = { prompt := .chat (request.messages.filterMap convertMessage), tools,
                     toolChoice := choice, reasoning := request.reasoningControl,
                     maxTokens := request.requestedMaxTokens } := by
  simp only [toGenerationRequest] at accepted
  split at accepted
  · cases accepted
  · cases declared : request.toolDefinitions with
    | error err => simp [declared, bind, Except.bind] at accepted
    | ok tools =>
        cases resolved : request.resolvedToolChoice tools with
        | error err => simp [declared, resolved, bind, Except.bind] at accepted
        | ok choice =>
            simp only [declared, resolved, bind, Except.bind, pure, Except.pure] at accepted
            exact ⟨tools, choice, resolved, (Except.ok.inj accepted).symm⟩

/-- An accepted request forces no call without tools. -/
theorem toGenerationRequest_declared {request : ChatCompletionRequest}
    {generation : GenerationRequest} (accepted : request.toGenerationRequest = .ok generation)
    (forced : generation.toolChoice = .required ∨ ∃ name, generation.toolChoice = .function name) :
    generation.tools ≠ [] := by
  obtain ⟨tools, choice, resolved, rfl⟩ := toGenerationRequest_ok accepted
  exact resolvedToolChoice_declared resolved forced

end ChatCompletionRequest

end Lightweight.Api
