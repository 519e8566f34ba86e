import Lightweight.Inference.Generation
import Lightweight.Router.Json

/-! The streamed chunk sequence of a chat completion. A frame is the comment or the chunk it is made
of; how a chunk is written as JSON is left out. -/

namespace Lightweight.Api

open Lightweight.Inference

structure FunctionDelta where
  name : Option (List Char)
  arguments : Option (List Char)
deriving DecidableEq, Repr

structure ToolCallDelta where
  index : Nat
  id : Option (List Char)
  type : Option (List Char)
  function : Option FunctionDelta
deriving DecidableEq, Repr

structure Delta where
  role : Option (List Char)
  content : Option (List Char)
  reasoningContent : Option (List Char)
  toolCalls : Option (List ToolCallDelta)
deriving DecidableEq, Repr

def Delta.empty : Delta :=
  { role := none, content := none, reasoningContent := none, toolCalls := none }

structure ChunkChoice where
  index : Nat
  delta : Delta
  finishReason : Option (List Char)
deriving DecidableEq, Repr

/-- The token counts of a reply; the cached tokens are `prompt_tokens_details`. -/
structure UsageBody where
  promptTokens : Nat
  completionTokens : Nat
  totalTokens : Nat
  cachedTokens : Option Nat
deriving DecidableEq, Repr

def UsageBody.zero : UsageBody :=
  { promptTokens := 0, completionTokens := 0, totalTokens := 0, cachedTokens := none }

def UsageBody.ofUsage (usage : Usage) : UsageBody :=
  { promptTokens := usage.promptTokens
    completionTokens := usage.completionTokens
    totalTokens := usage.totalTokens
    cachedTokens := some usage.cachedTokens }

/-- The `error` object; `hermes` holds the remedies. -/
structure ErrorBody where
  message : List Char
  type : List Char
  param : Option (List Char)
  code : List Char
  hermes : Option Router.Value

def ErrorBody.invalidRequest (message code : List Char) : ErrorBody :=
  { message, type := "invalid_request_error".toList, param := none, code, hermes := none }

structure ChatCompletionChunk where
  id : List Char
  object : List Char
  created : Nat
  model : List Char
  choices : List ChunkChoice
  usage : Option UsageBody
  timings : Option Timings
  error : Option ErrorBody

inductive Frame where
  | chunk (chunk : ChatCompletionChunk)
  | comment (text : List Char)
  | done

structure ChunkBuilder where
  id : List Char
  model : List Char
  created : Nat
  announcedToolCalls : List Nat
deriving DecidableEq, Repr

namespace ChunkBuilder

def chunk (builder : ChunkBuilder) (choices : List ChunkChoice) : ChatCompletionChunk :=
  { id := builder.id
    object := "chat.completion.chunk".toList
    created := builder.created
    model := builder.model
    choices
    usage := none
    timings := none
    error := none }

def deltaChunk (builder : ChunkBuilder) (delta : Delta) : ChatCompletionChunk :=
  builder.chunk [{ index := 0, delta, finishReason := none }]

def role (builder : ChunkBuilder) : ChatCompletionChunk :=
  builder.deltaChunk { Delta.empty with role := some "assistant".toList, content := some [] }

def content (builder : ChunkBuilder) (text : List Char) : ChatCompletionChunk :=
  builder.deltaChunk { Delta.empty with content := some text }

def reasoning (builder : ChunkBuilder) (text : List Char) : ChatCompletionChunk :=
  builder.deltaChunk { Delta.empty with reasoningContent := some text }

/-- What is sent of a delta of a tool call; the id and the name only before the index is announced. -/
def callDelta (firstTime : Bool) (index : Nat) (id name arguments : Option (List Char)) :
    ToolCallDelta :=
  let id := if firstTime then id else none
  let name := if firstTime then name else none
  let function := if name.isSome || arguments.isSome then
      some
        { name
          -- the first delta of a call carries an empty argument string
          arguments := arguments.or (id.map fun _ => []) }
    else none
  { index, id, type := id.map fun _ => "function".toList, function }

/-- A tool-call delta, and the builder that remembers whether its id has been sent. -/
def toolCall (builder : ChunkBuilder) (index : Nat) (id name arguments : Option (List Char)) :
    ChatCompletionChunk × ChunkBuilder :=
  let firstTime := !builder.announcedToolCalls.contains index
  let call := callDelta firstTime index id name arguments
  let builder := if call.id.isSome then
      { builder with announcedToolCalls := builder.announcedToolCalls ++ [index] }
    else builder
  (builder.deltaChunk { Delta.empty with toolCalls := some [call] }, builder)

def finish (builder : ChunkBuilder) (reason : FinishReason) : ChatCompletionChunk :=
  builder.chunk [{ index := 0, delta := Delta.empty, finishReason := some reason.asStr }]

def usage (builder : ChunkBuilder) (usage : UsageBody) (timings : Option Timings) :
    ChatCompletionChunk :=
  { builder.chunk [] with usage := some usage, timings }

def error (builder : ChunkBuilder) (body : ErrorBody) : ChatCompletionChunk :=
  let last := { index := 0, delta := Delta.empty, finishReason := some FinishReason.error.asStr }
  { builder.chunk [last] with error := some body }

def keepAlive : Frame := .comment "ping".toList

def queued (position waitedSeconds : Nat) : Frame :=
  .comment ("queued position=".toList ++ Nat.toDigits 10 position ++ " waited=".toList ++
    Nat.toDigits 10 waitedSeconds ++ ['s'])

end ChunkBuilder

/-- The chunk ends the stream: it carries a finish reason or an error. -/
def ChatCompletionChunk.closes (chunk : ChatCompletionChunk) : Bool :=
  chunk.choices.any (fun choice => choice.finishReason.isSome) || chunk.error.isSome

end Lightweight.Api
