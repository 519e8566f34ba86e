import Lightweight.Gather
import Lightweight.Gateway.StreamEncoder

/-! The aggregated reply to a chat completion: the generation is collected to its end and answered in
one piece. -/

namespace Lightweight.Gateway

open Lightweight.Inference Lightweight.Api

structure ResponseFunction where
  name : List Char
  arguments : List Char
deriving DecidableEq, Repr

structure ResponseToolCall where
  id : List Char
  type : List Char
  function : ResponseFunction
deriving DecidableEq, Repr

structure ResponseMessage where
  role : List Char
  content : List Char
  reasoningContent : Option (List Char)
  toolCalls : List ResponseToolCall
deriving DecidableEq, Repr

structure Choice where
  index : Nat
  message : ResponseMessage
  finishReason : List Char
deriving DecidableEq, Repr

structure ChatCompletionResponse where
  id : List Char
  object : List Char
  model : List Char
  choices : List Choice
  usage : UsageBody
  timings : Option Timings
deriving DecidableEq, Repr

structure PartialToolCall where
  id : List Char
  name : List Char
  arguments : List Char
deriving DecidableEq, Repr

def PartialToolCall.empty : PartialToolCall := { id := [], name := [], arguments := [] }

/-- The parts of a tool-call delta beside its index. -/
structure CallPart where
  id : Option (List Char)
  name : Option (List Char)
  arguments : Option (List Char)
deriving DecidableEq, Repr

/-- The id and the name are assigned, the arguments appended. -/
def PartialToolCall.assign (call : PartialToolCall) (part : CallPart) : PartialToolCall :=
  { id := part.id.getD call.id
    name := part.name.getD call.name
    arguments := call.arguments ++ part.arguments.getD [] }

/-- What `aggregate` has collected so far. -/
structure Collected where
  content : List Char
  reasoning : List Char
  toolCalls : List (Nat × PartialToolCall)
  usage : UsageBody
  finishReason : FinishReason
  timings : Option Timings
deriving DecidableEq, Repr

namespace Collected

def start : Collected :=
  { content := [], reasoning := [], toolCalls := [], usage := UsageBody.zero, finishReason := .length,
    timings := none }

/-- One event; `none` where the recorded durations panic. -/
def absorb (collected : Collected) : GenerationEvent → Option Collected
  | .started _ => some collected
  | .contentDelta text => some { collected with content := collected.content ++ text }
  | .reasoningDelta text => some { collected with reasoning := collected.reasoning ++ text }
  | .toolCallDelta index id name arguments =>
      let assign (call : PartialToolCall) := call.assign { id, name, arguments }
      let toolCalls := Gather.modify PartialToolCall.empty index assign collected.toolCalls
      some { collected with toolCalls }
  | .timings measured =>
      if measurable measured then some { collected with timings := some measured } else none
  | .finished finishReason usage =>
      some { collected with finishReason, usage := UsageBody.ofUsage usage }

def respond (collected : Collected) (id model : List Char) : ChatCompletionResponse :=
  { id
    object := "chat.completion".toList
    model
    choices := [
      { index := 0
        message :=
          { role := "assistant".toList
            content := collected.content
            reasoningContent :=
              if collected.reasoning.isEmpty then none else some collected.reasoning
            toolCalls := collected.toolCalls.map fun entry =>
              { id := entry.2.id
                type := "function".toList
                function := { name := entry.2.name, arguments := entry.2.arguments } } }
        finishReason := collected.finishReason.asStr }]
    usage := collected.usage
    timings := collected.timings }

end Collected

variable {ε : Type}

/-- The reply to the items still to come, or the error that is reported in its place; `none` where
the handler panics. -/
def aggregateFrom (errors : Errors ε) (id model : List Char) (collected : Collected) :
    List (Item ε) → Option (Except ErrorBody ChatCompletionResponse)
  | [] => some (.ok (collected.respond id model))
  | .failure error :: _ => some (.error (errors.envelope error))
  | .event event :: items =>
      match collected.absorb event with
      | none => none
      | some next => aggregateFrom errors id model next items

def aggregate (errors : Errors ε) (id model : List Char) (items : List (Item ε)) :
    Option (Except ErrorBody ChatCompletionResponse) :=
  aggregateFrom errors id model .start items

end Lightweight.Gateway
