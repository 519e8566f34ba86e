import Lightweight.Api.Stream

/-! The requests and the replies of `/v1/completions`. One request may be several completions: an
array of prompts, and so many for each. -/

namespace Lightweight.Api

open Lightweight.Inference

inductive CompletionError where
  | noPrompt
  | tokenPrompt
  | unsupported (param why : List Char)
deriving DecidableEq, Repr

/-- A prompt in any of the shapes that a client may send; token ids come as they are. -/
inductive CompletionPrompt where
  | text (text : List Char)
  | many (texts : List (List Char))
  | tokens (value : Router.Value)

/-- What is read of a request to tell what it expands to; counts are `u32`. -/
structure CompletionRequest where
  prompt : Option CompletionPrompt
  includeUsage : Option Bool
  n : Option Nat
  echo : Option Bool
  logprobs : Option Router.Value
  bestOf : Option Nat
  suffix : Option (List Char)

/-- Some prompts, unless all of them are empty. -/
def unlessEmpty (texts : List (List Char)) : Except CompletionError (List (List Char)) :=
  if texts.all List.isEmpty then .error .noPrompt else .ok texts

def CompletionPrompt.toTexts : CompletionPrompt → Except CompletionError (List (List Char))
  | .tokens (.array []) => .error .noPrompt
  | .tokens _ => .error .tokenPrompt
  | .text prompt => unlessEmpty [prompt]
  | .many prompts => unlessEmpty prompts

namespace CompletionRequest

def wantsUsage (request : CompletionRequest) : Bool := request.includeUsage.getD false

def echoesThePrompt (request : CompletionRequest) : Bool := request.echo.getD false

def completionsPerPrompt (request : CompletionRequest) : Nat := max (request.n.getD 1) 1

/-- Whether probabilities are asked for: null and false do not ask. -/
def asksForLogprobs (request : CompletionRequest) : Bool :=
  match request.logprobs with
  | none | some .null | some (.bool false) => false
  | some _ => true

/-- The parameters that would change the shape of the reply are refused. -/
def validate (request : CompletionRequest) : Except CompletionError Unit :=
  if request.asksForLogprobs then
    .error (.unsupported "logprobs".toList
      "per-token probabilities are not reported; remove the parameter to continue".toList)
  else if request.bestOf.any fun bestOf => 1 < bestOf then
    .error (.unsupported "best_of".toList
      ("generating several completions and returning only the best would spend " ++
        "the whole budget on discarded work").toList)
  else if request.suffix.any fun text => !text.isEmpty then
    .error (.unsupported "suffix".toList
      ("fill-in-the-middle needs tokens that are specific to each model, and " ++
        "this gateway does not know which yours uses").toList)
  else .ok ()

/-- One prompt for each completion, those of one prompt side by side. -/
def expand (request : CompletionRequest) : Except CompletionError (List (List Char)) := do
  request.validate
  let texts ← match request.prompt with
    | none => .error .noPrompt
    | some prompt => prompt.toTexts
  pure (texts.flatMap fun text => List.replicate request.completionsPerPrompt text)

end CompletionRequest

structure CompletionChoice where
  text : List Char
  index : Nat
  finishReason : Option (List Char)
deriving DecidableEq, Repr

structure CompletionChunk where
  id : List Char
  object : List Char
  created : Nat
  model : List Char
  choices : List CompletionChoice
  usage : Option UsageBody
  error : Option ErrorBody

inductive CompletionFrame where
  | chunk (chunk : CompletionChunk)
  | comment (text : List Char)
  | done

structure CompletionChunkBuilder where
  id : List Char
  model : List Char
  created : Nat
deriving DecidableEq, Repr

namespace CompletionChunkBuilder

def chunk (builder : CompletionChunkBuilder) (choices : List CompletionChoice) : CompletionChunk :=
  { id := builder.id
    object := "text_completion".toList
    created := builder.created
    model := builder.model
    choices
    usage := none
    error := none }

def text (builder : CompletionChunkBuilder) (index : Nat) (text : List Char) : CompletionChunk :=
  builder.chunk [{ text, index, finishReason := none }]

/-- The chunk that closes a choice. -/
def finish (builder : CompletionChunkBuilder) (index : Nat) (reason : FinishReason) : CompletionChunk :=
  builder.chunk [{ text := [], index, finishReason := some reason.asStr }]

/-- The last chunk, with no choices. -/
def usage (builder : CompletionChunkBuilder) (usage : UsageBody) : CompletionChunk :=
  { builder.chunk [] with usage := some usage }

def error (builder : CompletionChunkBuilder) (body : ErrorBody) : CompletionChunk :=
  { builder.chunk [] with error := some body }

def keepAlive : CompletionFrame := .comment "keep-alive".toList

end CompletionChunkBuilder

/-- A sum of two `u32` that stays one. -/
def saturatingAdd32 (a b : Nat) : Nat := min (a + b) 0xffffffff

/-- The usage of one completion added to the total of the request. -/
def accumulateUsage (total part : UsageBody) : UsageBody :=
  { promptTokens := saturatingAdd32 total.promptTokens part.promptTokens
    completionTokens := saturatingAdd32 total.completionTokens part.completionTokens
    totalTokens := saturatingAdd32 total.totalTokens part.totalTokens
    cachedTokens := some (saturatingAdd32 (total.cachedTokens.getD 0) (part.cachedTokens.getD 0)) }

end Lightweight.Api
