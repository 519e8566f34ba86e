import Lightweight.Core.SseChunks
import Lightweight.Inference.Generation
import Lightweight.Router.Json

/-! The client of the llama.cpp engine: the translation of its event stream into generation events. -/

namespace Lightweight.Backend

open Lightweight.Core hiding Item
open Lightweight.Inference Lightweight.Router

/-- `u32::try_from(value).unwrap_or(u32::MAX)`. -/
def saturateU32 (value : Nat) : Nat :=
  if value < UInt32.size then value else UInt32.size - 1

def asStr : Value → Option (List Char)
  | .string text => some text
  | _ => none

def asArray : Value → Option (List Value)
  | .array items => some items
  | _ => none

def asF64 : Value → Option Float
  | .number (.posInt n) => some (UInt64.ofNat n).toFloat
  | .number (.negInt n) => some (Int64.ofInt n).toFloat
  | .number (.float bits) => some (Float.ofBits bits)
  | _ => none

/-- A failure of the connection to the engine. -/
structure TransportFailure where
  isConnect : Bool
  text : List Char
deriving DecidableEq, Repr

def transportError (failure : TransportFailure) : BackendError :=
  if failure.isConnect then .engineUnavailable else .generationFailed failure.text

def decodeErrorText : SseDecodeError → List Char
  | .frameTooLarge limit =>
      "a server-sent event exceeded ".toList ++ Nat.toDigits 10 limit ++
        " bytes without ending".toList

def upstreamError (payload : Value) : BackendError :=
  let error := (payload.get "error".toList).getD payload
  let kind := ((error.get "type".toList).bind asStr).getD []
  let message := ((error.get "message".toList).bind asStr).getD
    "the engine rejected the request".toList
  let promptTokens := ((error.get "n_prompt_tokens".toList).bind Value.asU64).getD 0
  let nCtx := ((error.get "n_ctx".toList).bind Value.asU64).getD 0
  if kind = "exceed_context_size_error".toList ∧ 0 < nCtx then
    .contextOverflow (saturateU32 promptTokens) (saturateU32 nCtx)
  else .generationFailed message

/-- A count of an object, 0 if there is none. -/
def countOf (name : String) (object : Value) : Nat :=
  (((object.get name.toList).bind Value.asU64).map saturateU32).getD 0

def parseUsage (usage : Value) : Option Usage :=
  some
    { promptTokens := countOf "prompt_tokens" usage
      completionTokens := countOf "completion_tokens" usage
      totalTokens := countOf "total_tokens" usage
      cachedTokens := ((((usage.get "prompt_tokens_details".toList).bind fun details =>
        details.get "cached_tokens".toList).bind Value.asU64).map saturateU32).getD 0 }

def parseTimings (timings : Value) : Option Timings :=
  let millis (name : String) := ((timings.get name.toList).bind asF64).getD 0.0
  some
    { promptN := countOf "prompt_n" timings
      promptMs := millis "prompt_ms"
      predictedN := countOf "predicted_n" timings
      predictedMs := millis "predicted_ms"
      cachedN := countOf "cache_n" timings }

/-- The state of the translation beside the body it reads. -/
structure Translation where
  decoder : SseDecoder
  pending : List (Item BackendError)
  started : Bool
  finishReason : Option FinishReason
  usage : Option Usage
  finished : Bool
  reportedFinish : Bool
deriving DecidableEq, Repr

def Translation.new : Translation :=
  { decoder := SseDecoder.new, pending := [], started := false, finishReason := none, usage := none,
    finished := false, reportedFinish := false }

def Translation.push (state : Translation) (item : Item BackendError) : Translation :=
  { state with pending := state.pending ++ [item] }

/-- The state with the event of a text, if there is one. -/
def Translation.pushText (state : Translation) (event : List Char → GenerationEvent)
    (text : Option (List Char)) : Translation :=
  match text with
  | some text => state.push (.event (event text))
  | none => state

/-- The terminal event from whatever the stream established. -/
def Translation.finishEvent (state : Translation) : Item BackendError × Translation :=
  (.event (.finished (state.finishReason.getD .length) (state.usage.getD Usage.zero)),
    { state with reportedFinish := true })

/-- The text of a member, unless it is empty. -/
def textOf (key : String) (object : Value) : Option (List Char) :=
  ((object.get key.toList).bind asStr).filter fun text => !text.isEmpty

def toolCallEvent (call : Value) : GenerationEvent :=
  let index := (((call.get "index".toList).bind Value.asU64).map saturateU32).getD 0
  let function := call.get "function".toList
  .toolCallDelta index (textOf "id" call) (function.bind (textOf "name"))
    (function.bind fun function => (function.get "arguments".toList).bind asStr)

def absorbDelta (state : Translation) (delta : Value) : Translation :=
  let state := state.pushText .contentDelta (textOf "content" delta)
  -- either spelling, the first that has text
  let state := state.pushText .reasoningDelta
    ((textOf "reasoning_content" delta).or (textOf "reasoning" delta))
  let calls := ((delta.get "tool_calls".toList).bind asArray).getD []
  calls.foldl (fun state call => state.push (.event (toolCallEvent call))) state

def readReason (reason : List Char) : FinishReason :=
  if reason = "length".toList then .length
  else if reason = "tool_calls".toList then .toolCalls
  else .stop

/-- The part of `absorb` about the first choice. -/
def absorbChoice (state : Translation) (choice : Value) : Translation :=
  let state := match choice.get "delta".toList with
    | some delta => absorbDelta state delta
    | none => state
  let state := state.pushText .contentDelta (textOf "text" choice)
  match (choice.get "finish_reason".toList).bind asStr with
  | some reason => { state with finishReason := some (readReason reason) }
  | none => state

/-- The part of `absorb` about a chunk that is JSON and no error. -/
def absorbChunk (state : Translation) (chunk : Value) : Translation :=
  let state := if state.started then state
    else { state with started := true }.push (.event (.started none))
  let state := match (chunk.get "usage".toList).bind parseUsage with
    | some usage => { state with usage := some usage }
    | none => state
  let state := match (chunk.get "timings".toList).bind parseTimings with
    | some timings => state.push (.event (.timings timings))
    | none => state
  match ((chunk.get "choices".toList).bind asArray).bind List.head? with
  | none => state
  | some choice => absorbChoice state choice

/-- The part of `absorb` about an event that is JSON. -/
def absorbValue (state : Translation) (chunk : Value) : Translation :=
  match chunk.get "error".toList with
  | some error =>
      { state with finished := true, reportedFinish := true }.push
        (.failure (upstreamError (.object [("error".toList, error)])))
  | none => absorbChunk state chunk

def absorb (serde : Serde) (state : Translation) (event : SseEvent) : Translation :=
  if event.isDone then
    let state := { state with finished := true }
    if state.reportedFinish then state
    else
      let (item, state) := state.finishEvent
      state.push item
  else
    match serde.fromStr event.data with
    | none => state
    | some chunk => absorbValue state chunk

/-- One chunk of the body. When `feed` fails, what it has decoded stays unread. -/
def absorbBytes (serde : Serde) (state : Translation) (bytes : List UInt8) : Translation :=
  match state.decoder.feed bytes with
  | (.error error, decoder) =>
      { state with decoder, finished := true }.push
        (.failure (.generationFailed (decodeErrorText error)))
  | (.ok (), decoder) =>
      let (events, decoder) := decoder.drain
      events.foldl (absorb serde) { state with decoder }

/-- How the body ends behind its last chunk. -/
inductive BodyEnd where
  | closed
  | broken (failure : TransportFailure)
deriving DecidableEq, Repr

def absorbEnd (state : Translation) : BodyEnd → Translation
  | .closed =>
      let state := { state with finished := true }
      if state.reportedFinish then state
      else
        let (item, state) := state.finishEvent
        state.push item
  | .broken failure => { state with finished := true }.push (.failure (transportError failure))

/-- The items of the stream: what is pending goes out before more of the body is read, and nothing is
read once the translation has finished. -/
def Translation.items (serde : Serde) (state : Translation) (chunks : List (List UInt8))
    (ending : BodyEnd) : List (Item BackendError) :=
  if state.finished then state.pending
  else
    match chunks with
    | [] => state.pending ++ (absorbEnd { state with pending := [] } ending).pending
    | chunk :: chunks =>
        state.pending ++
          Translation.items serde (absorbBytes serde { state with pending := [] } chunk) chunks ending

def translate (serde : Serde) (chunks : List (List UInt8)) (ending : BodyEnd) :
    List (Item BackendError) :=
  Translation.new.items serde chunks ending

end Lightweight.Backend
