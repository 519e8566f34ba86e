import Lightweight.Api.Stream
import Lightweight.Store.JsonPrinter
import Lightweight.Store.Settings

/-! How the frames of a streamed chat completion are written: the members in the order of their
declaration, without those that say nothing. -/

namespace Lightweight.Api

open Lightweight.Core Lightweight.Inference Lightweight.Router Lightweight.Store

/-- A member that is left out where there is none. -/
def unlessNone (name : String) (content : Option Content) : List (List Char × Content) :=
  (content.map fun content => (name.toList, content)).toList

def natural (n : Nat) : Content := .number (.posInt n)

def FunctionDelta.toContent (function : FunctionDelta) : Content :=
  .map (unlessNone "name" (function.name.map .string) ++
    unlessNone "arguments" (function.arguments.map .string))

def ToolCallDelta.toContent (call : ToolCallDelta) : Content :=
  .map (("index".toList, natural call.index) :: unlessNone "id" (call.id.map .string) ++
    unlessNone "type" (call.type.map .string) ++
    unlessNone "function" (call.function.map FunctionDelta.toContent))

def Delta.toContent (delta : Delta) : Content :=
  .map (unlessNone "role" (delta.role.map .string) ++
    unlessNone "content" (delta.content.map .string) ++
    unlessNone "reasoning_content" (delta.reasoningContent.map .string) ++
    unlessNone "tool_calls" (delta.toolCalls.map fun calls => .seq (calls.map ToolCallDelta.toContent)))

/-- The finish reason is written also where there is none. -/
def ChunkChoice.toContent (choice : ChunkChoice) : Content :=
  .map [("index".toList, natural choice.index), ("delta".toList, choice.delta.toContent),
    ("finish_reason".toList, (choice.finishReason.map .string).getD .null)]

def UsageBody.toContent (usage : UsageBody) : Content :=
  .map ([("prompt_tokens".toList, natural usage.promptTokens),
      ("completion_tokens".toList, natural usage.completionTokens),
      ("total_tokens".toList, natural usage.totalTokens)] ++
    unlessNone "prompt_tokens_details"
      (usage.cachedTokens.map fun cached => .map [("cached_tokens".toList, natural cached)]))

/-- JSON has no infinity and nothing that is no number. -/
def floatValue (x : Float) : Value :=
  if x.isFinite then .number (.float x.toBits) else .null

/-- The reading of the clock as a value: its members are in the order of their keys. -/
def timingsValue (timings : Timings) : Value :=
  .object [("cached_n".toList, .number (.posInt timings.cachedN)),
    ("predicted_ms".toList, floatValue timings.predictedMs),
    ("predicted_n".toList, .number (.posInt timings.predictedN)),
    ("prompt_ms".toList, floatValue timings.promptMs),
    ("prompt_n".toList, .number (.posInt timings.promptN))]

def ErrorBody.toValue (body : ErrorBody) : Value :=
  .object (("code".toList, .string body.code) ::
    (body.hermes.map fun hermes => ("hermes".toList, hermes)).toList ++
    [("message".toList, .string body.message)] ++
    (body.param.map fun param => ("param".toList, .string param)).toList ++
    [("type".toList, .string body.type)])

def ChatCompletionChunk.toContent (chunk : ChatCompletionChunk) : Content :=
  .map ([("id".toList, .string chunk.id), ("object".toList, .string chunk.object),
      ("created".toList, natural chunk.created), ("model".toList, .string chunk.model),
      ("choices".toList, .seq (chunk.choices.map ChunkChoice.toContent))] ++
    unlessNone "usage" (chunk.usage.map UsageBody.toContent) ++
    unlessNone "timings" (chunk.timings.map fun timings => .ofValue (timingsValue timings)) ++
    unlessNone "error" (chunk.error.map fun error => .ofValue error.toValue))

/-- What is written into the stream for a frame. -/
def Frame.item (float : UInt64 → List Char) : Frame → Core.Item
  | .chunk next => .data (next.toContent.compact float)
  | .comment text => .comment text
  | .done => .data doneData

def wireText (float : UInt64 → List Char) (frames : List Frame) : List Char :=
  frames.flatMap fun frame => (frame.item float).encoded

/-! ### Members -/

section Members

variable {name : String} {key : List Char} {map : Map}

theorem get_unlessNone (content : Option Content) :
    Map.get key (memberValues (unlessNone name content) map) =
      if key = name.toList then (content.map Content.toValue).or (Map.get key map)
      else Map.get key map := by
  cases content with
  | none => simp [unlessNone, memberValues]
  | some content => simp [unlessNone, memberValues, Map.get_insert]

end Members

theorem itemValues_map {α : Type} (toContent : α → Content) (items : List α) :
    itemValues (items.map toContent) = items.map fun item => (toContent item).toValue := by
  induction items with
  | nil => rfl
  | cons item items ih => rw [List.map_cons, itemValues, ih, List.map_cons]

theorem ChatCompletionChunk.get_choices (chunk : ChatCompletionChunk) :
    chunk.toContent.toValue.get "choices".toList =
      some (.array (chunk.choices.map fun choice => choice.toContent.toValue)) := by
  simp [ChatCompletionChunk.toContent, Content.toValue, Value.get, memberValues_append,
    get_unlessNone, memberValues, Map.get_insert, itemValues_map]

theorem ChatCompletionChunk.get_usage (chunk : ChatCompletionChunk) :
    chunk.toContent.toValue.get "usage".toList =
      chunk.usage.map fun usage => usage.toContent.toValue := by
  simp [ChatCompletionChunk.toContent, Content.toValue, Value.get, memberValues_append,
    get_unlessNone, memberValues, Map.get_insert, Map.get, Option.map_map, Function.comp_def]

theorem ChatCompletionChunk.get_model (chunk : ChatCompletionChunk) :
    chunk.toContent.toValue.get "model".toList = some (.string chunk.model) := by
  simp [ChatCompletionChunk.toContent, Content.toValue, Value.get, memberValues_append,
    get_unlessNone, memberValues, Map.get_insert]

theorem ChatCompletionChunk.get_error (chunk : ChatCompletionChunk) :
    (chunk.toContent.toValue.get "error".toList).isSome = chunk.error.isSome := by
  simp [ChatCompletionChunk.toContent, Content.toValue, Value.get, memberValues_append,
    get_unlessNone, memberValues, Map.get_insert, Map.get]

theorem ChunkChoice.get_delta (choice : ChunkChoice) :
    choice.toContent.toValue.get "delta".toList = some choice.delta.toContent.toValue := by
  simp [ChunkChoice.toContent, Content.toValue, Value.get, memberValues, Map.get_insert]

theorem Delta.get_content (delta : Delta) :
    delta.toContent.toValue.get "content".toList = delta.content.map .string := by
  simp [Delta.toContent, Content.toValue, Value.get, memberValues_append, get_unlessNone,
    Map.get, Option.map_map, Function.comp_def]

theorem Delta.get_reasoningContent (delta : Delta) :
    delta.toContent.toValue.get "reasoning_content".toList = delta.reasoningContent.map .string := by
  simp [Delta.toContent, Content.toValue, Value.get, memberValues_append, get_unlessNone,
    Map.get, Option.map_map, Function.comp_def]

theorem UsageBody.get_tokens (usage : UsageBody) :
    usage.toContent.toValue.get "completion_tokens".toList =
        some (.number (.posInt usage.completionTokens)) ∧
      usage.toContent.toValue.get "prompt_tokens".toList =
        some (.number (.posInt usage.promptTokens)) := by
  simp [UsageBody.toContent, Content.toValue, Value.get, get_unlessNone, memberValues,
    Map.get_insert, natural]

end Lightweight.Api
