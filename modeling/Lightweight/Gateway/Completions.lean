import Lightweight.Api.Completions
import Lightweight.Gateway.StreamEncoder

/-! The two replies to a request for completions: collected into one response, or encoded as one
stream (`lightweight-gateway/src/completions.rs`). The completions run one behind the other. -/

namespace Lightweight.Gateway.Completions

open Lightweight.Inference Lightweight.Api

variable {ε : Type}

/-- One completion still to run, with what the backend makes of it: an error, or all that comes of
its generation. -/
structure PendingCompletion (ε : Type) where
  index : Nat
  echo : Option (List Char)
  generation : Except ε (List (Arrival ε))

/-- The items of a generation; the timer is nothing to the one who collects it. -/
def itemsOf (arrivals : List (Arrival ε)) : List (Item ε) :=
  arrivals.filterMap fun
    | .tick => none
    | .item item => some item

/-- The loop over the events of one generation, with the text, the reason and the total so far. -/
def collectEvents (text : List Char) (reason : FinishReason) (usage : UsageBody) :
    List (Item ε) → Except ε (List Char × FinishReason × UsageBody)
  | [] => .ok (text, reason, usage)
  | .failure error :: _ => .error error
  | .event (.contentDelta fragment) :: items => collectEvents (text ++ fragment) reason usage items
  | .event (.finished reason measured) :: items =>
      collectEvents text reason (accumulateUsage usage (UsageBody.ofUsage measured)) items
  -- a completion has no reasoning, no tool calls and no use for timings
  | .event _ :: items => collectEvents text reason usage items

/-- The choices and the usage of the completions in a queue, with the total so far. -/
def collectAll (usage : UsageBody) :
    List (PendingCompletion ε) → Except ε (List CompletionChoice × UsageBody)
  | [] => .ok ([], usage)
  | pending :: queue => do
      let arrivals ← pending.generation
      let (text, reason, usage) ←
        collectEvents (pending.echo.getD []) .length usage (itemsOf arrivals)
      let (choices, usage) ← collectAll usage queue
      pure ({ text, index := pending.index, finishReason := some reason.asStr } :: choices, usage)

structure Encoder (ε : Type) where
  queue : List (PendingCompletion ε)
  /-- The index of the choice that is being generated, and what is still to come of it. -/
  current : Option (Nat × List (Arrival ε))
  builder : CompletionChunkBuilder
  includeUsage : Bool
  pending : List CompletionFrame
  usage : UsageBody
  started : Bool
  finished : Bool
  producedText : Bool

namespace Encoder

def push (encoder : Encoder ε) (frame : CompletionFrame) : Encoder ε :=
  { encoder with pending := encoder.pending ++ [frame] }

def pushText (encoder : Encoder ε) (index : Nat) (text : List Char) : Encoder ε :=
  { encoder.push (.chunk (encoder.builder.text index text)) with producedText := true }

/-- Close one choice and make room for the next completion. -/
def finishChoice (encoder : Encoder ε) (index : Nat) (reason : FinishReason) : Encoder ε :=
  { encoder.push (.chunk (encoder.builder.finish index reason)) with current := none, started := false }

def absorb (encoder : Encoder ε) (index : Nat) : GenerationEvent → Encoder ε
  | .contentDelta text => encoder.pushText index text
  | .finished finishReason usage =>
      { encoder with
        usage := accumulateUsage encoder.usage (UsageBody.ofUsage usage) }.finishChoice index finishReason
  | _ => encoder

/-- End the stream after a failure. -/
def fail (encoder : Encoder ε) (body : ErrorBody) : Encoder ε :=
  { (encoder.push (.chunk (encoder.builder.error body))).push .done with
    finished := true, current := none }

/-- The usage chunk and `[DONE]`. -/
def close (encoder : Encoder ε) : Encoder ε :=
  if encoder.finished then encoder
  else
    let encoder := if encoder.includeUsage then
        encoder.push (.chunk (encoder.builder.usage encoder.usage))
      else encoder
    { encoder.push .done with finished := true }

/-- One pass of the loop, with nothing pending and the stream not finished. -/
def turn (envelope : ε → ErrorBody) (encoder : Encoder ε) : Encoder ε :=
  match encoder.current with
  | none =>
      match encoder.queue with
      | [] => encoder.close
      | pending :: queue =>
          let encoder := { encoder with queue }
          match pending.generation with
          | .ok arrivals =>
              let echo := pending.echo.getD []
              let encoder := { encoder with started := false }
              let encoder := if echo.isEmpty then encoder else encoder.pushText pending.index echo
              { encoder with current := some (pending.index, arrivals) }
          | .error error => encoder.fail (envelope error)
  | some (index, []) => encoder.finishChoice index .length
  | some (index, .tick :: arrivals) =>
      let encoder := { encoder with current := some (index, arrivals) }
      -- once the generation has started the timer is not set
      if encoder.started then encoder else encoder.push CompletionChunkBuilder.keepAlive
  | some (index, .item (.event event) :: arrivals) =>
      { encoder with current := some (index, arrivals), started := true }.absorb index event
  | some (index, .item (.failure error) :: arrivals) =>
      { encoder with current := some (index, arrivals) }.fail (envelope error)

/-- The encoder when all its frames are sent. -/
def drained (encoder : Encoder ε) : Encoder ε := { encoder with pending := [] }

/-- The frames that are sent; every pass of the loop uses up fuel. -/
def frames (envelope : ε → ErrorBody) : Nat → Encoder ε → List CompletionFrame
  | 0, encoder => encoder.pending
  | fuel + 1, encoder =>
      encoder.pending ++
        if encoder.finished then [] else frames envelope fuel (encoder.drained.turn envelope)

end Encoder

/-- The passes that a completion takes at most. -/
def PendingCompletion.size (pending : PendingCompletion ε) : Nat :=
  match pending.generation with
  | .ok arrivals => arrivals.length + 2
  | .error _ => 1

def passes : List (PendingCompletion ε) → Nat
  | [] => 0
  | pending :: queue => pending.size + passes queue

def Encoder.size (encoder : Encoder ε) : Nat :=
  (encoder.current.elim 0 fun running => running.2.length + 1) + passes encoder.queue + 1

def Encoder.start (queue : List (PendingCompletion ε)) (builder : CompletionChunkBuilder)
    (includeUsage : Bool) : Encoder ε where
  queue
  current := none
  builder
  includeUsage
  pending := []
  usage := UsageBody.zero
  started := false
  finished := false
  producedText := false

/-- The whole request as one stream; every pass takes something, so the loop ends within this fuel. -/
def encode (envelope : ε → ErrorBody) (queue : List (PendingCompletion ε))
    (builder : CompletionChunkBuilder) (includeUsage : Bool) : List CompletionFrame :=
  Encoder.frames envelope (Encoder.start queue builder includeUsage).size
    (Encoder.start queue builder includeUsage)

/-- The queue of a request that expands to some prompts. The choices are numbered across all of them,
and a number that is no `u32` becomes the largest one. -/
def queueOf (request : CompletionRequest) (prompts : List (List Char))
    (generations : Nat → Except ε (List (Arrival ε))) : List (PendingCompletion ε) :=
  prompts.mapIdx fun position prompt =>
    { index := min position 0xffffffff
      echo := if request.echoesThePrompt then some prompt else none
      generation := generations position }

end Lightweight.Gateway.Completions
