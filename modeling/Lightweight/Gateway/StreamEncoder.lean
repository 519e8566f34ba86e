import Lightweight.Api.Stream

/-! The encoder of a streamed chat completion: a state machine over the queue the request waits in,
the events of its generation and the timer of the keep-alives. -/

namespace Lightweight.Gateway

open Lightweight.Inference Lightweight.Api

/-- Whether `Duration::from_secs_f64` takes the number. It panics on a negative one, on one that is
none and on one that does not fit. -/
def isDuration (secs : Float) : Bool :=
  decide (0.0 ≤ secs) && decide (secs < 18446744073709551616.0)

/-- Whether the durations that a reading is recorded with exist. -/
def measurable (timings : Timings) : Bool :=
  isDuration (timings.promptMs / 1000.0) && isDuration (timings.predictedMs / 1000.0)

/-- What the encoder hears next of a generation: an item of its stream, or the timer before it. -/
inductive Arrival (ε : Type) where
  | tick
  | item (item : Item ε)

/-- What a queued request is told while it waits: the requests ahead of it, unless it has just been
granted its slot, and the seconds it has waited. -/
structure Notice where
  position : Option Nat
  waited : Nat

/-- How the wait for a slot ends: it is granted and the generation starts, or fails to; the scheduler
is gone; the deadline has come. -/
inductive QueueEnd (ε : Type) where
  | granted (start : Except ε (List (Arrival ε)))
  | gone
  | deadline

/-- Where the events come from, with all that is still to come from there. The stream of a generation
ends behind the last arrival. -/
inductive Source (ε : Type) where
  | running (arrivals : List (Arrival ε))
  | queued (notices : List Notice) (ending : QueueEnd ε)
  | inTransit

structure Encoder (ε : Type) where
  source : Source ε
  builder : ChunkBuilder
  pending : List Frame
  includeUsage : Bool
  started : Bool
  finished : Bool
  usage : Option UsageBody
  timings : Option Timings

/-- The errors of a backend as far as the encoder needs them: what the client is told of one, and the
one for a request that is cancelled. -/
structure Errors (ε : Type) where
  envelope : ε → ErrorBody
  cancelled : ε

variable {ε : Type}

namespace Encoder

def push (encoder : Encoder ε) (frame : Frame) : Encoder ε :=
  { encoder with pending := encoder.pending ++ [frame] }

/-- End the stream after a failure. -/
def failWith (encoder : Encoder ε) (envelope : ErrorBody) : Encoder ε :=
  { (encoder.push (.chunk (encoder.builder.error envelope))).push .done with finished := true }

def queueTimeoutEnvelope : ErrorBody :=
  .invalidRequest "the gateway is busy with another request; try again shortly".toList
    "server_busy".toList

/-- The finish chunk, the usage chunk and `[DONE]`. -/
def close (encoder : Encoder ε) (finishReason : FinishReason) : Encoder ε :=
  if encoder.finished then encoder
  else
    let encoder := encoder.push (.chunk (encoder.builder.finish finishReason))
    let encoder := if encoder.includeUsage then
        encoder.push
          (.chunk (encoder.builder.usage (encoder.usage.getD UsageBody.zero) encoder.timings))
      else encoder
    { encoder.push .done with finished := true }

/-- One event of the generation; `none` where the encoder panics. -/
def absorb (encoder : Encoder ε) : GenerationEvent → Option (Encoder ε)
  | .started _ => some encoder
  | .contentDelta text => some (encoder.push (.chunk (encoder.builder.content text)))
  | .reasoningDelta text => some (encoder.push (.chunk (encoder.builder.reasoning text)))
  | .toolCallDelta index id name arguments =>
      let (chunk, builder) := encoder.builder.toolCall index id name arguments
      some ({ encoder with builder }.push (.chunk chunk))
  | .timings measured =>
      if measurable measured then some { encoder with timings := some measured } else none
  | .finished finishReason usage =>
      some ({ encoder with usage := some (UsageBody.ofUsage usage) }.close finishReason)

def waitForASlot (errors : Errors ε) (encoder : Encoder ε) : Encoder ε :=
  match encoder.source with
  | .queued (notice :: notices) ending =>
      { encoder with source := .queued notices ending }.push
        (ChunkBuilder.queued (notice.position.getD 0) notice.waited)
  | .queued [] (.granted (.ok arrivals)) => { encoder with source := .running arrivals }
  | .queued [] (.granted (.error error)) =>
      { encoder with source := .inTransit }.failWith (errors.envelope error)
  | .queued [] .gone => { encoder with source := .inTransit }.failWith (errors.envelope errors.cancelled)
  | .queued [] .deadline => { encoder with source := .inTransit }.failWith queueTimeoutEnvelope
  | _ => encoder

/-- One pass of the loop, with nothing pending; `none` where the encoder panics. -/
def turn (errors : Errors ε) (encoder : Encoder ε) : Option (Encoder ε) :=
  match encoder.source with
  | .queued _ _ => some (encoder.waitForASlot errors)
  | .inTransit => some (encoder.close .error)
  | .running [] => some (encoder.close .length)
  | .running (.tick :: arrivals) =>
      let encoder := { encoder with source := .running arrivals }
      -- once the generation has started the timer is not set
      some (if encoder.started then encoder else encoder.push ChunkBuilder.keepAlive)
  | .running (.item (.event event) :: arrivals) =>
      { encoder with source := .running arrivals, started := true }.absorb event
  | .running (.item (.failure error) :: arrivals) =>
      some ({ encoder with source := .running arrivals }.failWith (errors.envelope error))

/-- The encoder when all its frames are sent. -/
def drained (encoder : Encoder ε) : Encoder ε := { encoder with pending := [] }

/-- The frames that are sent; every pass of the loop uses up fuel. A panic takes the stream down as it
stands. -/
def frames (errors : Errors ε) : Nat → Encoder ε → List Frame
  | 0, encoder => encoder.pending
  | fuel + 1, encoder =>
      encoder.pending ++
        if encoder.finished then []
        else
          match encoder.drained.turn errors with
          | none => []
          | some next => frames errors fuel next

end Encoder

def Source.size : Source ε → Nat
  | .running arrivals => arrivals.length + 1
  | .queued notices (.granted (.ok arrivals)) => notices.length + arrivals.length + 2
  | .queued notices _ => notices.length + 1
  | .inTransit => 1

/-- A pass that does not finish the stream takes something from the source, so the loop ends within
this fuel. -/
def encodeSource (errors : Errors ε) (source : Source ε) (builder : ChunkBuilder)
    (includeUsage : Bool) : List Frame :=
  Encoder.frames errors (source.size + 1)
    { source, builder, pending := [.chunk builder.role], includeUsage, started := false,
      finished := false, usage := none, timings := none }

def encode (errors : Errors ε) (arrivals : List (Arrival ε)) (builder : ChunkBuilder)
    (includeUsage : Bool) : List Frame :=
  encodeSource errors (.running arrivals) builder includeUsage

def encodeQueued (errors : Errors ε) (notices : List Notice) (ending : QueueEnd ε)
    (builder : ChunkBuilder) (includeUsage : Bool) : List Frame :=
  encodeSource errors (.queued notices ending) builder includeUsage

end Lightweight.Gateway
