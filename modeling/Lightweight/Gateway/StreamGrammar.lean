import Lightweight.Gateway.StreamEncoder

/-! The order of the frames that a client of a streamed chat completion is sent. -/

namespace Lightweight.Gateway

open Lightweight.Inference Lightweight.Api

variable {ε : Type}

def Arrival.item? : Arrival ε → Option (Item ε)
  | .tick => none
  | .item next => some next

/-- What is still to come of the generation, if there will be one. -/
def Source.items : Source ε → List (Item ε)
  | .running arrivals => arrivals.filterMap Arrival.item?
  | .queued _ (.granted (.ok arrivals)) => arrivals.filterMap Arrival.item?
  | _ => []

/-- The events before the stream's terminal item. -/
def heard : List (Item ε) → List GenerationEvent
  | [] => []
  | .failure _ :: _ => []
  | .event event :: items => if event.isFinished then [] else event :: heard items

/-- The error that a stream of items comes to before anything else ends it. -/
def failureOf : List (Item ε) → Option ε
  | [] => none
  | .failure error :: _ => some error
  | .event event :: items => if event.isFinished then none else failureOf items

/-- What the client is told if the request fails. -/
def Source.failure (errors : Errors ε) : Source ε → Option ErrorBody
  | .running arrivals => (failureOf (arrivals.filterMap Arrival.item?)).map errors.envelope
  | .queued _ (.granted (.ok arrivals)) =>
      (failureOf (arrivals.filterMap Arrival.item?)).map errors.envelope
  | .queued _ (.granted (.error error)) => some (errors.envelope error)
  | .queued _ .gone => some (errors.envelope errors.cancelled)
  | .queued _ .deadline => some Encoder.queueTimeoutEnvelope
  | .inTransit => none

/-- The delta chunk of an event, if it has one, and the builder afterwards. -/
def deltaOf (builder : ChunkBuilder) : GenerationEvent → List ChatCompletionChunk × ChunkBuilder
  | .contentDelta text => ([builder.content text], builder)
  | .reasoningDelta text => ([builder.reasoning text], builder)
  | .toolCallDelta index id name arguments =>
      let (chunk, builder) := builder.toolCall index id name arguments
      ([chunk], builder)
  | _ => ([], builder)

/-- The delta chunks of the events, in their order. -/
def deltaChunks (builder : ChunkBuilder) : List GenerationEvent → List ChatCompletionChunk
  | [] => []
  | event :: events => (deltaOf builder event).1 ++ deltaChunks (deltaOf builder event).2 events

def isComment : Frame → Bool
  | .comment _ => true
  | _ => false

/-- The end of the stream: the one chunk that closes it, with the error if there was one; a usage
chunk exactly if it was asked for and there was no error; `[DONE]`. -/
def Closing (includeUsage : Bool) (failure : Option ErrorBody) (frames : List Frame) : Prop :=
  ∃ (last : ChatCompletionChunk) (usage : List ChatCompletionChunk),
    frames = .chunk last :: usage.map .chunk ++ [.done] ∧ last.closes = true ∧
    last.error = failure ∧ usage.length = (if includeUsage && failure.isNone then 1 else 0) ∧
    ∀ chunk ∈ usage, chunk.closes = false ∧ chunk.choices = [] ∧ chunk.usage.isSome = true

/-- The frames of a stream: the role chunk and comments, the delta chunks of the events, the end. -/
def InOrder (builder : ChunkBuilder) (includeUsage : Bool) (events : List GenerationEvent)
    (failure : Option ErrorBody) (frames : List Frame) : Prop :=
  ∃ comments closing,
    frames = .chunk builder.role :: comments ++ (deltaChunks builder events).map .chunk ++ closing ∧
    builder.role.closes = false ∧ (∀ frame ∈ comments, isComment frame = true) ∧
    (∀ chunk ∈ deltaChunks builder events, chunk.closes = false) ∧
    Closing includeUsage failure closing

/-- Every reading of the engine's clock among the events can be recorded. -/
def Measurable (events : List GenerationEvent) : Prop :=
  ∀ timings, .timings timings ∈ events → measurable timings = true

namespace Encoder

variable {errors : Errors ε} {encoder : Encoder ε}

theorem frames_finished (finished : encoder.finished = true) (fuel : Nat) :
    encoder.frames errors fuel = encoder.pending := by
  cases fuel with
  | zero => rfl
  | succ fuel => rw [frames, if_pos finished, List.append_nil]

theorem failWith_frames (envelope : ErrorBody) (fuel : Nat) :
    (encoder.failWith envelope).frames errors fuel =
      encoder.pending ++ [.chunk (encoder.builder.error envelope), .done] := by
  rw [frames_finished rfl]
  simp [failWith, push]

theorem closing_failWith (envelope : ErrorBody) (builder : ChunkBuilder) (includeUsage : Bool) :
    Closing includeUsage (some envelope) [.chunk (builder.error envelope), .done] :=
  ⟨builder.error envelope, [], rfl, rfl, rfl, by simp, by simp⟩

/-- The frames that close a stream which has not failed. -/
def closingFrames (encoder : Encoder ε) (reason : FinishReason) : List Frame :=
  .chunk (encoder.builder.finish reason) ::
    (if encoder.includeUsage then
      [.chunk (encoder.builder.usage (encoder.usage.getD UsageBody.zero) encoder.timings)]
    else []) ++ [.done]

theorem close_frames (open_ : encoder.finished = false) (reason : FinishReason) (fuel : Nat) :
    (encoder.close reason).frames errors fuel = encoder.pending ++ encoder.closingFrames reason := by
  have finished : (encoder.close reason).finished = true := by
    simp [close, open_]
  rw [frames_finished finished, close, open_, if_neg Bool.false_ne_true, closingFrames]
  cases asked : encoder.includeUsage <;> simp [push, asked]

theorem closing_closingFrames (reason : FinishReason) :
    Closing encoder.includeUsage none (encoder.closingFrames reason) := by
  rw [closingFrames]
  cases encoder.includeUsage with
  | false => exact ⟨_, [], rfl, rfl, rfl, rfl, by simp⟩
  | true =>
      refine ⟨_, [_], rfl, rfl, rfl, rfl, ?_⟩
      intro chunk member
      rw [List.mem_singleton] at member
      subst member
      exact ⟨rfl, rfl, rfl⟩

/-- A pass of the loop sends what is pending first. -/
theorem frames_turn (unfinished : encoder.finished = false) {next : Encoder ε}
    (turned : encoder.drained.turn errors = some next) (fuel : Nat) :
    encoder.frames errors (fuel + 1) = encoder.pending ++ next.frames errors fuel := by
  have go : ¬encoder.finished = true := by simp [unfinished]
  rw [frames, if_neg go, turned]

theorem frames_panic (unfinished : encoder.finished = false)
    (panicked : encoder.drained.turn errors = none) (fuel : Nat) :
    encoder.frames errors (fuel + 1) = encoder.pending := by
  have go : ¬encoder.finished = true := by simp [unfinished]
  rw [frames, if_neg go, panicked, List.append_nil]

/-- What an event does that does not finish the generation and can be recorded. -/
theorem absorb_plain (encoder : Encoder ε) {event : GenerationEvent} (plain : event.isFinished = false)
    (recorded : ∀ timings, event = .timings timings → measurable timings = true) :
    ∃ next, encoder.absorb event = some next ∧
      next.pending = encoder.pending ++ (deltaOf encoder.builder event).1.map .chunk ∧
      next.builder = (deltaOf encoder.builder event).2 ∧ next.source = encoder.source ∧
      next.finished = encoder.finished ∧ next.started = encoder.started ∧
      next.includeUsage = encoder.includeUsage := by
  cases event with
  | started tokens => exact ⟨_, rfl, by simp [deltaOf], rfl, rfl, rfl, rfl, rfl⟩
  | contentDelta text => exact ⟨_, rfl, rfl, rfl, rfl, rfl, rfl, rfl⟩
  | reasoningDelta text => exact ⟨_, rfl, rfl, rfl, rfl, rfl, rfl, rfl⟩
  | toolCallDelta index id name arguments => exact ⟨_, rfl, rfl, rfl, rfl, rfl, rfl, rfl⟩
  | finished reason usage => cases plain
  | timings measured =>
      exact ⟨_, if_pos (recorded measured rfl), by simp [deltaOf], rfl, rfl, rfl, rfl, rfl⟩

/-- The frames that end the stream of some items. -/
inductive Ends (errors : Errors ε) (asked : Bool) : List (Item ε) → List Frame → Prop where
  | cut (last : Encoder ε) (asks : last.includeUsage = asked) :
      Ends errors asked [] (last.closingFrames .length)
  | failed (builder : ChunkBuilder) (error : ε) (items : List (Item ε)) :
      Ends errors asked (.failure error :: items)
        [.chunk (builder.error (errors.envelope error)), .done]
  | finished (last : Encoder ε) (asks : last.includeUsage = asked) {usage : Usage}
      (counted : last.usage = some (UsageBody.ofUsage usage)) (reason : FinishReason)
      (items : List (Item ε)) :
      Ends errors asked (.event (.finished reason usage) :: items) (last.closingFrames reason)
  | event {event : GenerationEvent} (plain : event.isFinished = false) {items : List (Item ε)}
      {frames : List Frame} (later : Ends errors asked items frames) :
      Ends errors asked (.event event :: items) frames

theorem Ends.closing {asked : Bool} {items : List (Item ε)} {frames : List Frame}
    (ends : Ends errors asked items frames) :
    Closing asked ((failureOf items).map errors.envelope) frames := by
  induction ends with
  | cut last asks =>
      rw [← asks]
      exact closing_closingFrames .length
  | failed builder error items => exact closing_failWith (errors.envelope error) builder asked
  | finished last asks counted reason items =>
      rw [← asks]
      exact closing_closingFrames reason
  | event plain later ih => simpa [failureOf, plain] using ih

/-- The frames of the passes over some arrivals, behind those already pending: comments, which stop
with the first event, the delta chunks of the events, and the end. -/
def Serves (errors : Errors ε) (encoder : Encoder ε) (items : List (Item ε)) (frames : List Frame) :
    Prop :=
  ∃ comments closing,
    frames = comments ++ (deltaChunks encoder.builder (heard items)).map .chunk ++ closing ∧
    (∀ frame ∈ comments, isComment frame = true) ∧ (encoder.started = true → comments = []) ∧
    Ends errors encoder.includeUsage items closing

theorem serves_nil : Serves errors encoder [] (encoder.drained.closingFrames .length) :=
  ⟨[], _, rfl, by simp, fun _ => rfl, .cut encoder.drained rfl⟩

theorem turn_tick (errors : Errors ε) {arrivals : List (Arrival ε)}
    (source : encoder.source = .running (.tick :: arrivals)) :
    ∃ next, encoder.drained.turn errors = some next ∧
      next.pending = (if encoder.started then [] else [ChunkBuilder.keepAlive]) ∧
      next.builder = encoder.builder ∧ next.source = .running arrivals ∧
      next.finished = encoder.finished ∧ next.started = encoder.started ∧
      next.includeUsage = encoder.includeUsage := by
  cases started : encoder.started with
  | true =>
      refine ⟨{ encoder.drained with source := .running arrivals }, ?_, rfl, rfl, rfl, rfl, started, rfl⟩
      simp [turn, drained, source, started]
  | false =>
      refine ⟨{ encoder.drained with source := .running arrivals }.push ChunkBuilder.keepAlive, ?_, rfl,
        rfl, rfl, rfl, started, rfl⟩
      simp [turn, drained, source, started]

theorem turn_event (errors : Errors ε) {event : GenerationEvent} {arrivals : List (Arrival ε)}
    (source : encoder.source = .running (.item (.event event) :: arrivals)) :
    encoder.drained.turn errors =
      { encoder.drained with source := .running arrivals, started := true }.absorb event := by
  simp [turn, drained, source]

/-- A tick adds a comment unless an event has come before it. -/
theorem serves_tick {next : Encoder ε} {items : List (Item ε)} {frames : List Frame}
    (builder : next.builder = encoder.builder) (started : next.started = encoder.started)
    (asked : next.includeUsage = encoder.includeUsage) (served : Serves errors next items frames) :
    Serves errors encoder items
      ((if encoder.started then [] else [ChunkBuilder.keepAlive]) ++ frames) := by
  obtain ⟨comments, closing, rfl, only, silent, closed⟩ := served
  rw [builder]
  rw [asked] at closed
  rw [started] at silent
  cases fresh : encoder.started with
  | true => exact ⟨comments, closing, rfl, only, silent, closed⟩
  | false =>
      refine ⟨ChunkBuilder.keepAlive :: comments, closing, rfl, ?_, ?_, closed⟩
      · rw [List.forall_mem_cons]
        exact ⟨rfl, only⟩
      · intro late
        rw [fresh] at late
        cases late

/-- An event sends its delta chunk, and there are no comments behind it. -/
theorem serves_event {event : GenerationEvent} (plain : event.isFinished = false) {next : Encoder ε}
    {items : List (Item ε)} {frames : List Frame}
    (builder : next.builder = (deltaOf encoder.builder event).2) (started : next.started = true)
    (asked : next.includeUsage = encoder.includeUsage) (served : Serves errors next items frames) :
    Serves errors encoder (.event event :: items)
      ((deltaOf encoder.builder event).1.map .chunk ++ frames) := by
  obtain ⟨comments, closing, rfl, only, silent, closed⟩ := served
  rw [silent started, builder]
  rw [asked] at closed
  refine ⟨[], closing, ?_, by simp, fun _ => rfl, .event plain closed⟩
  simp [heard, plain, deltaChunks]

theorem measurable_cons {event : GenerationEvent} {events : List GenerationEvent} :
    Measurable (event :: events) ↔
      (∀ timings, event = .timings timings → measurable timings = true) ∧ Measurable events := by
  simp only [Measurable, List.mem_cons, or_imp, forall_and, eq_comm]

theorem heard_event {event : GenerationEvent} (plain : event.isFinished = false)
    (arrivals : List (Arrival ε)) :
    heard ((Arrival.item (.event event) :: arrivals).filterMap Arrival.item?) =
      event :: heard (arrivals.filterMap Arrival.item?) := by
  simp [Arrival.item?, heard, plain]

/-- A failure of the generation ends the stream. -/
theorem frames_failure (errors : Errors ε) (encoder : Encoder ε)
    (unfinished : encoder.finished = false) {error : ε} {arrivals : List (Arrival ε)}
    (source : encoder.source = .running (.item (.failure error) :: arrivals)) (fuel : Nat) :
    ∃ frames, encoder.frames errors (fuel + 2) = encoder.pending ++ frames ∧
      Serves errors encoder (.failure error :: arrivals.filterMap Arrival.item?) frames := by
  let failed := { encoder.drained with source := .running arrivals }
  have turned : encoder.drained.turn errors = some (failed.failWith (errors.envelope error)) := by
    simp [turn, drained, source, failed]
  refine ⟨_, ?_, [], _, rfl, by simp, fun _ => rfl,
    .failed encoder.builder error (arrivals.filterMap Arrival.item?)⟩
  rw [frames_turn unfinished turned, failWith_frames]
  rfl

/-- The last event of a generation ends the stream. -/
theorem frames_finish (errors : Errors ε) (encoder : Encoder ε)
    (unfinished : encoder.finished = false) {reason : FinishReason} {usage : Usage}
    {arrivals : List (Arrival ε)}
    (source : encoder.source = .running (.item (.event (.finished reason usage)) :: arrivals))
    (fuel : Nat) :
    ∃ frames, encoder.frames errors (fuel + 2) = encoder.pending ++ frames ∧
      Serves errors encoder (.event (.finished reason usage) :: arrivals.filterMap Arrival.item?)
        frames := by
  have turned := turn_event errors source
  let ended := { encoder.drained with
    source := .running arrivals
    started := true
    usage := some (UsageBody.ofUsage usage) }
  have unfinished' : ended.finished = false := unfinished
  refine ⟨ended.closingFrames reason, ?_, [], _, rfl, by simp, fun _ => rfl,
    .finished ended rfl rfl reason (arrivals.filterMap Arrival.item?)⟩
  rw [frames_turn unfinished turned, close_frames unfinished']
  rfl

/-- The events of a generation that can be recorded, with the timer among them. -/
theorem frames_running (errors : Errors ε) (encoder : Encoder ε)
    (unfinished : encoder.finished = false) {arrivals : List (Arrival ε)}
    (source : encoder.source = .running arrivals)
    (recorded : Measurable (heard (arrivals.filterMap Arrival.item?))) {fuel : Nat}
    (enough : arrivals.length < fuel) :
    ∃ frames, encoder.frames errors (fuel + 1) = encoder.pending ++ frames ∧
      Serves errors encoder (arrivals.filterMap Arrival.item?) frames := by
  induction arrivals generalizing encoder fuel with
  | nil =>
      have unfinished' : encoder.drained.finished = false := unfinished
      have turned : encoder.drained.turn errors = some (encoder.drained.close .length) := by
        simp [turn, drained, source]
      refine ⟨_, ?_, serves_nil⟩
      rw [frames_turn unfinished turned, close_frames unfinished']
      rfl
  | cons arrival arrivals ih =>
      obtain ⟨fuel, rfl⟩ := Nat.exists_eq_succ_of_ne_zero (Nat.ne_zero_of_lt enough)
      have enough' : arrivals.length < fuel := by
        rw [List.length_cons] at enough
        omega
      cases arrival with
      | tick =>
          obtain ⟨next, turned, pending, builder, source', finished, started, asked⟩ :=
            turn_tick errors source
          obtain ⟨frames, sent, served⟩ :=
            ih next (finished.trans unfinished) source' recorded enough'
          refine ⟨_, ?_, serves_tick builder started asked served⟩
          rw [frames_turn unfinished turned, sent, pending]
      | item next =>
          cases next with
          | failure error => exact frames_failure errors encoder unfinished source fuel
          | event event =>
              cases plain : event.isFinished with
              | true =>
                  cases event with
                  | finished reason usage =>
                      exact frames_finish errors encoder unfinished source fuel
                  | _ => cases plain
              | false =>
                  have turned := turn_event errors source
                  rw [heard_event plain, measurable_cons] at recorded
                  obtain ⟨recordable, recorded'⟩ := recorded
                  obtain ⟨next, absorbed, pending, builder, source', finished, started, asked⟩ :=
                    absorb_plain { encoder.drained with source := .running arrivals, started := true }
                      plain recordable
                  obtain ⟨frames, sent, served⟩ :=
                    ih next (finished.trans unfinished) source' recorded' enough'
                  refine ⟨_, ?_, serves_event plain builder started asked served⟩
                  rw [frames_turn unfinished (turned.trans absorbed), sent, pending]
                  rfl

theorem done_not_mem_deltas (builder : ChunkBuilder) (event : GenerationEvent) :
    .done ∉ (deltaOf builder event).1.map Frame.chunk := by
  intro member
  obtain ⟨chunk, -, same⟩ := List.mem_map.mp member
  cases same

/-- An event that cannot be recorded takes the stream down before `[DONE]`. -/
theorem frames_unrecorded (errors : Errors ε) (encoder : Encoder ε)
    (unfinished : encoder.finished = false) {arrivals : List (Arrival ε)}
    (source : encoder.source = .running arrivals)
    (unrecorded : ¬Measurable (heard (arrivals.filterMap Arrival.item?))) (fuel : Nat)
    (unsaid : .done ∉ encoder.pending) : .done ∉ encoder.frames errors fuel := by
  induction arrivals generalizing encoder fuel with
  | nil => exact absurd (fun _ member => absurd member List.not_mem_nil) unrecorded
  | cons arrival arrivals ih =>
      cases fuel with
      | zero => exact unsaid
      | succ fuel =>
          cases arrival with
          | tick =>
              obtain ⟨next, turned, pending, -, source', finished, -, -⟩ :=
                turn_tick errors source
              have unsaid' : .done ∉ next.pending := by
                rw [pending]
                cases encoder.started <;> simp [ChunkBuilder.keepAlive]
              have later := ih next (finished.trans unfinished) source' unrecorded fuel unsaid'
              rw [frames_turn unfinished turned, List.mem_append, not_or]
              exact ⟨unsaid, later⟩
          | item next =>
              cases next with
              | failure error =>
                  exact absurd (fun _ member => absurd member List.not_mem_nil) unrecorded
              | event event =>
                  have turned := turn_event errors source
                  cases plain : event.isFinished with
                  | true =>
                      apply absurd _ unrecorded
                      simp [Arrival.item?, heard, plain, Measurable]
                  | false =>
                      rw [heard_event plain, measurable_cons, not_and_or] at unrecorded
                      by_cases recordable : ∀ timings, event = .timings timings →
                          measurable timings = true
                      · obtain ⟨next, absorbed, pending, -, source', finished, -, -⟩ :=
                          absorb_plain
                            { encoder.drained with source := .running arrivals, started := true }
                            plain recordable
                        have unsaid' : .done ∉ next.pending := by
                          rw [pending]
                          exact done_not_mem_deltas encoder.builder event
                        have later := ih next (finished.trans unfinished) source'
                          (unrecorded.resolve_left (not_not_intro recordable)) fuel unsaid'
                        rw [frames_turn unfinished (turned.trans absorbed), List.mem_append, not_or]
                        exact ⟨unsaid, later⟩
                      · push Not at recordable
                        obtain ⟨timings, rfl, bad⟩ := recordable
                        have panicked : encoder.drained.turn errors = none :=
                          turned.trans (if_neg bad)
                        rw [frames_panic unfinished panicked]
                        exact unsaid

theorem frames_drained (unfinished : encoder.finished = false) (fuel : Nat) :
    encoder.frames errors (fuel + 1) =
      encoder.pending ++ encoder.drained.frames errors (fuel + 1) := by
  have go : ¬encoder.finished = true := by simp [unfinished]
  have go' : ¬encoder.drained.finished = true := go
  rw [frames, frames, if_neg go, if_neg go']
  rfl

/-- While the request waits it is sent one comment for each notice. -/
theorem frames_notices (errors : Errors ε) (encoder : Encoder ε)
    (unfinished : encoder.finished = false) {notices : List Notice}
    {ending : QueueEnd ε} (source : encoder.source = .queued notices ending) (fuel : Nat) :
    ∃ comments, (∀ frame ∈ comments, isComment frame = true) ∧
      encoder.frames errors (notices.length + (fuel + 1)) = encoder.pending ++ (comments ++
        { encoder.drained with source := .queued [] ending }.frames errors (fuel + 1)) := by
  induction notices generalizing encoder with
  | nil =>
      refine ⟨[], by simp, ?_⟩
      rw [List.length_nil, Nat.zero_add, frames_drained unfinished]
      have same : { encoder.drained with source := .queued [] ending } = encoder.drained := by
        rw [← source]
        rfl
      rw [same, List.nil_append]
  | cons notice notices ih =>
      let next := { encoder.drained with source := .queued notices ending }.push
        (ChunkBuilder.queued (notice.position.getD 0) notice.waited)
      have turned : encoder.drained.turn errors = some next := by
        simp [turn, waitForASlot, drained, source, next]
      have unfinished' : next.finished = false := unfinished
      obtain ⟨comments, only, sent⟩ := ih next unfinished' rfl
      refine ⟨ChunkBuilder.queued (notice.position.getD 0) notice.waited :: comments, ?_, ?_⟩
      · rw [List.forall_mem_cons]
        exact ⟨rfl, only⟩
      · rw [List.length_cons, Nat.add_right_comm, ← Nat.add_assoc, frames_turn unfinished turned,
          Nat.add_assoc, sent]
        rfl

end Encoder

theorem deltaOf_open (builder : ChunkBuilder) (event : GenerationEvent) :
    ∀ chunk ∈ (deltaOf builder event).1, chunk.closes = false := by
  cases event <;> simp [deltaOf, ChunkBuilder.content, ChunkBuilder.reasoning, ChunkBuilder.toolCall,
    ChunkBuilder.deltaChunk, ChunkBuilder.chunk, ChatCompletionChunk.closes]

theorem deltaChunks_open (builder : ChunkBuilder) (events : List GenerationEvent) :
    ∀ chunk ∈ deltaChunks builder events, chunk.closes = false := by
  induction events generalizing builder with
  | nil => simp [deltaChunks]
  | cons event events ih =>
      rw [deltaChunks, List.forall_mem_append]
      exact ⟨deltaOf_open builder event, ih _⟩

theorem InOrder.done_mem {builder : ChunkBuilder} {includeUsage : Bool}
    {events : List GenerationEvent} {failure : Option ErrorBody} {frames : List Frame}
    (inOrder : InOrder builder includeUsage events failure frames) : .done ∈ frames := by
  obtain ⟨comments, closing, rfl, -, -, -, last, usage, rfl, -⟩ := inOrder
  simp

/-- The frames behind the role chunk and the comments of the queue. -/
theorem inOrder_of_serves {errors : Errors ε} {encoder : Encoder ε} {items : List (Item ε)}
    {comments frames : List Frame} (only : ∀ frame ∈ comments, isComment frame = true)
    (served : encoder.Serves errors items frames) :
    InOrder encoder.builder encoder.includeUsage (heard items)
      ((failureOf items).map errors.envelope)
      (.chunk encoder.builder.role :: (comments ++ frames)) := by
  obtain ⟨more, closing, rfl, only', -, closed⟩ := served
  refine ⟨comments ++ more, closing, by simp, rfl, ?_, deltaChunks_open _ _, closed.closing⟩
  rw [List.forall_mem_append]
  exact ⟨only, only'⟩

/-- A failure in the queue, behind the comments. -/
theorem inOrder_of_failure {comments : List Frame}
    (only : ∀ frame ∈ comments, isComment frame = true) (builder : ChunkBuilder)
    (includeUsage : Bool) (envelope : ErrorBody) :
    InOrder builder includeUsage [] (some envelope)
      (.chunk builder.role :: (comments ++ [.chunk (builder.error envelope), .done])) :=
  ⟨comments, _, by simp [deltaChunks], rfl, only, by simp [deltaChunks],
    Encoder.closing_failWith envelope builder includeUsage⟩

section Streams

variable (errors : Errors ε) (builder : ChunkBuilder) (includeUsage : Bool)

/-- The encoder that a response starts with. -/
def opening (source : Source ε) : Encoder ε :=
  { source, builder, pending := [.chunk builder.role], includeUsage, started := false,
    finished := false, usage := none, timings := none }

theorem encodeSource_running {arrivals : List (Arrival ε)}
    (recorded : Measurable (heard (arrivals.filterMap Arrival.item?))) :
    InOrder builder includeUsage (heard (arrivals.filterMap Arrival.item?))
      ((failureOf (arrivals.filterMap Arrival.item?)).map errors.envelope)
      (encodeSource errors (.running arrivals) builder includeUsage) := by
  obtain ⟨frames, sent, served⟩ := Encoder.frames_running errors
    (opening builder includeUsage (.running arrivals)) rfl rfl recorded
    (Nat.lt_succ_self arrivals.length)
  have start : encodeSource errors (.running arrivals) builder includeUsage =
      .chunk builder.role :: ([] ++ frames) := sent
  rw [start]
  exact inOrder_of_serves (by simp) served

/-- The encoder of a queued request when its wait is over. -/
def atEnd (ending : QueueEnd ε) : Encoder ε :=
  { opening builder includeUsage (.queued [] ending) with pending := [] }

theorem encodeSource_queued (notices : List Notice) (ending : QueueEnd ε) :
    ∃ comments, (∀ frame ∈ comments, isComment frame = true) ∧
      encodeSource errors (.queued notices ending) builder includeUsage =
        .chunk builder.role :: (comments ++ (atEnd builder includeUsage ending).frames errors
          ((Source.queued [] ending).size + 1)) := by
  obtain ⟨comments, only, sent⟩ := Encoder.frames_notices errors
    (opening builder includeUsage (.queued notices ending)) rfl rfl (Source.queued [] ending).size
  refine ⟨comments, only, ?_⟩
  have size : (Source.queued notices ending).size + 1 =
      notices.length + ((Source.queued [] ending).size + 1) := by
    rcases ending with (error | arrivals) | _ | _
    · rw [Source.size, Source.size, List.length_nil] <;> simp
    · rw [Source.size, Source.size, List.length_nil]
      omega
    · rw [Source.size, Source.size, List.length_nil] <;> simp
    · rw [Source.size, Source.size, List.length_nil] <;> simp
  rw [encodeSource, size]
  exact sent

/-- A request that fails while it is queued. -/
theorem encodeSource_refused (notices : List Notice) {ending : QueueEnd ε} {envelope : ErrorBody}
    (refused : (atEnd builder includeUsage ending).drained.turn errors =
      some ({ atEnd builder includeUsage ending with source := .inTransit }.failWith envelope)) :
    InOrder builder includeUsage [] (some envelope)
      (encodeSource errors (.queued notices ending) builder includeUsage) := by
  obtain ⟨comments, only, sent⟩ := encodeSource_queued errors builder includeUsage notices ending
  rw [sent, Encoder.frames_turn rfl refused, Encoder.failWith_frames]
  exact inOrder_of_failure only builder includeUsage envelope

/-- A request that has waited for its slot goes on as one that had it at once. -/
def admitted (arrivals : List (Arrival ε)) : Encoder ε :=
  { opening builder includeUsage (.running arrivals) with pending := [] }

theorem encodeSource_admitted (notices : List Notice) (arrivals : List (Arrival ε)) :
    ∃ comments, (∀ frame ∈ comments, isComment frame = true) ∧
      encodeSource errors (.queued notices (.granted (.ok arrivals))) builder includeUsage =
        .chunk builder.role :: (comments ++
          (admitted builder includeUsage arrivals).frames errors (arrivals.length + 1 + 1)) := by
  obtain ⟨comments, only, sent⟩ :=
    encodeSource_queued errors builder includeUsage notices (.granted (.ok arrivals))
  have turned : (atEnd builder includeUsage (.granted (.ok arrivals))).drained.turn errors =
      some (admitted builder includeUsage arrivals) := rfl
  have size : (Source.queued [] (.granted (.ok arrivals))).size = arrivals.length + 1 + 1 := by
    simp [Source.size]
  refine ⟨comments, only, ?_⟩
  rw [sent, Encoder.frames_turn rfl turned, size]
  rfl

theorem encodeSource_granted (notices : List Notice) {arrivals : List (Arrival ε)}
    (recorded : Measurable (heard (arrivals.filterMap Arrival.item?))) :
    InOrder builder includeUsage (heard (arrivals.filterMap Arrival.item?))
      ((failureOf (arrivals.filterMap Arrival.item?)).map errors.envelope)
      (encodeSource errors (.queued notices (.granted (.ok arrivals))) builder includeUsage) := by
  obtain ⟨comments, only, sent⟩ :=
    encodeSource_admitted errors builder includeUsage notices arrivals
  obtain ⟨frames, served, inside⟩ := Encoder.frames_running errors
    (admitted builder includeUsage arrivals) rfl rfl recorded (Nat.lt_succ_self arrivals.length)
  rw [sent, served]
  exact inOrder_of_serves only inside

theorem encodeSource_inTransit :
    InOrder builder includeUsage [] none
      (encodeSource errors .inTransit builder includeUsage) := by
  let closed := { opening builder includeUsage (.inTransit : Source ε) with pending := [] }
  have turned : (opening builder includeUsage .inTransit).drained.turn errors =
      some (closed.close .error) := rfl
  have unfinished : closed.finished = false := rfl
  refine ⟨[], closed.closingFrames .error, ?_, rfl, by simp, by simp [deltaChunks],
    Encoder.closing_closingFrames .error⟩
  have started : (opening builder includeUsage (.inTransit : Source ε)).finished = false := rfl
  exact (Encoder.frames_turn started turned 1).trans
    (congrArg _ (Encoder.close_frames unfinished .error 1))

theorem encodeSource_unrecorded {source : Source ε} (unrecorded : ¬Measurable (heard source.items)) :
    .done ∉ encodeSource errors source builder includeUsage := by
  have nothing : Measurable [] := fun _ member => absurd member List.not_mem_nil
  cases source with
  | inTransit => exact absurd nothing unrecorded
  | running arrivals =>
      exact Encoder.frames_unrecorded errors (opening builder includeUsage (.running arrivals)) rfl rfl
        unrecorded _ (by simp [opening])
  | queued notices ending =>
      rcases ending with (error | arrivals) | _ | _
      · exact absurd nothing unrecorded
      · obtain ⟨comments, only, sent⟩ :=
          encodeSource_admitted errors builder includeUsage notices arrivals
        have silent : .done ∉ comments := fun member => absurd (only .done member) Bool.false_ne_true
        have later := Encoder.frames_unrecorded errors (admitted builder includeUsage arrivals) rfl rfl
          unrecorded (arrivals.length + 1 + 1) List.not_mem_nil
        rw [sent, List.mem_cons, List.mem_append, not_or, not_or]
        exact ⟨nofun, silent, later⟩
      · exact absurd nothing unrecorded
      · exact absurd nothing unrecorded

/-- The frames of a streamed reply are in order, whatever the queue, the generation and the timer do,
exactly if every reading of the engine's clock before the end can be recorded. -/
theorem client_frames_in_order_iff (source : Source ε) :
    InOrder builder includeUsage (heard source.items) (source.failure errors)
        (encodeSource errors source builder includeUsage) ↔
      Measurable (heard source.items) := by
  constructor
  · intro inOrder
    by_contra unrecorded
    exact encodeSource_unrecorded errors builder includeUsage unrecorded inOrder.done_mem
  · intro recorded
    cases source with
    | inTransit => exact encodeSource_inTransit errors builder includeUsage
    | running arrivals => exact encodeSource_running errors builder includeUsage recorded
    | queued notices ending =>
        rcases ending with (error | arrivals) | _ | _
        · exact encodeSource_refused errors builder includeUsage notices rfl
        · exact encodeSource_granted errors builder includeUsage notices recorded
        · exact encodeSource_refused errors builder includeUsage notices rfl
        · exact encodeSource_refused errors builder includeUsage notices rfl

end Streams

/-- A reading of the engine's clock below zero. -/
def setBack : Timings :=
  { promptN := 1, promptMs := -1.0, predictedN := 0, predictedMs := 0.0, cachedN := 0 }

/-- A generation that finishes behind such a reading. -/
def clockSetBack : List (Arrival Unit) :=
  [.item (.event (.timings setBack)), .item (.event (.finished .stop Usage.zero))]

def sampleErrors : Errors Unit :=
  { envelope := fun _ => Encoder.queueTimeoutEnvelope, cancelled := () }

def sampleBuilder : ChunkBuilder :=
  { id := ['c'], model := ['m'], created := 0, announcedToolCalls := [] }

/-- The recorded duration panics, and the stream stops without a finish chunk and without `[DONE]`. -/
theorem unmeasurable_timings_cut_the_stream :
    ¬InOrder sampleBuilder true (heard (Source.running clockSetBack).items)
      ((Source.running clockSetBack).failure sampleErrors)
      (encodeSource sampleErrors (.running clockSetBack) sampleBuilder true) := by
  intro inOrder
  have bad : measurable setBack = false := by
    decide +kernel
  have sent : encodeSource sampleErrors (.running clockSetBack) sampleBuilder true =
      [.chunk sampleBuilder.role] := by
    simp [encodeSource, clockSetBack, Encoder.frames, Encoder.turn, Encoder.drained, Encoder.absorb,
      bad]
  have done := inOrder.done_mem
  rw [sent] at done
  simp at done

end Lightweight.Gateway
