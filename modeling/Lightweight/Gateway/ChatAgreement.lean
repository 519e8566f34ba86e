import Lightweight.Gateway.Aggregate
import Lightweight.Gateway.StreamGrammar

/-! The streamed and the aggregated reply to one chat completion. A client of the stream adds up its
chunks; what it comes to is compared with the reply in one piece, tool call by tool call. -/

namespace Lightweight.Gateway

open Lightweight.Inference Lightweight.Api

/-- A tool call as a client of the stream adds it up: of the ids and of the names the first one each,
the arguments one after the other. -/
structure ClientCall where
  id : Option (List Char)
  name : Option (List Char)
  arguments : List Char
deriving DecidableEq, Repr

def ClientCall.empty : ClientCall := { id := none, name := none, arguments := [] }

def ClientCall.hear (call : ClientCall) (delta : ToolCallDelta) : ClientCall :=
  { id := call.id.or delta.id
    name := call.name.or (delta.function.bind FunctionDelta.name)
    arguments := call.arguments ++ (delta.function.bind FunctionDelta.arguments).getD [] }

structure Client where
  content : List Char
  reasoning : List Char
  toolCalls : List (Nat × ClientCall)
  finishReason : Option (List Char)
  usage : Option UsageBody
deriving DecidableEq, Repr

namespace Client

def start : Client :=
  { content := [], reasoning := [], toolCalls := [], finishReason := none, usage := none }

def hearCall (calls : List (Nat × ClientCall)) (delta : ToolCallDelta) : List (Nat × ClientCall) :=
  Gather.modify ClientCall.empty delta.index (fun call => call.hear delta) calls

def hearChoice (client : Client) (choice : ChunkChoice) : Client :=
  { client with
    content := client.content ++ choice.delta.content.getD []
    reasoning := client.reasoning ++ choice.delta.reasoningContent.getD []
    toolCalls := (choice.delta.toolCalls.getD []).foldl hearCall client.toolCalls
    finishReason := choice.finishReason.or client.finishReason }

/-- Comments and the end marker are nothing to the client. -/
def hear (client : Client) : Frame → Client
  | .chunk chunk =>
      { chunk.choices.foldl hearChoice client with usage := chunk.usage.or client.usage }
  | _ => client

end Client

/-- What both replies are compared in. -/
structure Reply where
  content : List Char
  reasoning : List Char
  toolCalls : List PartialToolCall
  finishReason : Option (List Char)
  usage : Option UsageBody
deriving DecidableEq, Repr

def ClientCall.complete (call : ClientCall) : PartialToolCall :=
  { id := call.id.getD [], name := call.name.getD [], arguments := call.arguments }

def Client.reply (client : Client) : Reply :=
  { content := client.content
    reasoning := client.reasoning
    toolCalls := client.toolCalls.map fun entry => entry.2.complete
    finishReason := client.finishReason
    usage := client.usage }

/-- The reply that the frames of a stream add up to. -/
def streamedReply (frames : List Frame) : Reply :=
  (frames.foldl Client.hear Client.start).reply

/-- The reply of an aggregated response, with the usage as far as the stream was asked for it. -/
def ChatCompletionResponse.reply (response : ChatCompletionResponse) (includeUsage : Bool) :
    Option Reply :=
  response.choices.head?.map fun choice =>
    { content := choice.message.content
      reasoning := choice.message.reasoningContent.getD []
      toolCalls := choice.message.toolCalls.map fun call =>
        { id := call.id, name := call.function.name, arguments := call.function.arguments }
      finishReason := some choice.finishReason
      usage := if includeUsage then some response.usage else none }

/-! ### The events -/

def contentOf (events : List GenerationEvent) : List Char :=
  events.flatMap fun event => if let .contentDelta text := event then text else []

def reasoningOf (events : List GenerationEvent) : List Char :=
  events.flatMap fun event => if let .reasoningDelta text := event then text else []

def callOf : GenerationEvent → Option (Nat × CallPart)
  | .toolCallDelta index id name arguments => some (index, { id, name, arguments })
  | _ => none

def callsOf (events : List GenerationEvent) : List (Nat × CallPart) :=
  events.filterMap callOf

/-- The parts up to the first one that has an id. -/
def upToId : List CallPart → List CallPart
  | [] => []
  | part :: parts => part :: if part.id.isSome then [] else upToId parts

def idsOf (parts : List CallPart) : List (List Char) := parts.filterMap CallPart.id

def namesOf (parts : List CallPart) : List (List Char) := parts.filterMap CallPart.name

def argumentsOf (parts : List CallPart) : List Char :=
  parts.flatMap fun part => part.arguments.getD []

/-- The parts of one tool call say the same to both replies: the last id is the first, and the last
name is the first that came no later than the first id. -/
def SameCall (parts : List CallPart) : Prop :=
  (idsOf parts).head?.getD [] = (idsOf parts).getLast?.getD [] ∧
    (namesOf (upToId parts)).head?.getD [] = (namesOf parts).getLast?.getD []

instance (parts : List CallPart) : Decidable (SameCall parts) :=
  inferInstanceAs (Decidable ((idsOf parts).head?.getD [] = (idsOf parts).getLast?.getD [] ∧
    (namesOf (upToId parts)).head?.getD [] = (namesOf parts).getLast?.getD []))

/-! ### One tool call -/

/-- What is sent of the parts of one call, once it is announced or before. -/
def sentAt (index : Nat) : Bool → List CallPart → List ToolCallDelta
  | _, [] => []
  | announced, part :: parts =>
      ChunkBuilder.callDelta (!announced) index part.id part.name part.arguments ::
        sentAt index (announced || part.id.isSome) parts

theorem hear_callDelta (call : ClientCall) (announced : Bool) (index : Nat) (part : CallPart) :
    call.hear (ChunkBuilder.callDelta (!announced) index part.id part.name part.arguments) =
      { id := call.id.or (if announced then none else part.id)
        name := call.name.or (if announced then none else part.name)
        arguments := call.arguments ++ part.arguments.getD [] } := by
  obtain ⟨id, name, arguments⟩ := part
  cases announced <;> cases id <;> cases name <;> cases arguments <;>
    simp [ClientCall.hear, ChunkBuilder.callDelta]

theorem foldl_assign (parts : List CallPart) (call : PartialToolCall) :
    parts.foldl PartialToolCall.assign call =
      { id := (idsOf parts).getLast?.getD call.id
        name := (namesOf parts).getLast?.getD call.name
        arguments := call.arguments ++ argumentsOf parts } := by
  induction parts generalizing call with
  | nil => simp [idsOf, namesOf, argumentsOf]
  | cons part parts ih =>
      obtain ⟨id, name, arguments⟩ := part
      rw [List.foldl_cons, ih]
      cases id <;> cases name <;>
        simp [idsOf, namesOf, argumentsOf, PartialToolCall.assign, List.getLast?_cons]

theorem foldl_hear_announced (index : Nat) (parts : List CallPart) (call : ClientCall) :
    (sentAt index true parts).foldl ClientCall.hear call =
      { call with arguments := call.arguments ++ argumentsOf parts } := by
  induction parts generalizing call with
  | nil => simp [sentAt, argumentsOf]
  | cons part parts ih =>
      rw [sentAt, List.foldl_cons, hear_callDelta, Bool.true_or, ih]
      simp [argumentsOf]

/-- Of a call that is not announced yet the client takes the first id, and the first name up to it. -/
theorem foldl_hear (index : Nat) (parts : List CallPart) (call : ClientCall) (unnamed : call.id = none) :
    (sentAt index false parts).foldl ClientCall.hear call =
      { id := (idsOf parts).head?
        name := call.name.or (namesOf (upToId parts)).head?
        arguments := call.arguments ++ argumentsOf parts } := by
  induction parts generalizing call with
  | nil =>
      obtain ⟨id, name, arguments⟩ := call
      cases unnamed
      simp [sentAt, idsOf, namesOf, upToId, argumentsOf]
  | cons part parts ih =>
      obtain ⟨id, name, arguments⟩ := part
      rw [sentAt, List.foldl_cons, hear_callDelta, Bool.false_or]
      cases id with
      | none =>
          rw [Option.isSome_none, ih _ (by simp [unnamed])]
          cases name <;> simp [idsOf, namesOf, upToId, argumentsOf]
      | some id =>
          rw [Option.isSome_some, foldl_hear_announced]
          cases name <;> simp [idsOf, namesOf, upToId, argumentsOf, unnamed]

/-- Both replies have the same tool call exactly if its parts say the same to both. -/
theorem complete_eq_assign_iff (index : Nat) (parts : List CallPart) :
    ((sentAt index false parts).foldl ClientCall.hear ClientCall.empty).complete =
        parts.foldl PartialToolCall.assign PartialToolCall.empty ↔
      SameCall parts := by
  rw [foldl_hear index parts _ rfl, foldl_assign]
  simp [ClientCall.complete, ClientCall.empty, PartialToolCall.empty, SameCall]

/-! ### The stream -/

/-- The tool-call deltas that are sent for the events. -/
def sentCalls (builder : ChunkBuilder) : List GenerationEvent → List (Nat × ToolCallDelta)
  | [] => []
  | event :: events =>
      ((callOf event).map fun call => (call.1, ChunkBuilder.callDelta
        (!builder.announcedToolCalls.contains call.1) call.1 call.2.id call.2.name
        call.2.arguments)).toList ++ sentCalls (deltaOf builder event).2 events

theorem announced_toolCall (builder : ChunkBuilder) (index other : Nat)
    (id name arguments : Option (List Char)) :
    (builder.toolCall other id name arguments).2.announcedToolCalls.contains index =
      (builder.announcedToolCalls.contains index || (index == other && id.isSome)) := by
  cases seen : builder.announcedToolCalls.contains other <;> cases id <;>
    simp only [ChunkBuilder.toolCall, ChunkBuilder.callDelta, seen, Bool.not_true, Bool.not_false,
      if_true, Bool.false_eq_true, if_false, Option.isSome_none, Option.isSome_some, Bool.and_false,
      Bool.or_false, Bool.and_true]
  · by_cases same : index = other <;> simp [same]
  · -- an index that is announced already stays so
    by_cases same : index = other
    · rw [same, seen, Bool.true_or]
    · simp [same]

/-- Each index is announced by its own first id. -/
theorem updatesAt_sentCalls (index : Nat) (builder : ChunkBuilder) (events : List GenerationEvent) :
    Gather.updatesAt index (sentCalls builder events) =
      sentAt index (builder.announcedToolCalls.contains index)
        (Gather.updatesAt index (callsOf events)) := by
  induction events generalizing builder with
  | nil => rfl
  | cons event events ih =>
      cases event with
      | toolCallDelta other id name arguments =>
          have later := ih (builder.toolCall other id name arguments).2
          rw [announced_toolCall] at later
          by_cases same : other = index
          · subst same
            rw [beq_self_eq_true, Bool.true_and] at later
            simp only [Gather.updatesAt] at later
            simp [sentCalls, callsOf, callOf, Gather.updatesAt, deltaOf, sentAt, later]
          · have apart : (index == other) = false := by
              simpa using fun equal => same equal.symm
            rw [apart, Bool.false_and, Bool.or_false] at later
            simp only [Gather.updatesAt] at later
            simp [sentCalls, callsOf, callOf, Gather.updatesAt, deltaOf, same, later]
      | _ =>
          rw [sentCalls]
          exact ih builder

theorem map_fst_sentCalls (builder : ChunkBuilder) (events : List GenerationEvent) :
    (sentCalls builder events).map Prod.fst = (callsOf events).map Prod.fst := by
  induction events generalizing builder with
  | nil => rfl
  | cons event events ih =>
      rw [sentCalls, List.map_append, ih]
      cases event <;> simp [callsOf, List.filterMap_cons, callOf]

theorem sentCalls_index (builder : ChunkBuilder) (events : List GenerationEvent) :
    ∀ call ∈ sentCalls builder events, call.2.index = call.1 := by
  induction events generalizing builder with
  | nil => simp [sentCalls]
  | cons event events ih =>
      rw [sentCalls, List.forall_mem_append]
      refine ⟨?_, ih _⟩
      cases event <;> simp [callOf, ChunkBuilder.callDelta]

/-- What the delta chunks of the events add to a client. -/
theorem foldl_deltaChunks (builder : ChunkBuilder) (events : List GenerationEvent) (client : Client) :
    ((deltaChunks builder events).map Frame.chunk).foldl Client.hear client =
      { client with
        content := client.content ++ contentOf events
        reasoning := client.reasoning ++ reasoningOf events
        toolCalls := ((sentCalls builder events).map Prod.snd).foldl Client.hearCall
          client.toolCalls } := by
  induction events generalizing builder client with
  | nil => simp [deltaChunks, contentOf, reasoningOf, sentCalls]
  | cons event events ih =>
      rw [deltaChunks, List.map_append, List.foldl_append, ih]
      cases event <;>
        simp [deltaOf, sentCalls, callOf, contentOf, reasoningOf, Client.hear, Client.hearChoice,
          ChunkBuilder.content, ChunkBuilder.reasoning, ChunkBuilder.toolCall, ChunkBuilder.deltaChunk,
          ChunkBuilder.chunk, Delta.empty]

/-- The tool calls of a client that has heard all deltas. -/
theorem heardCalls_eq (builder : ChunkBuilder) (events : List GenerationEvent) :
    ((sentCalls builder events).map Prod.snd).foldl Client.hearCall [] =
      Gather.gather ClientCall.empty ClientCall.hear (sentCalls builder events) := by
  rw [Gather.gather, List.foldl_map]
  apply List.foldl_ext
  intro calls call member
  rw [Client.hearCall, sentCalls_index builder events call member]

/-- Both replies list the same tool calls exactly if at every index the parts of the call say the same
to both. -/
theorem toolCalls_eq_iff {builder : ChunkBuilder} (fresh : builder.announcedToolCalls = [])
    (events : List GenerationEvent) :
    (Gather.gather ClientCall.empty ClientCall.hear (sentCalls builder events)).map
          (fun entry => entry.2.complete) =
        (Gather.gather PartialToolCall.empty PartialToolCall.assign (callsOf events)).map Prod.snd ↔
      ∀ index, SameCall (Gather.updatesAt index (callsOf events)) := by
  have keys := Gather.keysOf_congr (map_fst_sentCalls builder events)
  rw [Gather.gather_eq, Gather.gather_eq, keys, List.map_map, List.map_map, List.map_inj_left]
  have same (index : Nat) :
      ((Gather.updatesAt index (sentCalls builder events)).foldl ClientCall.hear
          ClientCall.empty).complete =
        (Gather.updatesAt index (callsOf events)).foldl PartialToolCall.assign
          PartialToolCall.empty ↔ SameCall (Gather.updatesAt index (callsOf events)) := by
    rw [updatesAt_sentCalls, fresh, List.contains_nil]
    exact complete_eq_assign_iff index _
  constructor
  · intro listed index
    by_cases called : index ∈ Gather.keysOf (callsOf events)
    · exact (same index).mp (listed index called)
    · rw [Gather.mem_keysOf, not_not] at called
      rw [called]
      exact ⟨rfl, rfl⟩
  · exact fun all index _ => (same index).mpr (all index)

/-! ### The aggregated reply -/

variable {ε : Type} (errors : Errors ε) (id model : List Char)

/-- What the events have added to the collected parts. -/
structure Collects (collected next : Collected) (events : List GenerationEvent) : Prop where
  content : next.content = collected.content ++ contentOf events
  reasoning : next.reasoning = collected.reasoning ++ reasoningOf events
  toolCalls : next.toolCalls = (callsOf events).foldl (fun calls call =>
    Gather.modify PartialToolCall.empty call.1 (fun value => value.assign call.2) calls)
    collected.toolCalls

theorem Collects.cons {collected next last : Collected} {event : GenerationEvent}
    {events : List GenerationEvent} (first : Collects collected next [event])
    (later : Collects next last events) : Collects collected last (event :: events) := by
  constructor
  · rw [later.content, first.content]
    simp [contentOf]
  · rw [later.reasoning, first.reasoning]
    simp [reasoningOf]
  · rw [later.toolCalls, first.toolCalls, ← List.foldl_append, callsOf, callsOf, callsOf,
      ← List.filterMap_append, List.singleton_append]

theorem absorb_collects (collected : Collected) {event : GenerationEvent}
    (plain : event.isFinished = false)
    (recorded : ∀ timings, event = .timings timings → measurable timings = true) :
    ∃ next, collected.absorb event = some next ∧ Collects collected next [event] := by
  cases event with
  | finished reason usage => cases plain
  | timings measured =>
      exact ⟨_, if_pos (recorded measured rfl), by simp [contentOf], by simp [reasoningOf], rfl⟩
  | _ => exact ⟨_, rfl, by simp [contentOf], by simp [reasoningOf], rfl⟩

theorem aggregateFrom_events {events : List GenerationEvent}
    (plain : ∀ event ∈ events, event.isFinished = false) (recorded : Measurable events)
    (collected : Collected) (items : List (Item ε)) :
    ∃ next, aggregateFrom errors id model collected (events.map .event ++ items) =
        aggregateFrom errors id model next items ∧ Collects collected next events := by
  induction events generalizing collected with
  | nil => exact ⟨collected, rfl, by simp [contentOf], by simp [reasoningOf], rfl⟩
  | cons event events ih =>
      rw [List.forall_mem_cons] at plain
      rw [Encoder.measurable_cons] at recorded
      obtain ⟨next, absorbed, first⟩ := absorb_collects collected plain.1 recorded.1
      obtain ⟨last, rest, later⟩ := ih plain.2 recorded.2 next
      refine ⟨last, ?_, first.cons later⟩
      rw [List.map_cons, List.cons_append, aggregateFrom, absorbed]
      exact rest

theorem aggregateFrom_unrecorded {events : List GenerationEvent}
    (plain : ∀ event ∈ events, event.isFinished = false) (unrecorded : ¬Measurable events)
    (collected : Collected) (items : List (Item ε)) :
    aggregateFrom errors id model collected (events.map .event ++ items) = none := by
  induction events generalizing collected with
  | nil => exact absurd (fun _ member => absurd member List.not_mem_nil) unrecorded
  | cons event events ih =>
      rw [List.forall_mem_cons] at plain
      rw [Encoder.measurable_cons, not_and_or] at unrecorded
      rw [List.map_cons, List.cons_append, aggregateFrom]
      by_cases recordable : ∀ timings, event = .timings timings → measurable timings = true
      · obtain ⟨next, absorbed, -⟩ := absorb_collects collected plain.1 recordable
        rw [absorbed]
        exact ih plain.2 (unrecorded.resolve_left (not_not_intro recordable)) next
      · push Not at recordable
        obtain ⟨timings, rfl, bad⟩ := recordable
        have panicked : collected.absorb (.timings timings) = none := if_neg bad
        rw [panicked]

/-! ### The streamed reply -/

/-- The items of a generation that finishes. -/
def terminated (events : List GenerationEvent) (reason : FinishReason) (usage : Usage) :
    List (Item ε) :=
  events.map .event ++ [.event (.finished reason usage)]

variable {events : List GenerationEvent} {reason : FinishReason} {usage : Usage}

theorem heard_terminated (plain : ∀ event ∈ events, event.isFinished = false) :
    heard (terminated events reason usage : List (Item ε)) = events := by
  induction events with
  | nil => rfl
  | cons event events ih =>
      rw [List.forall_mem_cons] at plain
      have later := ih plain.2
      rw [terminated] at later
      rw [terminated, List.map_cons, List.cons_append, heard, plain.1, if_neg Bool.false_ne_true, later]

variable {errors} in
theorem ends_terminated {asked : Bool} {closing : List Frame}
    (plain : ∀ event ∈ events, event.isFinished = false)
    (ends : Encoder.Ends errors asked (terminated events reason usage) closing) :
    ∃ last : Encoder ε, last.includeUsage = asked ∧
      last.usage = some (UsageBody.ofUsage usage) ∧ closing = last.closingFrames reason := by
  induction events with
  | nil =>
      cases ends with
      | finished last asks counted reason items => exact ⟨last, asks, counted, rfl⟩
      | event wrong later => cases wrong
  | cons event events ih =>
      rw [List.forall_mem_cons] at plain
      cases ends with
      | finished last asks counted reason items => cases plain.1
      | event _ later => exact ih plain.2 later

theorem foldl_comments {comments : List Frame} (only : ∀ frame ∈ comments, isComment frame = true)
    (client : Client) : comments.foldl Client.hear client = client := by
  induction comments with
  | nil => rfl
  | cons frame comments ih =>
      rw [List.forall_mem_cons] at only
      cases frame with
      | comment text => exact ih only.2
      | chunk chunk => cases only.1
      | done => cases only.1

theorem foldl_closingFrames (last : Encoder ε) (counted : last.usage = some (UsageBody.ofUsage usage))
    (client : Client) :
    (last.closingFrames reason).foldl Client.hear client =
      { client with
        finishReason := some reason.asStr
        usage := if last.includeUsage then some (UsageBody.ofUsage usage) else client.usage } := by
  cases asked : last.includeUsage <;>
    simp [Encoder.closingFrames, asked, counted, Client.hear, Client.hearChoice, ChunkBuilder.finish,
      ChunkBuilder.usage, ChunkBuilder.chunk, Delta.empty]

/-- What the stream of a generation adds up to. -/
theorem streamedReply_encode {arrivals : List (Arrival ε)} {builder : ChunkBuilder}
    {includeUsage : Bool} (plain : ∀ event ∈ events, event.isFinished = false)
    (items : arrivals.filterMap Arrival.item? = terminated events reason usage)
    (recorded : Measurable events) :
    streamedReply (encode errors arrivals builder includeUsage) =
      { content := contentOf events
        reasoning := reasoningOf events
        toolCalls := (Gather.gather ClientCall.empty ClientCall.hear
          (sentCalls builder events)).map fun entry => entry.2.complete
        finishReason := some reason.asStr
        usage := if includeUsage then some (UsageBody.ofUsage usage) else none } := by
  have same : heard (arrivals.filterMap Arrival.item?) = events := by
    rw [items, heard_terminated plain]
  have start := Encoder.frames_running errors (opening builder includeUsage (.running arrivals)) rfl rfl
    (same.symm ▸ recorded) (Nat.lt_succ_self arrivals.length)
  obtain ⟨frames, sent, comments, closing, rfl, only, -, ends⟩ := start
  rw [items] at ends
  obtain ⟨last, asks, counted, rfl⟩ := ends_terminated plain ends
  have frames : encode errors arrivals builder includeUsage =
      [.chunk builder.role] ++ (comments ++
        (deltaChunks builder events).map .chunk ++ last.closingFrames reason) := by
    rw [← same]
    exact sent
  have role : Client.start.hear (.chunk builder.role) = Client.start := rfl
  have asks' : last.includeUsage = includeUsage := asks
  rw [streamedReply, frames, List.foldl_append, List.foldl_append, List.foldl_append,
    List.foldl_cons, List.foldl_nil, role, foldl_comments only, foldl_deltaChunks,
    foldl_closingFrames last counted, asks']
  simp [Client.reply, Client.start, heardCalls_eq]

theorem aggregate_terminated (plain : ∀ event ∈ events, event.isFinished = false)
    (recorded : Measurable events) (reason : FinishReason) (usage : Usage) (includeUsage : Bool) :
    ∃ response, aggregate errors id model (terminated events reason usage) = some (.ok response) ∧
      response.reply includeUsage = some
        { content := contentOf events
          reasoning := reasoningOf events
          toolCalls := (Gather.gather PartialToolCall.empty PartialToolCall.assign
            (callsOf events)).map Prod.snd
          finishReason := some reason.asStr
          usage := if includeUsage then some (UsageBody.ofUsage usage) else none } := by
  obtain ⟨next, collected, parts⟩ := aggregateFrom_events errors id model plain recorded
    Collected.start [.event (.finished reason usage)]
  refine ⟨_, collected, ?_⟩
  have content : next.content = contentOf events := parts.content
  have reasoning : next.reasoning = reasoningOf events := parts.reasoning
  have toolCalls : next.toolCalls =
      Gather.gather PartialToolCall.empty PartialToolCall.assign (callsOf events) := parts.toolCalls
  have shown : (if (reasoningOf events).isEmpty then none else some (reasoningOf events)).getD [] =
      reasoningOf events := by
    cases reasoningOf events <;> rfl
  simp only [ChatCompletionResponse.reply, Collected.respond, content, reasoning, toolCalls,
    List.head?_cons, Option.map_some, shown, List.map_map]
  rfl

/-- A streamed reply adds up to the aggregated one, for every generation that finishes and with the
timer anywhere between its events, exactly if every reading of the engine's clock can be recorded and
at every index the parts of the tool call say the same to both. -/
theorem chat_replies_agree_iff {builder : ChunkBuilder}
    (fresh : builder.announcedToolCalls = []) (includeUsage : Bool)
    (plain : ∀ event ∈ events, event.isFinished = false) {arrivals : List (Arrival ε)}
    (items : arrivals.filterMap Arrival.item? = terminated events reason usage) :
    (∃ response, aggregate errors id model (terminated events reason usage) = some (.ok response) ∧
      response.reply includeUsage =
        some (streamedReply (encode errors arrivals builder includeUsage))) ↔
      Measurable events ∧ ∀ index, SameCall (Gather.updatesAt index (callsOf events)) := by
  by_cases recorded : Measurable events
  · obtain ⟨response, answered, reply⟩ :=
      aggregate_terminated errors id model plain recorded reason usage includeUsage
    rw [streamedReply_encode errors plain items recorded, answered, ← toolCalls_eq_iff fresh events]
    constructor
    · rintro ⟨other, same, agree⟩
      cases same
      rw [reply, Option.some.injEq, Reply.mk.injEq] at agree
      exact ⟨recorded, agree.2.2.1.symm⟩
    · rintro ⟨-, equal⟩
      exact ⟨response, rfl, by rw [reply, equal]⟩
  · have panicked : aggregate errors id model (terminated events reason usage) = none :=
      aggregateFrom_unrecorded errors id model plain recorded Collected.start _
    rw [panicked]
    simp [recorded]

/-- A call whose id and name come with its first delta, in two fragments. -/
def calledAtOnce : List GenerationEvent :=
  [.started none, .toolCallDelta 0 (some ['c', '1']) (some ['l', 's']) (some ['{']),
    .toolCallDelta 0 none none (some ['}'])]

theorem chat_replies_agree_two_fragments :
    ∃ response, aggregate sampleErrors [] [] (terminated calledAtOnce .toolCalls Usage.zero) =
        some (.ok response) ∧
      response.reply true = some (streamedReply (encode sampleErrors
        (.tick :: calledAtOnce.map (fun event => .item (.event event)) ++
          [.item (.event (.finished .toolCalls Usage.zero))]) sampleBuilder true)) := by
  refine (chat_replies_agree_iff sampleErrors [] [] rfl true (by decide) rfl).mpr ⟨?_, ?_⟩
  · intro timings member
    simp [calledAtOnce] at member
  · intro index
    by_cases first : index = 0
    · subst first
      decide
    · have other : ¬0 = index := fun equal => first equal.symm
      have calls : callsOf calledAtOnce = [(0, ⟨some ['c', '1'], some ['l', 's'], some ['{']⟩),
          (0, ⟨none, none, some ['}']⟩)] := rfl
      have nothing : Gather.updatesAt index (callsOf calledAtOnce) = [] := by
        simp [calls, Gather.updatesAt, other]
      rw [nothing]
      exact ⟨rfl, rfl⟩

/-- A call whose name comes behind its id. -/
def namedLater : List GenerationEvent :=
  [.toolCallDelta 0 (some ['c', '1']) none none, .toolCallDelta 0 none (some ['l', 's']) (some ['{', '}'])]

/-- The stream drops the name, since the id has announced the call; the aggregated reply has it. -/
theorem name_behind_id_dropped :
    ¬∃ response, aggregate sampleErrors [] [] (terminated namedLater .toolCalls Usage.zero) =
        some (.ok response) ∧
      response.reply true = some (streamedReply (encode sampleErrors
        (namedLater.map (fun event => .item (.event event)) ++
          [.item (.event (.finished .toolCalls Usage.zero))]) sampleBuilder true)) := by
  have streamed : (streamedReply (encode sampleErrors
      (namedLater.map (fun event => .item (.event event)) ++
        [.item (.event (.finished .toolCalls Usage.zero))]) sampleBuilder true)).toolCalls =
      [{ id := ['c', '1'], name := [], arguments := ['{', '}'] }] := by
    decide +kernel
  have collected : ((aggregate sampleErrors [] [] (terminated namedLater .toolCalls
      Usage.zero)).bind Except.toOption).bind (fun response => (response.reply true).map
        Reply.toolCalls) = some [{ id := ['c', '1'], name := ['l', 's'], arguments := ['{', '}'] }] := by
    decide +kernel
  rintro ⟨response, answered, agree⟩
  rw [answered, Option.bind_some, Except.toOption, Option.bind_some, agree, Option.map_some,
    streamed] at collected
  exact absurd collected (by decide)

end Lightweight.Gateway
