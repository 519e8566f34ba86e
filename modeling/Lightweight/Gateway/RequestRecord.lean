import Mathlib.Data.List.Basic
import Lightweight.Gateway.Aggregate
import Lightweight.Gateway.Completions

/-! What the guard of a request reports of its generation when it is dropped: the record that the
four ways of replying fill in, and the counters it is added to. -/

namespace Lightweight.Gateway.Accounting

open Lightweight.Inference Lightweight.Api

/-- What one generation cost, without its times. -/
structure GenerationRecord where
  promptTokens : Nat
  completionTokens : Nat
  cachedTokens : Nat
  finishReason : Option FinishReason
deriving DecidableEq, Repr

def GenerationRecord.default : GenerationRecord := ⟨0, 0, 0, none⟩

structure Metrics where
  generations : UInt64
  finishStop : UInt64
  finishLength : UInt64
  finishToolCalls : UInt64
  finishError : UInt64
  finishCancelled : UInt64
  promptTokens : UInt64
  completionTokens : UInt64
  cachedTokens : UInt64
deriving DecidableEq, Repr

/-- The counters of the endings; a record without a finish reason is a client that went away. -/
def Metrics.countEnding (metrics : Metrics) : Option FinishReason → Metrics
  | some .stop => { metrics with finishStop := metrics.finishStop + 1 }
  | some .length => { metrics with finishLength := metrics.finishLength + 1 }
  | some .toolCalls => { metrics with finishToolCalls := metrics.finishToolCalls + 1 }
  | some .error => { metrics with finishError := metrics.finishError + 1 }
  | none => { metrics with finishCancelled := metrics.finishCancelled + 1 }

def Metrics.recordGeneration (metrics : Metrics) (record : GenerationRecord) : Metrics :=
  let metrics := { metrics with generations := metrics.generations + 1 }
  let metrics := metrics.countEnding record.finishReason
  { metrics with
    promptTokens := metrics.promptTokens + UInt64.ofNat record.promptTokens
    completionTokens := metrics.completionTokens + UInt64.ofNat record.completionTokens
    cachedTokens := metrics.cachedTokens + UInt64.ofNat record.cachedTokens }

/-- What the reply to a request hears of its generations. -/
inductive Signal where
  | event (event : GenerationEvent)
  /-- An error of the stream, or a generation that cannot start. -/
  | failed
  /-- The stream is at its end. -/
  | ended
deriving DecidableEq, Repr

def Signal.isTerminal : Signal → Bool
  | .event next => next.isFinished
  | .failed => true
  | .ended => true

/-! ### What each reply writes to the record -/

namespace GenerationRecord

/-- The counts of a finish event. -/
def measured (record : GenerationRecord) (usage : Usage) : GenerationRecord :=
  { record with
    promptTokens := usage.promptTokens
    completionTokens := usage.completionTokens
    cachedTokens := if 0 < usage.cachedTokens then usage.cachedTokens else record.cachedTokens }

/-- The encoder of a streamed chat completion. -/
def streamed (record : GenerationRecord) : Signal → GenerationRecord
  | .event (.timings reading) =>
      { record with cachedTokens := reading.cachedN, completionTokens := reading.predictedN }
  | .event (.finished reason usage) => { record.measured usage with finishReason := some reason }
  | .event _ => record
  | .failed => { record with finishReason := some .error }
  | .ended => { record with finishReason := some .length }

/-- The loop that collects a chat completion; behind it the record is left as it is. -/
def aggregated (record : GenerationRecord) : Signal → GenerationRecord
  | .event (.timings reading) => { record with cachedTokens := reading.cachedN }
  | .event (.finished reason usage) => { record.measured usage with finishReason := some reason }
  | .event _ => record
  | .failed => { record with finishReason := some .error }
  | .ended => record

/-- The encoder and the collector of text completions, which keep the usage and the reasons for the
reply alone. -/
def untouched (record : GenerationRecord) : Signal → GenerationRecord := fun _ => record

end GenerationRecord

variable {ε : Type}

/-! ### What each reply hears before its client goes away -/

/-- What a pass of the encoder's loop hears. -/
def chatSignal (encoder : Encoder ε) : Option Signal :=
  match encoder.source with
  | .queued (_ :: _) _ => none
  | .queued [] (.granted (.ok _)) => none
  | .queued [] _ => some .failed
  | .inTransit => some .failed
  | .running [] => some .ended
  | .running (.tick :: _) => none
  | .running (.item (.event event) :: _) => some (.event event)
  | .running (.item (.failure _) :: _) => some .failed

/-- The signals of so many passes, fewer if the stream finishes first; `none` where the encoder
panics, which takes the process down with its counters. -/
def chatHeard (errors : Errors ε) : Nat → Encoder ε → Option (List Signal)
  | 0, _ => some []
  | passes + 1, encoder =>
      if encoder.finished then some []
      else
        match encoder.drained.turn errors with
        | none => none
        | some next => (chatHeard errors passes next).map ((chatSignal encoder).toList ++ ·)

/-- The signals of so many turns of the collecting loop; `none` where it panics. -/
def collectedHeard : Nat → Collected → List (Item ε) → Option (List Signal)
  | 0, _, _ => some []
  | _ + 1, _, [] => some [.ended]
  | _ + 1, _, .failure _ :: _ => some [.failed]
  | turns + 1, collected, .event event :: items =>
      match collected.absorb event with
      | none => none
      | some next => (collectedHeard turns next items).map (.event event :: ·)

/-- What a pass of the completions' encoder hears. -/
def textSignal (encoder : Completions.Encoder ε) : Option Signal :=
  match encoder.current with
  | none =>
      match encoder.queue with
      | ⟨_, _, .error _⟩ :: _ => some .failed
      | _ => none
  | some (_, []) => some .ended
  | some (_, .tick :: _) => none
  | some (_, .item (.event event) :: _) => some (.event event)
  | some (_, .item (.failure _) :: _) => some .failed

def textHeard (envelope : ε → ErrorBody) : Nat → Completions.Encoder ε → List Signal
  | 0, _ => []
  | passes + 1, encoder =>
      if encoder.finished then []
      else
        (textSignal encoder).toList ++ textHeard envelope passes (encoder.drained.turn envelope)

/-- What the collector hears of one generation, and then of those behind it. -/
def itemSignals (rest : List Signal) : List (Item ε) → List Signal
  | [] => .ended :: rest
  | .failure _ :: _ => [.failed]
  | .event event :: items => .event event :: itemSignals rest items

/-- What the collector of completions hears; the first error is the last of it. -/
def queueSignals : List (Completions.PendingCompletion ε) → List Signal
  | [] => []
  | pending :: queue =>
      match pending.generation with
      | .error _ => [.failed]
      | .ok arrivals => itemSignals (queueSignals queue) (Completions.itemsOf arrivals)

/-- The four ways of replying, each with all that its backend would say. -/
inductive Reply (ε : Type) where
  | chatStreamed (source : Source ε) (builder : ChunkBuilder) (includeUsage : Bool)
  | chatAggregated (items : List (Item ε))
  | textStreamed (queue : List (Completions.PendingCompletion ε)) (builder : CompletionChunkBuilder)
      (includeUsage : Bool)
  | textAggregated (queue : List (Completions.PendingCompletion ε))

namespace Reply

/-- What is heard when the client goes away, or would, after so many passes. -/
def heard (errors : Errors ε) (passes : Nat) : Reply ε → Option (List Signal)
  | .chatStreamed source builder includeUsage =>
      chatHeard errors passes
        { source, builder, pending := [.chunk builder.role], includeUsage, started := false,
          finished := false, usage := none, timings := none }
  | .chatAggregated items => collectedHeard passes .start items
  | .textStreamed queue builder includeUsage =>
      some (textHeard errors.envelope passes (.start queue builder includeUsage))
  | .textAggregated queue => some ((queueSignals queue).take passes)

/-- What the reply writes to the record for what it hears. -/
def write : Reply ε → GenerationRecord → Signal → GenerationRecord
  | .chatStreamed _ _ _ => GenerationRecord.streamed
  | .chatAggregated _ => GenerationRecord.aggregated
  | .textStreamed _ _ _ => GenerationRecord.untouched
  | .textAggregated _ => GenerationRecord.untouched

/-- The record that the guard publishes when it is dropped. -/
def published (reply : Reply ε) (heard : List Signal) : GenerationRecord :=
  heard.foldl reply.write .default

end Reply

/-! ### What the counters are for -/

/-- How a generation ended: the reason, and the usage of a finish event. A stream that stops behind
its finish event adds nothing, and one that stops without it has run out of its length. -/
def endingStep (ending : Option (FinishReason × Option Usage)) :
    Signal → Option (FinishReason × Option Usage)
  | .event (.finished reason usage) => some (reason, some usage)
  | .event _ => ending
  | .failed => some (.error, none)
  | .ended => ending.or (some (.length, none))

def endingOf (heard : List Signal) : Option (FinishReason × Option Usage) :=
  heard.foldl endingStep none

/-- The counts of a usage. An engine that reports no cached tokens in it may have done so in its
timings. -/
def Carries (record : GenerationRecord) (usage : Usage) : Prop :=
  record.promptTokens = usage.promptTokens ∧ record.completionTokens = usage.completionTokens ∧
    (0 < usage.cachedTokens → record.cachedTokens = usage.cachedTokens)

/-- The request is counted as cancelled if and only if nothing had ended its generation, and
otherwise the record has the reason of that ending and the counts of its usage. -/
def Classified (metrics : Metrics) (record : GenerationRecord) (heard : List Signal) : Prop :=
  ((metrics.recordGeneration record).finishCancelled = metrics.finishCancelled + 1 ↔
    endingOf heard = none) ∧
  ∀ reason usage, endingOf heard = some (reason, usage) →
    record.finishReason = some reason ∧ ∀ counts, usage = some counts → Carries record counts

theorem cancelled_iff (metrics : Metrics) (record : GenerationRecord) :
    (metrics.recordGeneration record).finishCancelled = metrics.finishCancelled + 1 ↔
      record.finishReason = none := by
  have counted : (metrics.recordGeneration record).finishCancelled =
      (metrics.countEnding record.finishReason).finishCancelled := by
    unfold Metrics.recordGeneration Metrics.countEnding
    cases record.finishReason with
    | none => rfl
    | some reason => cases reason <;> rfl
  rw [counted]
  cases record.finishReason with
  | none => simp [Metrics.countEnding]
  | some reason => cases reason <;> simp [Metrics.countEnding]

/-- The counters left out. -/
theorem classified_iff {metrics : Metrics} {record : GenerationRecord} {heard : List Signal} :
    Classified metrics record heard ↔
      record.finishReason = (endingOf heard).map Prod.fst ∧
        ∀ reason counts, endingOf heard = some (reason, some counts) → Carries record counts := by
  unfold Classified
  rw [cancelled_iff]
  cases ending : endingOf heard with
  | none => simp
  | some found =>
      obtain ⟨reason, usage⟩ := found
      constructor
      · rintro ⟨-, right⟩
        obtain ⟨stated, counted⟩ := right reason usage rfl
        refine ⟨stated, ?_⟩
        rintro _ counts ⟨⟩
        exact counted counts rfl
      · rintro ⟨stated, counted⟩
        have some_reason : record.finishReason = some reason := stated
        refine ⟨by simp [some_reason], ?_⟩
        rintro _ _ ⟨⟩
        refine ⟨stated, ?_⟩
        rintro counts rfl
        exact counted reason counts rfl

/-! ### The streamed chat completion -/

/-- A pass that hears the end of the generation finishes the stream. -/
theorem turn_finished (errors : Errors ε) {encoder next : Encoder ε} {signal : Signal}
    (heard : chatSignal encoder = some signal) (terminal : signal.isTerminal = true)
    (turned : encoder.drained.turn errors = some next) : next.finished = true := by
  have failing : ∀ (encoder : Encoder ε) (envelope : ErrorBody),
      (encoder.failWith envelope).finished = true := fun _ _ => rfl
  have closing : ∀ (encoder : Encoder ε) (reason : FinishReason),
      (encoder.close reason).finished = true := by
    intro encoder reason
    unfold Encoder.close
    split
    · assumption
    · rfl
  unfold chatSignal at heard
  unfold Encoder.turn Encoder.waitForASlot Encoder.drained at turned
  cases source : encoder.source with
  | inTransit =>
      simp only [source] at turned
      exact Option.some.inj turned ▸ closing _ _
  | queued notices ending =>
      cases notices with
      | cons notice notices => simp [source] at heard
      | nil =>
          cases ending with
          | gone =>
              simp only [source] at turned
              exact Option.some.inj turned ▸ failing _ _
          | deadline =>
              simp only [source] at turned
              exact Option.some.inj turned ▸ failing _ _
          | granted start =>
              cases start with
              | ok arrivals => simp [source] at heard
              | error error =>
                  simp only [source] at turned
                  exact Option.some.inj turned ▸ failing _ _
  | running arrivals =>
      cases arrivals with
      | nil =>
          simp only [source] at turned
          exact Option.some.inj turned ▸ closing _ _
      | cons arrival arrivals =>
          cases arrival with
          | tick => simp [source] at heard
          | item item =>
              cases item with
              | failure error =>
                  simp only [source] at turned
                  exact Option.some.inj turned ▸ failing _ _
              | event event =>
                  simp only [source, Option.some.injEq] at heard
                  subst heard
                  cases event with
                  | finished reason usage =>
                      simp only [source, Encoder.absorb] at turned
                      exact Option.some.inj turned ▸ closing _ _
                  | started promptTokens => cases terminal
                  | contentDelta text => cases terminal
                  | reasoningDelta text => cases terminal
                  | toolCallDelta index id name arguments => cases terminal
                  | timings reading => cases terminal

/-- Nothing is heard behind the first terminal signal. -/
theorem chatHeard_terminal (errors : Errors ε) {passes : Nat} {encoder : Encoder ε}
    {heard : List Signal} (served : chatHeard errors passes encoder = some heard) :
    (∀ signal ∈ heard, signal.isTerminal = false) ∨
      ∃ plain last, heard = plain ++ [last] ∧ (∀ signal ∈ plain, signal.isTerminal = false) ∧
        last.isTerminal = true := by
  induction passes generalizing encoder heard with
  | zero =>
      cases served
      exact .inl (by simp)
  | succ passes ih =>
      unfold chatHeard at served
      by_cases finished : encoder.finished = true
      · rw [if_pos finished] at served
        cases served
        exact .inl (by simp)
      · rw [if_neg finished] at served
        cases turned : encoder.drained.turn errors with
        | none => simp [turned] at served
        | some next =>
            simp only [turned, Option.map_eq_some_iff] at served
            obtain ⟨rest, served, rfl⟩ := served
            cases signalled : chatSignal encoder with
            | none => exact ih served
            | some signal =>
                by_cases terminal : signal.isTerminal = true
                · have done := turn_finished errors signalled terminal turned
                  have nothing : rest = [] := by
                    cases passes with
                    | zero =>
                        cases served
                        rfl
                    | succ passes =>
                        rw [chatHeard, if_pos done] at served
                        cases served
                        rfl
                  subst nothing
                  exact .inr ⟨[], signal, rfl, by simp, terminal⟩
                · rw [Bool.not_eq_true] at terminal
                  rcases ih served with plain | ⟨plain, last, rfl, all, ends⟩
                  · exact .inl (List.forall_mem_cons.mpr ⟨terminal, plain⟩)
                  · exact .inr ⟨signal :: plain, last, rfl, List.forall_mem_cons.mpr ⟨terminal, all⟩,
                      ends⟩

theorem endingOf_append (plain : List Signal) (last : Signal) :
    endingOf (plain ++ [last]) = endingStep (endingOf plain) last := by
  simp [endingOf]

theorem endingOf_eq_none_iff {heard : List Signal} :
    endingOf heard = none ↔ ∀ signal ∈ heard, signal.isTerminal = false := by
  induction heard using List.reverseRecOn with
  | nil => simp [endingOf]
  | append_singleton heard last ih =>
      rw [endingOf_append, List.forall_mem_append, List.forall_mem_singleton, ← ih]
      cases last with
      | failed => simp [endingStep, Signal.isTerminal]
      | ended => simp [endingStep, Signal.isTerminal]
      | event event =>
          cases event <;> simp [endingStep, Signal.isTerminal, GenerationEvent.isFinished]

theorem published_append (reply : Reply ε) (plain : List Signal) (last : Signal) :
    reply.published (plain ++ [last]) = reply.write (reply.published plain) last := by
  simp [Reply.published]

theorem streamed_plain (record : GenerationRecord) {signal : Signal}
    (plain : signal.isTerminal = false) : (record.streamed signal).finishReason = record.finishReason := by
  cases signal with
  | failed => cases plain
  | ended => cases plain
  | event event =>
      cases event with
      | finished reason usage => cases plain
      | started promptTokens => rfl
      | contentDelta text => rfl
      | reasoningDelta text => rfl
      | toolCallDelta index id name arguments => rfl
      | timings reading => rfl

theorem measured_carries (record : GenerationRecord) (usage : Usage) (reason : Option FinishReason) :
    Carries { record.measured usage with finishReason := reason } usage :=
  ⟨rfl, rfl, fun reported => if_pos reported⟩

theorem streamed_unended {source : Source ε} {builder : ChunkBuilder} {includeUsage : Bool}
    {heard : List Signal} (plain : ∀ signal ∈ heard, signal.isTerminal = false) :
    (Reply.published (.chatStreamed source builder includeUsage) heard).finishReason = none := by
  induction heard using List.reverseRecOn with
  | nil => rfl
  | append_singleton heard last ih =>
      rw [List.forall_mem_append, List.forall_mem_singleton] at plain
      rw [published_append]
      exact (streamed_plain _ plain.2).trans (ih plain.1)

theorem streamed_classified {errors : Errors ε} {passes : Nat} {source : Source ε}
    {builder : ChunkBuilder} {includeUsage : Bool} {heard : List Signal}
    (served : Reply.heard errors passes (.chatStreamed source builder includeUsage) = some heard)
    (metrics : Metrics) :
    Classified metrics (Reply.published (.chatStreamed source builder includeUsage) heard) heard := by
  rw [classified_iff]
  rcases chatHeard_terminal errors served with plain | ⟨plain, last, rfl, all, ends⟩
  · rw [endingOf_eq_none_iff.mpr plain, streamed_unended plain]
    exact ⟨rfl, nofun⟩
  · rw [endingOf_append, endingOf_eq_none_iff.mpr all, published_append]
    cases last with
    | failed => exact ⟨rfl, nofun⟩
    | ended => exact ⟨rfl, nofun⟩
    | event event =>
        cases event with
        | finished reason usage =>
            refine ⟨rfl, ?_⟩
            rintro _ counts ⟨⟩
            exact measured_carries _ _ _
        | started promptTokens => cases ends
        | contentDelta text => cases ends
        | reasoningDelta text => cases ends
        | toolCallDelta index id name arguments => cases ends
        | timings reading => cases ends

/-! ### The collected chat completion -/

/-- The cached tokens of the last timings that come behind the last finish event, if any do. -/
def lateStep (late : Option Nat) : Signal → Option Nat
  | .event (.finished _ _) => none
  | .event (.timings reading) => some reading.cachedN
  | _ => late

def lateCached (heard : List Signal) : Option Nat :=
  heard.foldl lateStep none

theorem lateCached_append (plain : List Signal) (last : Signal) :
    lateCached (plain ++ [last]) = lateStep (lateCached plain) last := by
  simp [lateCached]

/-- The timings behind a finish event repeat the cached tokens that it reports. -/
def LateKept (heard : List Signal) : Prop :=
  ∀ reason counts cached, endingOf heard = some (reason, some counts) →
    lateCached heard = some cached → 0 < counts.cachedTokens → cached = counts.cachedTokens

/-- The record of a collected completion against how it has ended and the timings behind that. -/
structure Tracks (record : GenerationRecord) (ending : Option (FinishReason × Option Usage))
    (behind : Option Nat) : Prop where
  reason : record.finishReason = ending.map Prod.fst
  prompt : ∀ reason counts, ending = some (reason, some counts) →
    record.promptTokens = counts.promptTokens
  completion : ∀ reason counts, ending = some (reason, some counts) →
    record.completionTokens = counts.completionTokens
  late : ∀ cached, behind = some cached → record.cachedTokens = cached
  cached : ∀ reason counts, ending = some (reason, some counts) → behind = none →
    0 < counts.cachedTokens → record.cachedTokens = counts.cachedTokens

theorem Tracks.classified_iff {record : GenerationRecord} {heard : List Signal}
    (tracks : Tracks record (endingOf heard) (lateCached heard)) (metrics : Metrics) :
    Classified metrics record heard ↔ LateKept heard := by
  rw [Accounting.classified_iff]
  constructor
  · rintro ⟨-, carried⟩ reason counts cached ending late reported
    rw [← tracks.late cached late]
    exact (carried reason counts ending).2.2 reported
  · intro kept
    refine ⟨tracks.reason, ?_⟩
    intro reason counts ending
    refine ⟨tracks.prompt reason counts ending, tracks.completion reason counts ending, ?_⟩
    intro reported
    cases late : lateCached heard with
    | none => exact tracks.cached reason counts ending late reported
    | some cached =>
        rw [tracks.late cached late]
        exact kept reason counts cached ending late reported

theorem Tracks.event {record : GenerationRecord} {ending : Option (FinishReason × Option Usage)}
    {late : Option Nat} (tracks : Tracks record ending late) (event : GenerationEvent) :
    Tracks (record.aggregated (.event event)) (endingStep ending (.event event))
      (lateStep late (.event event)) := by
  cases event with
  | finished reason usage =>
      refine ⟨rfl, ?_, ?_, nofun, ?_⟩
      · rintro _ counts ⟨⟩
        rfl
      · rintro _ counts ⟨⟩
        rfl
      · rintro _ counts ⟨⟩ - reported
        exact if_pos reported
  | timings reading =>
      refine ⟨tracks.reason, tracks.prompt, tracks.completion, ?_, nofun⟩
      rintro cached ⟨⟩
      rfl
  | started promptTokens => exact tracks
  | contentDelta text => exact tracks
  | reasoningDelta text => exact tracks
  | toolCallDelta index id name arguments => exact tracks

theorem tracks_events (items : List (Item ε)) (events : List GenerationEvent) :
    Tracks (Reply.published (.chatAggregated items) (events.map .event))
      (endingOf (events.map .event)) (lateCached (events.map .event)) := by
  induction events using List.reverseRecOn with
  | nil => exact ⟨rfl, nofun, nofun, nofun, nofun⟩
  | append_singleton events last ih =>
      rw [List.map_append, List.map_singleton, published_append, endingOf_append, lateCached_append]
      exact ih.event last

/-- The loop hears events, and then at most an error or the end of the stream. -/
theorem collectedHeard_shape {turns : Nat} {collected : Collected} {items : List (Item ε)}
    {heard : List Signal} (served : collectedHeard turns collected items = some heard) :
    ∃ events : List GenerationEvent, heard = events.map .event ∨ heard = events.map .event ++ [.failed] ∨
      heard = events.map .event ++ [.ended] := by
  induction items generalizing turns collected heard with
  | nil =>
      cases turns with
      | zero =>
          cases served
          exact ⟨[], .inl rfl⟩
      | succ turns =>
          cases served
          exact ⟨[], .inr (.inr rfl)⟩
  | cons item items ih =>
      cases turns with
      | zero =>
          cases served
          exact ⟨[], .inl rfl⟩
      | succ turns =>
          cases item with
          | failure error =>
              cases served
              exact ⟨[], .inr (.inl rfl)⟩
          | event event =>
              rw [collectedHeard] at served
              cases absorbed : collected.absorb event with
              | none => simp [absorbed] at served
              | some next =>
                  simp only [absorbed, Option.map_eq_some_iff] at served
                  obtain ⟨rest, later, rfl⟩ := served
                  obtain ⟨events, shape⟩ := ih later
                  refine ⟨event :: events, ?_⟩
                  rcases shape with rfl | rfl | rfl
                  · exact .inl rfl
                  · exact .inr (.inl rfl)
                  · exact .inr (.inr rfl)

/-- The stream has not been heard to end without a finish event or an error before. -/
def EndedAfter (heard : List Signal) : Prop :=
  .ended ∈ heard → ∃ signal ∈ heard, signal ≠ .ended ∧ signal.isTerminal = true

theorem aggregated_classified_iff {errors : Errors ε} {passes : Nat} {items : List (Item ε)}
    {heard : List Signal} (served : Reply.heard errors passes (.chatAggregated items) = some heard)
    (metrics : Metrics) :
    Classified metrics (Reply.published (.chatAggregated items) heard) heard ↔
      EndedAfter heard ∧ LateKept heard := by
  have quiet : ∀ events : List GenerationEvent, .ended ∉ events.map Signal.event := by simp
  obtain ⟨events, rfl | rfl | rfl⟩ := collectedHeard_shape served
  · rw [(tracks_events items events).classified_iff metrics]
    exact (and_iff_right fun ended => absurd ended (quiet events)).symm
  · have tracks := tracks_events items events
    have failed : Tracks (Reply.published (.chatAggregated items) (events.map .event ++ [.failed]))
        (endingOf (events.map .event ++ [.failed])) (lateCached (events.map .event ++ [.failed])) := by
      rw [published_append, endingOf_append, lateCached_append]
      exact ⟨rfl, nofun, nofun, tracks.late, nofun⟩
    rw [failed.classified_iff metrics]
    refine (and_iff_right ?_).symm
    exact fun _ => ⟨.failed, by simp, by simp, rfl⟩
  · have tracks := tracks_events items events
    cases ending : endingOf (events.map Signal.event) with
    | none =>
        -- The loop is left without a word to the record.
        have plain := endingOf_eq_none_iff.mp ending
        constructor
        · intro classified
          have stated := (classified_iff.mp classified).1
          rw [published_append, endingOf_append, ending] at stated
          have unset := tracks.reason
          rw [ending] at unset
          cases unset.symm.trans stated
        · rintro ⟨after, -⟩
          obtain ⟨signal, member, other, terminal⟩ := after (by simp)
          rcases List.mem_append.mp member with member | member
          · exact absurd terminal (by simp [plain signal member])
          · exact absurd (List.mem_singleton.mp member) other
    | some found =>
        have ended : Tracks (Reply.published (.chatAggregated items) (events.map .event ++ [.ended]))
            (endingOf (events.map .event ++ [.ended])) (lateCached (events.map .event ++ [.ended])) := by
          rw [published_append, endingOf_append, lateCached_append, ending]
          rw [ending] at tracks
          exact tracks
        rw [ended.classified_iff metrics]
        refine (and_iff_right ?_).symm
        intro _
        have some_terminal : ¬∀ signal ∈ events.map Signal.event, signal.isTerminal = false := by
          rw [← endingOf_eq_none_iff, ending]
          simp
        push Not at some_terminal
        obtain ⟨signal, member, terminal⟩ := some_terminal
        refine ⟨signal, List.mem_append_left _ member, ?_, by simpa using terminal⟩
        rintro rfl
        exact quiet events member

/-! ### The text completions -/

theorem foldl_untouched (record : GenerationRecord) (heard : List Signal) :
    heard.foldl GenerationRecord.untouched record = record := by
  induction heard with
  | nil => rfl
  | cons signal heard ih => exact ih

/-- Nothing but a request that its client gave up is classified. -/
theorem untouched_classified_iff {metrics : Metrics} {heard : List Signal} :
    Classified metrics .default heard ↔ ∀ signal ∈ heard, signal.isTerminal = false := by
  rw [classified_iff, ← endingOf_eq_none_iff]
  cases endingOf heard with
  | none => exact iff_of_true ⟨rfl, nofun⟩ rfl
  | some ending =>
      constructor
      · rintro ⟨⟨⟩, -⟩
      · rintro ⟨⟩

/-- What the record of a reply needs of what is heard, to be classified. -/
def Reply.Accounted : Reply ε → List Signal → Prop
  | .chatStreamed _ _ _, _ => True
  | .chatAggregated _, heard => EndedAfter heard ∧ LateKept heard
  | .textStreamed _ _ _, heard => ∀ signal ∈ heard, signal.isTerminal = false
  | .textAggregated _, heard => ∀ signal ∈ heard, signal.isTerminal = false

theorem classified_iff_accounted (errors : Errors ε) (reply : Reply ε) (passes : Nat)
    (heard : List Signal) (served : reply.heard errors passes = some heard) (metrics : Metrics) :
    Classified metrics (reply.published heard) heard ↔ reply.Accounted heard := by
  cases reply with
  | chatStreamed source builder includeUsage =>
      exact iff_of_true (streamed_classified served metrics) trivial
  | chatAggregated items => exact aggregated_classified_iff served metrics
  | textStreamed queue builder includeUsage =>
      have untouched : Reply.published (.textStreamed queue builder includeUsage) heard = .default :=
        foldl_untouched .default heard
      rw [untouched]
      exact untouched_classified_iff
  | textAggregated queue =>
      have untouched : Reply.published (.textAggregated queue) heard = .default :=
        foldl_untouched .default heard
      rw [untouched]
      exact untouched_classified_iff

/-- The errors of a backend that has one. -/
def oneError : Errors Unit := ⟨fun _ => .invalidRequest [] [], ()⟩

/-- A chat completion that is collected to its finish event. -/
theorem collected_chat_classified :
    Reply.heard oneError 3 (.chatAggregated
      [.event (.contentDelta ['a']), .event (.finished .stop ⟨7, 1, 8, 0⟩)]) =
        some [.event (.contentDelta ['a']), .event (.finished .stop ⟨7, 1, 8, 0⟩), .ended] ∧
      Classified ⟨0, 0, 0, 0, 0, 0, 0, 0, 0⟩ ⟨7, 1, 0, some .stop⟩
        [.event (.contentDelta ['a']), .event (.finished .stop ⟨7, 1, 8, 0⟩), .ended] := by
  refine ⟨rfl, ?_⟩
  refine (classified_iff_accounted oneError (.chatAggregated
    [.event (.contentDelta ['a']), .event (.finished .stop ⟨7, 1, 8, 0⟩)]) 3 _ rfl _).mpr ?_
  refine ⟨fun _ => ⟨.event (.finished .stop ⟨7, 1, 8, 0⟩), by simp, by simp, rfl⟩, ?_⟩
  rintro _ _ _ ⟨⟩ ⟨⟩

/-- A text completion that ran to its finish event and is counted as cancelled, with no tokens,
streamed and collected alike. -/
theorem finished_completion_counted_cancelled :
    let queue : List (Completions.PendingCompletion Unit) :=
      [⟨0, none, .ok [.item (.event (.contentDelta ['a'])),
        .item (.event (.finished .stop ⟨7, 1, 8, 0⟩))]⟩]
    let metrics : Metrics := ⟨0, 0, 0, 0, 0, 0, 0, 0, 0⟩
    ∀ reply ∈ [Reply.textStreamed queue ⟨[], [], 0⟩ false, .textAggregated queue],
      ∃ heard, reply.heard oneError 3 = some heard ∧
        .event (.finished .stop ⟨7, 1, 8, 0⟩) ∈ heard ∧
        metrics.recordGeneration (reply.published heard) = ⟨1, 0, 0, 0, 0, 1, 0, 0, 0⟩ ∧
        ¬Classified metrics (reply.published heard) heard := by
  intro queue metrics
  have finish : (Signal.event (.finished .stop ⟨7, 1, 8, 0⟩)).isTerminal ≠ false := by decide
  refine List.forall_mem_cons.mpr ⟨?_, List.forall_mem_singleton.mpr ?_⟩
  · refine ⟨[.event (.contentDelta ['a']), .event (.finished .stop ⟨7, 1, 8, 0⟩)], rfl, by simp, rfl,
      ?_⟩
    exact fun classified => finish (untouched_classified_iff.mp classified _ (by simp))
  · refine ⟨[.event (.contentDelta ['a']), .event (.finished .stop ⟨7, 1, 8, 0⟩), .ended], rfl, by simp,
      rfl, ?_⟩
    exact fun classified => finish (untouched_classified_iff.mp classified _ (by simp))

end Lightweight.Gateway.Accounting
