import Lightweight.Backend.Upstream

/-! How the translation of an engine's stream ends. Every event of the stream is read once for what it
is; what the translation emits, and in which order, follows from these readings. -/

namespace Lightweight.Backend

open Lightweight.Core hiding Item
open Framing Utf8 Lightweight.Inference Lightweight.Router

/-- What an event of the engine's stream is to the translation. -/
inductive Reading where
  | done
  | noise
  | failed (error : BackendError)
  | chunk (value : Value)

def readingOfValue (chunk : Value) : Reading :=
  match chunk.get "error".toList with
  | some error => .failed (upstreamError (.object [("error".toList, error)]))
  | none => .chunk chunk

def readingOf (serde : Serde) (event : SseEvent) : Reading :=
  if event.isDone then .done
  else
    match serde.fromStr event.data with
    | none => .noise
    | some chunk => readingOfValue chunk

def Reading.ends : Reading → Bool
  | .done | .failed _ => true
  | .noise | .chunk _ => false

def Reading.isChunk : Reading → Bool
  | .chunk _ => true
  | _ => false

def textItem (event : List Char → GenerationEvent) (text : Option (List Char)) :
    List (Item BackendError) :=
  (text.map fun text => .event (event text)).toList

def deltaItems (delta : Value) : List (Item BackendError) :=
  textItem .contentDelta (textOf "content" delta) ++
    textItem .reasoningDelta
      ((textOf "reasoning_content" delta).or (textOf "reasoning" delta)) ++
    (((delta.get "tool_calls".toList).bind asArray).getD []).map fun call =>
      .event (toolCallEvent call)

def choiceItems (choice : Value) : List (Item BackendError) :=
  ((choice.get "delta".toList).map deltaItems).getD [] ++
    textItem .contentDelta (textOf "text" choice)

def choiceReason (choice : Value) : Option FinishReason :=
  ((choice.get "finish_reason".toList).bind asStr).map readReason

def choiceOf (chunk : Value) : Option Value :=
  ((chunk.get "choices".toList).bind asArray).bind List.head?

/-- What a chunk carries beside the news that the engine has started. -/
def chunkItems (chunk : Value) : List (Item BackendError) :=
  (((chunk.get "timings".toList).bind parseTimings).map fun timings =>
    .event (.timings timings)).toList ++ ((choiceOf chunk).map choiceItems).getD []

/-- Nothing comes of the event once the stream has had its terminal item. -/
def Reading.silent (started : Bool) : Reading → Bool
  | .done | .noise => true
  | .failed _ => false
  | .chunk value => started && (chunkItems value).isEmpty

/-- Behind the first event that ends the stream every event is silent. -/
def Quiet : Bool → List Reading → Prop
  | _, [] => True
  | started, reading :: readings =>
      if reading.ends then ∀ later ∈ readings, later.silent started = true
      else Quiet (started || reading.isChunk) readings

instance decidableQuiet : (started : Bool) → (readings : List Reading) →
    Decidable (Quiet started readings)
  | _, [] => isTrue trivial
  | started, reading :: readings =>
      have := decidableQuiet (started || reading.isChunk) readings
      inferInstanceAs (Decidable (if reading.ends then ∀ later ∈ readings, later.silent started = true
        else Quiet (started || reading.isChunk) readings))

namespace Translation

/-- The items that one reading gives. -/
def given (state : Translation) : Reading → List (Item BackendError)
  | .done => if state.reportedFinish then [] else [state.finishEvent.1]
  | .noise => []
  | .failed error => [.failure error]
  | .chunk value => (if state.started then [] else [.event (.started none)]) ++ chunkItems value

/-- What one reading leaves of the state, but for the items it gives. -/
def after (state : Translation) : Reading → Translation
  | .noise => state
  | .done | .failed _ => { state with finished := true, reportedFinish := true }
  | .chunk value =>
      { state with
        started := true
        usage := ((value.get "usage".toList).bind parseUsage).or state.usage
        finishReason := ((choiceOf value).bind choiceReason).or state.finishReason }

def gives (state : Translation) : List Reading → List (Item BackendError)
  | [] => []
  | reading :: readings => state.given reading ++ (state.after reading).gives readings

def afterAll (state : Translation) (readings : List Reading) : Translation :=
  readings.foldl after state

/-- The state with more items pending. -/
def extend (state : Translation) (items : List (Item BackendError)) : Translation :=
  { state with pending := state.pending ++ items }

end Translation

theorem extend_nil (state : Translation) : state.extend [] = state := by
  simp [Translation.extend]

theorem extend_extend (state : Translation) (items more : List (Item BackendError)) :
    (state.extend items).extend more = state.extend (items ++ more) := by
  simp [Translation.extend]

theorem push_eq_extend (state : Translation) (item : Item BackendError) :
    state.push item = state.extend [item] :=
  rfl

theorem pushText_eq (state : Translation) (event : List Char → GenerationEvent)
    (text : Option (List Char)) : state.pushText event text = state.extend (textItem event text) := by
  cases text with
  | none => exact (extend_nil state).symm
  | some text => rfl

theorem foldl_push (state : Translation) (calls : List Value) :
    calls.foldl (fun state call => state.push (.event (toolCallEvent call))) state =
      state.extend (calls.map fun call => .event (toolCallEvent call)) := by
  induction calls generalizing state with
  | nil => exact (extend_nil state).symm
  | cons call calls ih => rw [List.foldl_cons, ih, push_eq_extend, extend_extend]; rfl

theorem absorbDelta_eq (state : Translation) (delta : Value) :
    absorbDelta state delta = state.extend (deltaItems delta) := by
  unfold absorbDelta deltaItems
  rw [foldl_push, pushText_eq, pushText_eq, extend_extend, extend_extend, List.append_assoc]

theorem absorbChoice_eq (state : Translation) (choice : Value) :
    absorbChoice state choice =
      { state with finishReason := (choiceReason choice).or state.finishReason }.extend
        (choiceItems choice) := by
  rw [absorbChoice, choiceItems, choiceReason]
  generalize choice.get "delta".toList = delta
  generalize (choice.get "finish_reason".toList).bind asStr = reason
  cases delta <;> cases reason <;> simp [absorbDelta_eq, pushText_eq, Translation.extend]

theorem absorbChunk_eq (state : Translation) (chunk : Value) :
    absorbChunk state chunk = (state.after (.chunk chunk)).extend (state.given (.chunk chunk)) := by
  rw [absorbChunk, Translation.after, Translation.given, chunkItems, choiceOf]
  generalize (chunk.get "usage".toList).bind parseUsage = usage
  generalize (chunk.get "timings".toList).bind parseTimings = timings
  generalize ((chunk.get "choices".toList).bind asArray).bind List.head? = choice
  obtain ⟨decoder, pending, started, finishReason, known, finished, reported⟩ := state
  cases started <;> cases usage <;> cases timings <;> cases choice <;>
    simp [absorbChoice_eq, Translation.extend, Translation.push]

theorem absorbValue_eq (state : Translation) (chunk : Value) :
    absorbValue state chunk =
      (state.after (readingOfValue chunk)).extend (state.given (readingOfValue chunk)) := by
  rw [absorbValue, readingOfValue]
  cases chunk.get "error".toList with
  | none => exact absorbChunk_eq state chunk
  | some error => rfl

/-- One event of the stream, by what it is read as. -/
theorem absorb_eq (serde : Serde) (state : Translation) (event : SseEvent) :
    absorb serde state event =
      (state.after (readingOf serde event)).extend (state.given (readingOf serde event)) := by
  unfold absorb readingOf
  by_cases done : event.isDone = true
  · rw [if_pos done, if_pos done]
    cases reported : state.reportedFinish <;>
      simp [Translation.after, Translation.given, Translation.extend, Translation.push,
        Translation.finishEvent, reported]
  · rw [if_neg done, if_neg done]
    cases serde.fromStr event.data with
    | none => exact (extend_nil state).symm
    | some chunk => exact absorbValue_eq state chunk

namespace Translation

variable {state : Translation}

/-- The same progress, whatever is pending and whatever the decoder holds. -/
structure Agrees (state other : Translation) : Prop where
  started : state.started = other.started
  finishReason : state.finishReason = other.finishReason
  usage : state.usage = other.usage
  reportedFinish : state.reportedFinish = other.reportedFinish

theorem Agrees.finishEvent {other : Translation} (agrees : state.Agrees other) :
    state.finishEvent.1 = other.finishEvent.1 := by
  rw [Translation.finishEvent, Translation.finishEvent, agrees.finishReason, agrees.usage]

theorem Agrees.given {other : Translation} (agrees : state.Agrees other) (reading : Reading) :
    state.given reading = other.given reading := by
  cases reading with
  | done => rw [Translation.given, Translation.given, agrees.reportedFinish, agrees.finishEvent]
  | noise => rfl
  | failed error => rfl
  | chunk value => rw [Translation.given, Translation.given, agrees.started]

theorem Agrees.after {other : Translation} (agrees : state.Agrees other) (reading : Reading) :
    (state.after reading).Agrees (other.after reading) := by
  cases reading with
  | done => exact ⟨agrees.started, agrees.finishReason, agrees.usage, rfl⟩
  | noise => exact agrees
  | failed error => exact ⟨agrees.started, agrees.finishReason, agrees.usage, rfl⟩
  | chunk value =>
      refine ⟨rfl, ?_, ?_, agrees.reportedFinish⟩
      · rw [Translation.after, Translation.after, agrees.finishReason]
      · rw [Translation.after, Translation.after, agrees.usage]

theorem Agrees.gives {other : Translation} (agrees : state.Agrees other) (readings : List Reading) :
    state.gives readings = other.gives readings := by
  induction readings generalizing state other with
  | nil => rfl
  | cons reading readings ih =>
      rw [Translation.gives, Translation.gives, agrees.given, ih (agrees.after reading)]

theorem Agrees.afterAll {other : Translation} (agrees : state.Agrees other)
    (readings : List Reading) : (state.afterAll readings).Agrees (other.afterAll readings) := by
  induction readings generalizing state other with
  | nil => exact agrees
  | cons reading readings ih => exact ih (agrees.after reading)

theorem extend_agrees (items : List (Item BackendError)) : (state.extend items).Agrees state :=
  ⟨rfl, rfl, rfl, rfl⟩

theorem after_extend (items : List (Item BackendError)) (reading : Reading) :
    (state.extend items).after reading = (state.after reading).extend items := by
  cases reading <;> rfl

theorem afterAll_extend (items : List (Item BackendError)) (readings : List Reading) :
    (state.extend items).afterAll readings = (state.afterAll readings).extend items := by
  induction readings generalizing state with
  | nil => rfl
  | cons reading readings ih =>
      rw [afterAll, List.foldl_cons, after_extend]
      exact ih

theorem gives_append (readings more : List Reading) :
    state.gives (readings ++ more) = state.gives readings ++ (state.afterAll readings).gives more := by
  induction readings generalizing state with
  | nil => rfl
  | cons reading readings ih =>
      rw [List.cons_append, gives, gives, ih, List.append_assoc]
      rfl

end Translation

theorem foldl_absorb (serde : Serde) (state : Translation) (events : List SseEvent) :
    events.foldl (absorb serde) state =
      (state.afterAll (events.map (readingOf serde))).extend
        (state.gives (events.map (readingOf serde))) := by
  induction events generalizing state with
  | nil => exact (extend_nil state).symm
  | cons event events ih =>
      rw [List.foldl_cons, absorb_eq, ih, (Translation.extend_agrees _).gives,
        Translation.afterAll_extend, extend_extend]
      rfl

/-- Nothing terminal has been given, and nothing is pending. -/
structure Translation.Live (state : Translation) : Prop where
  unfinished : state.finished = false
  unreported : state.reportedFinish = false
  sent : state.pending = []

theorem deltaItems_plain (delta : Value) : ∀ item ∈ deltaItems delta, item.isTerminal = false := by
  intro item member
  simp only [deltaItems, textItem, List.mem_append, Option.mem_toList, Option.map_eq_some_iff,
    List.mem_map] at member
  rcases member with (⟨text, -, rfl⟩ | ⟨text, -, rfl⟩) | ⟨call, -, rfl⟩ <;> rfl

theorem chunkItems_plain (chunk : Value) : ∀ item ∈ chunkItems chunk, item.isTerminal = false := by
  intro item member
  rw [chunkItems, List.mem_append] at member
  rcases member with timing | inner
  · obtain ⟨timings, -, rfl⟩ := Option.map_eq_some_iff.mp (Option.mem_toList.mp timing)
    rfl
  · cases first : choiceOf chunk with
    | none => simp [first] at inner
    | some choice =>
        rw [first, Option.map_some, Option.getD_some, choiceItems, List.mem_append] at inner
        rcases inner with delta | text
        · cases found : choice.get "delta".toList with
          | none =>
              rw [found] at delta
              exact absurd delta List.not_mem_nil
          | some value =>
              rw [found] at delta
              exact deltaItems_plain value item delta
        · obtain ⟨shown, -, rfl⟩ := Option.map_eq_some_iff.mp (Option.mem_toList.mp text)
          rfl

namespace Translation

variable {state : Translation}

/-- An event that does not end the stream gives nothing terminal and keeps the translation live. -/
theorem Live.goes_on (live : state.Live) {reading : Reading} (more : reading.ends = false) :
    (∀ item ∈ state.given reading, item.isTerminal = false) ∧ (state.after reading).Live ∧
      (state.after reading).started = (state.started || reading.isChunk) := by
  cases reading with
  | done => cases more
  | failed error => cases more
  | noise => exact ⟨by simp [given], live, by simp [after, Reading.isChunk]⟩
  | chunk value =>
      refine ⟨?_, ⟨live.unfinished, live.unreported, live.sent⟩, by simp [after, Reading.isChunk]⟩
      intro item member
      rw [given, List.mem_append] at member
      rcases member with first | carried
      · cases started : state.started with
        | true => simp [started] at first
        | false =>
            rw [started, if_neg Bool.false_ne_true, List.mem_singleton] at first
            rw [first]
            rfl
      · exact chunkItems_plain value item carried

/-- The event that ends the stream gives its terminal item. -/
theorem Live.ends (live : state.Live) {reading : Reading} (last : reading.ends = true) :
    (∃ item, state.given reading = [item] ∧ item.isTerminal = true) ∧
      (state.after reading).finished = true ∧ (state.after reading).reportedFinish = true ∧
      (state.after reading).started = state.started := by
  cases reading with
  | noise => cases last
  | chunk value => cases last
  | done => exact ⟨⟨state.finishEvent.1, by simp [given, live.unreported], rfl⟩, rfl, rfl, rfl⟩
  | failed error => exact ⟨⟨_, rfl, rfl⟩, rfl, rfl, rfl⟩

theorem given_eq_nil (reported : state.reportedFinish = true) (reading : Reading) :
    state.given reading = [] ↔ reading.silent state.started = true := by
  cases reading with
  | done => simp [given, reported, Reading.silent]
  | noise => simp [given, Reading.silent]
  | failed error => simp [given, Reading.silent]
  | chunk value => cases started : state.started <;> simp [given, started, Reading.silent]

theorem after_silent (reported : state.reportedFinish = true) {reading : Reading}
    (silent : reading.silent state.started = true) :
    (state.after reading).reportedFinish = true ∧ (state.after reading).started = state.started := by
  cases reading with
  | done => exact ⟨rfl, rfl⟩
  | noise => exact ⟨reported, rfl⟩
  | failed error => exact ⟨rfl, rfl⟩
  | chunk value =>
      rw [Reading.silent, Bool.and_eq_true] at silent
      exact ⟨reported, silent.1.symm⟩

/-- Behind the terminal item nothing is given exactly if every event is silent. -/
theorem gives_eq_nil (reported : state.reportedFinish = true) (readings : List Reading) :
    state.gives readings = [] ↔ ∀ later ∈ readings, later.silent state.started = true := by
  induction readings generalizing state with
  | nil => simp [gives]
  | cons reading readings ih =>
      rw [gives, List.append_eq_nil_iff, given_eq_nil reported, List.forall_mem_cons]
      apply and_congr_right
      intro silent
      obtain ⟨still, same⟩ := after_silent reported silent
      rw [ih still, same]

theorem Live.gives_plain (live : state.Live) {readings : List Reading}
    (more : readings.any Reading.ends = false) :
    (∀ item ∈ state.gives readings, item.isTerminal = false) ∧ (state.afterAll readings).Live ∧
      (state.afterAll readings).started = (state.started || readings.any Reading.isChunk) ∧
      ∀ later, Quiet state.started (readings ++ later) ↔
        Quiet (state.afterAll readings).started later := by
  induction readings generalizing state with
  | nil => exact ⟨by simp [gives], live, by simp [afterAll], fun later => Iff.rfl⟩
  | cons reading readings ih =>
      rw [List.any_cons, Bool.or_eq_false_iff] at more
      obtain ⟨plain, alive, started⟩ := live.goes_on more.1
      obtain ⟨rest, alive', started', quiet⟩ := ih alive more.2
      refine ⟨?_, alive', ?_, fun later => ?_⟩
      · rw [gives, List.forall_mem_append]
        exact ⟨plain, rest⟩
      · rw [List.any_cons, ← Bool.or_assoc, ← started]
        exact started'
      · rw [List.cons_append, Quiet, more.1, if_neg Bool.false_ne_true, ← started]
        exact quiet later

theorem finished_after (reading : Reading) (finished : state.finished = true) :
    (state.after reading).finished = true := by
  cases reading <;> first | exact finished | rfl

theorem finished_afterAll (readings : List Reading) (finished : state.finished = true) :
    (state.afterAll readings).finished = true := by
  induction readings generalizing state with
  | nil => exact finished
  | cons reading readings ih => exact ih (finished_after reading finished)

/-- Readings one of which ends the stream give a single terminal item, in last place, exactly if all
behind the first such reading is silent. -/
theorem Live.gives_ended (live : state.Live) {readings : List Reading}
    (ended : readings.any Reading.ends = true) :
    (∃ item ∈ state.gives readings, item.isTerminal = true) ∧
      (state.afterAll readings).finished = true ∧
      (TerminatesOnce (state.gives readings) ↔ Quiet state.started readings) := by
  induction readings generalizing state with
  | nil => cases ended
  | cons reading readings ih =>
      rw [gives, Quiet]
      cases last : reading.ends with
      | true =>
          obtain ⟨⟨item, only, terminal⟩, finished, reported, started⟩ := live.ends last
          have quiet := gives_eq_nil reported readings
          rw [started] at quiet
          rw [only, if_pos rfl]
          refine ⟨⟨item, List.mem_append_left _ List.mem_cons_self, terminal⟩,
            finished_afterAll readings finished, ?_⟩
          rw [terminatesOnce_append_ended _ ⟨item, List.mem_cons_self, terminal⟩, quiet]
          exact and_iff_right (terminatesOnce_singleton terminal)
      | false =>
          rw [List.any_cons, last, Bool.false_or] at ended
          obtain ⟨plain, alive, started⟩ := live.goes_on last
          obtain ⟨⟨item, member, terminal⟩, finished, once⟩ := ih alive ended
          rw [if_neg Bool.false_ne_true, terminatesOnce_append_plain _ plain, ← started]
          exact ⟨⟨item, List.mem_append_right _ member, terminal⟩, finished, once⟩

end Translation

/-- What the decoder takes from each chunk, up to the chunk that it refuses. -/
def batches (decoder : SseDecoder) : List (List UInt8) → List (Except SseDecodeError (List SseEvent))
  | [] => []
  | chunk :: chunks =>
      match decoder.feed chunk with
      | (.error error, _) => [.error error]
      | (.ok (), decoder) => .ok decoder.drain.1 :: batches decoder.drain.2 chunks

/-- In the first batch with an event that ends the stream, every event behind it is silent. -/
def QuietBatches (serde : Serde) : Bool → List (Except SseDecodeError (List SseEvent)) → Prop
  | _, [] => True
  | _, .error _ :: _ => True
  | started, .ok events :: rest =>
      let readings := events.map (readingOf serde)
      if readings.any Reading.ends then Quiet started readings
      else QuietBatches serde (started || readings.any Reading.isChunk) rest

theorem after_keeps (state : Translation) (reading : Reading) :
    (state.after reading).decoder = state.decoder ∧ (state.after reading).pending = state.pending := by
  cases reading <;> exact ⟨rfl, rfl⟩

theorem afterAll_keeps (state : Translation) (readings : List Reading) :
    (state.afterAll readings).decoder = state.decoder ∧
      (state.afterAll readings).pending = state.pending := by
  induction readings generalizing state with
  | nil => exact ⟨rfl, rfl⟩
  | cons reading readings ih =>
      obtain ⟨decoder, pending⟩ := after_keeps state reading
      obtain ⟨decoder', pending'⟩ := ih (state.after reading)
      exact ⟨decoder'.trans decoder, pending'.trans pending⟩

namespace Translation

variable {state : Translation} {serde : Serde} {ending : BodyEnd}

theorem items_extend (live : state.Live) (items : List (Item BackendError))
    (chunks : List (List UInt8)) :
    (state.extend items).items serde chunks ending = items ++ state.items serde chunks ending := by
  have pending : (state.extend items).pending = items := by
    rw [extend, live.sent, List.nil_append]
  have go : ¬state.finished = true := by simp [live.unfinished]
  have go' : ¬(state.extend items).finished = true := go
  cases chunks with
  | nil =>
      rw [Translation.items, Translation.items, if_neg go, if_neg go', pending, live.sent,
        List.nil_append]
      rfl
  | cons chunk chunks =>
      rw [Translation.items, Translation.items, if_neg go, if_neg go', pending, live.sent,
        List.nil_append]
      rfl

theorem items_finished (finished : state.finished = true) (chunks : List (List UInt8)) :
    state.items serde chunks ending = state.pending := by
  cases chunks <;> rw [Translation.items, if_pos finished]

/-- The item that the end of the body gives. -/
def endItem (state : Translation) : BodyEnd → Item BackendError
  | .closed => state.finishEvent.1
  | .broken failure => .failure (transportError failure)

theorem endItem_terminal (state : Translation) (ending : BodyEnd) :
    (state.endItem ending).isTerminal = true := by
  cases ending <;> rfl

theorem Live.items_nil (live : state.Live) : state.items serde [] ending = [state.endItem ending] := by
  cases ending <;>
    simp [Translation.items, live.unfinished, live.sent, absorbEnd, live.unreported, push,
      finishEvent, endItem]

theorem Live.items_cons (live : state.Live) (chunk : List UInt8) (chunks : List (List UInt8)) :
    state.items serde (chunk :: chunks) ending =
      (absorbBytes serde state chunk).items serde chunks ending := by
  have go : ¬state.finished = true := by simp [live.unfinished]
  have emptied : { state with pending := [] } = state := by
    have sent := live.sent
    obtain ⟨_, pending, _, _, _, _, _⟩ := state
    cases sent
    rfl
  rw [Translation.items, if_neg go, emptied, live.sent, List.nil_append]

theorem Live.items_refused (live : state.Live) {chunk : List UInt8} (chunks : List (List UInt8))
    {error : SseDecodeError} {decoder : SseDecoder}
    (refused : state.decoder.feed chunk = (.error error, decoder)) :
    state.items serde (chunk :: chunks) ending =
      [.failure (.generationFailed (decodeErrorText error))] := by
  rw [live.items_cons, absorbBytes, refused]
  refine (items_finished rfl chunks).trans ?_
  exact congrArg (· ++ [_]) live.sent

/-- A chunk that the decoder takes gives the items of its events. -/
theorem Live.items_taken (live : state.Live) {chunk : List UInt8} (chunks : List (List UInt8))
    {decoder : SseDecoder} (taken : state.decoder.feed chunk = (.ok (), decoder)) :
    let next := { state with decoder := decoder.drain.2 }
    let readings := decoder.drain.1.map (readingOf serde)
    state.items serde (chunk :: chunks) ending =
      next.gives readings ++
        if readings.any Reading.ends then [] else (next.afterAll readings).items serde chunks ending := by
  intro next readings
  have live' : next.Live := ⟨live.unfinished, live.unreported, live.sent⟩
  have absorbed : absorbBytes serde state chunk =
      (next.afterAll readings).extend (next.gives readings) := by
    rw [absorbBytes, taken]
    exact foldl_absorb serde next decoder.drain.1
  rw [live.items_cons, absorbed]
  cases ended : readings.any Reading.ends with
  | true =>
      have pending : (next.afterAll readings).pending = [] :=
        (afterAll_keeps next readings).2.trans live.sent
      have finished : ((next.afterAll readings).extend (next.gives readings)).finished = true :=
        (live'.gives_ended ended).2.1
      rw [items_finished finished, if_pos rfl, List.append_nil, extend, pending, List.nil_append]
  | false =>
      rw [if_neg Bool.false_ne_true]
      exact items_extend (live'.gives_plain ended).2.1 _ chunks

/-- The stream has a single terminal item, in last place, exactly if the batch that ends it is silent
behind its end. -/
theorem Live.terminatesOnce_iff (live : state.Live) (chunks : List (List UInt8)) :
    TerminatesOnce (state.items serde chunks ending) ↔
      QuietBatches serde state.started (batches state.decoder chunks) := by
  induction chunks generalizing state with
  | nil =>
      rw [live.items_nil]
      exact iff_of_true (terminatesOnce_singleton (endItem_terminal state ending)) trivial
  | cons chunk chunks ih =>
      rw [batches]
      rcases fed : state.decoder.feed chunk with ⟨error | _, decoder⟩
      · rw [live.items_refused chunks fed]
        exact iff_of_true (terminatesOnce_singleton rfl) trivial
      · have live' : { state with decoder := decoder.drain.2 }.Live :=
          ⟨live.unfinished, live.unreported, live.sent⟩
        rw [live.items_taken chunks fed]
        dsimp only
        rw [QuietBatches]
        cases ended : (decoder.drain.1.map (readingOf serde)).any Reading.ends with
        | true =>
            rw [if_pos rfl, if_pos rfl, List.append_nil]
            exact (live'.gives_ended ended).2.2
        | false =>
            obtain ⟨plain, alive, started, -⟩ := live'.gives_plain ended
            rw [if_neg Bool.false_ne_true, if_neg Bool.false_ne_true,
              terminatesOnce_append_plain _ plain, ih alive, started, (afterAll_keeps _ _).1]

/-- The items of a stream whose events are all read at once. -/
def total (state : Translation) (serde : Serde) (ending : BodyEnd) (readings : List Reading) :
    List (Item BackendError) :=
  state.gives readings ++
    if readings.any Reading.ends then [] else (state.afterAll readings).items serde [] ending

theorem Agrees.items_nil {other : Translation} (agrees : state.Agrees other) (live : state.Live)
    (live' : other.Live) : state.items serde [] ending = other.items serde [] ending := by
  rw [live.items_nil, live'.items_nil]
  cases ending with
  | closed => exact congrArg (fun item => [item]) agrees.finishEvent
  | broken failure => rfl

theorem Agrees.total {other : Translation} (agrees : state.Agrees other) (live : state.Live)
    (live' : other.Live) (readings : List Reading) :
    state.total serde ending readings = other.total serde ending readings := by
  rw [Translation.total, Translation.total, agrees.gives]
  cases ended : readings.any Reading.ends with
  | true => rfl
  | false =>
      rw [if_neg Bool.false_ne_true, if_neg Bool.false_ne_true,
        (agrees.afterAll readings).items_nil (live.gives_plain ended).2.1 (live'.gives_plain ended).2.1]

theorem total_append (readings more : List Reading) (going : readings.any Reading.ends = false) :
    state.total serde ending (readings ++ more) =
      state.gives readings ++ (state.afterAll readings).total serde ending more := by
  rw [total, total, gives_append, List.append_assoc, List.any_append, going, Bool.false_or, afterAll,
    afterAll, afterAll, List.foldl_append]

/-- One batch of a stream whose later batches give `rest`. -/
theorem Live.batch_iff (live : state.Live) (readings later : List Reading)
    (rest : List (Item BackendError))
    (follows : readings.any Reading.ends = false →
      (TerminatesOnce rest ∧ rest = (state.afterAll readings).total serde ending later ↔
        Quiet (state.afterAll readings).started later)) :
    let items := state.gives readings ++ if readings.any Reading.ends then [] else rest
    TerminatesOnce items ∧ items = state.total serde ending (readings ++ later) ↔
      Quiet state.started (readings ++ later) := by
  intro items
  cases ended : readings.any Reading.ends with
  | true =>
      obtain ⟨terminal, -, -⟩ := live.gives_ended ended
      have ended' : (readings ++ later).any Reading.ends = true := by
        rw [List.any_append, ended, Bool.true_or]
      have whole : state.total serde ending (readings ++ later) =
          state.gives readings ++ (state.afterAll readings).gives later := by
        rw [total, ended', if_pos rfl, List.append_nil, gives_append]
      have only : items = state.gives readings := by
        simp only [items, ended, if_true, List.append_nil]
      rw [only, whole, List.self_eq_append_right, ← (live.gives_ended ended').2.2, gives_append,
        terminatesOnce_append_ended _ terminal]
  | false =>
      obtain ⟨plain, -, -, quiet⟩ := live.gives_plain ended
      have both : items = state.gives readings ++ rest := by
        simp only [items, ended, Bool.false_eq_true, if_false]
      rw [both, total_append readings later ended, terminatesOnce_append_plain _ plain,
        List.append_cancel_left_eq, quiet, follows ended]

/-- Within the limit the chunks give the items of the whole stream, with a single terminal one in
last place, exactly if the stream is silent behind its end. -/
theorem Live.whole_iff (live : state.Live) (waiting : state.decoder.Waiting)
    (drained : state.decoder.ready = []) (chunks : List (List UInt8))
    (within : FramesWithin state.decoder.limit
      (state.decoder.buffer ++ chunks.flatMap fromUtf8Lossy)) :
    let readings :=
      (eventsOf (state.decoder.buffer ++ chunks.flatMap fromUtf8Lossy)).map (readingOf serde)
    TerminatesOnce (state.items serde chunks ending) ∧
        state.items serde chunks ending = state.total serde ending readings ↔
      Quiet state.started readings := by
  induction chunks generalizing state with
  | nil =>
      have nothing : eventsOf (state.decoder.buffer ++ [].flatMap fromUtf8Lossy) = [] := by
        simp [eventsOf, frames_of_none waiting.unfinished]
      rw [nothing]
      refine iff_of_true ⟨?_, rfl⟩ trivial
      rw [live.items_nil]
      exact terminatesOnce_singleton (endItem_terminal state ending)
  | cons chunk chunks ih =>
      rw [List.flatMap_cons, ← List.append_assoc] at within ⊢
      obtain ⟨next, fed, taken, waiting', within', split⟩ := feed_within_next waiting within
      rw [drained, List.nil_append] at taken
      have moved : state.Agrees { state with decoder := next.drain.2 } := ⟨rfl, rfl, rfl, rfl⟩
      have live' : { state with decoder := next.drain.2 }.Live :=
        ⟨live.unfinished, live.unreported, live.sent⟩
      rw [split, ← taken, live.items_taken chunks fed]
      dsimp only
      rw [moved.total live live', List.map_append]
      apply live'.batch_iff
      intro going
      obtain ⟨-, alive, -, -⟩ := live'.gives_plain going
      have held := (afterAll_keeps { state with decoder := next.drain.2 }
        (next.drain.1.map (readingOf serde))).1
      have later := ih alive (held ▸ waiting') (held ▸ rfl) (held ▸ within')
      rw [held] at later
      exact later

end Translation

theorem new_live : Translation.new.Live :=
  ⟨rfl, rfl, rfl⟩

/-- A stream in one chunk, within the limit, gives the items of all its events. -/
theorem translate_single {serde : Serde} {ending : BodyEnd} {bytes : List UInt8}
    (within : byteLen (frames terminators (fromUtf8Lossy bytes)).2 ≤ defaultFrameLimit) :
    translate serde [bytes] ending =
      Translation.new.total serde ending ((eventsOf (fromUtf8Lossy bytes)).map (readingOf serde)) := by
  have fed : SseDecoder.new.feed bytes = _ :=
    feed_within (withLimit_waiting defaultFrameLimit) within
  have moved (decoder : SseDecoder) :
      { Translation.new with decoder := decoder }.Agrees Translation.new := ⟨rfl, rfl, rfl, rfl⟩
  rw [translate, new_live.items_taken [] fed]
  exact (moved _).total ⟨rfl, rfl, rfl⟩ new_live _

/-- The items of a stream are plain events and then a single terminal item exactly if, in the chunk
that ends the stream, every event behind the end is silent. Of a stream within the limit whose chunks
keep every value whole, the items are so and are those of the stream in one chunk exactly if every
event behind the end of the stream is silent. -/
theorem translate_terminates_once_iff (serde : Serde) (chunks : List (List UInt8))
    (ending : BodyEnd) :
    (TerminatesOnce (translate serde chunks ending) ↔
      QuietBatches serde false (batches SseDecoder.new chunks)) ∧
    (FramesWithin defaultFrameLimit (chunks.flatMap fromUtf8Lossy) → KeptWhole chunks →
      (TerminatesOnce (translate serde chunks ending) ∧
          translate serde chunks ending = translate serde [chunks.flatten] ending ↔
        Quiet false ((eventsOf (fromUtf8Lossy chunks.flatten)).map (readingOf serde)))) := by
  refine ⟨new_live.terminatesOnce_iff chunks, fun within whole => ?_⟩
  rw [translate_single ((rest_whole_le chunks).trans within.2), ← (eventsOf_chunks_iff chunks).mpr whole]
  exact new_live.whole_iff (withLimit_waiting defaultFrameLimit) rfl chunks within

/-- A reader of JSON as far as the samples need it. -/
def braceSerde : Serde :=
  { fromStr := fun text => if text = ['{', '}'] then some (.object []) else none
    toString := fun _ => ['{', '}'] }

/-- `data: [DONE]` and a blank line. -/
def doneBytes : List UInt8 :=
  [0x64, 0x61, 0x74, 0x61, 0x3A, 0x20, 0x5B, 0x44, 0x4F, 0x4E, 0x45, 0x5D, 0x0A, 0x0A]

/-- `data: {}` and a blank line. -/
def braceBytes : List UInt8 :=
  [0x64, 0x61, 0x74, 0x61, 0x3A, 0x20, 0x7B, 0x7D, 0x0A, 0x0A]

theorem translate_terminates_once_cut :
    let chunks := [braceBytes.take 9, braceBytes.drop 9 ++ doneBytes.take 9, doneBytes.drop 9]
    TerminatesOnce (translate braceSerde chunks .closed) ∧
      translate braceSerde chunks .closed = translate braceSerde [braceBytes ++ doneBytes] .closed :=
  ((translate_terminates_once_iff braceSerde
    [braceBytes.take 9, braceBytes.drop 9 ++ doneBytes.take 9, doneBytes.drop 9] .closed).2
    (by decide) (by decide)).mpr (by decide)

/-- Behind `[DONE]` the chunk that holds it is still read: the client is told that the engine has
started once the generation has finished, unless the chunk was cut in between. -/
theorem event_behind_done_emitted :
    ¬TerminatesOnce (translate braceSerde [doneBytes ++ braceBytes] .closed) ∧
      translate braceSerde [doneBytes ++ braceBytes] .closed ≠
        translate braceSerde [doneBytes, braceBytes] .closed := by
  have emitted : translate braceSerde [doneBytes ++ braceBytes] .closed =
      [.event (.finished .length Usage.zero)] ++ [.event (.started none)] := by
    decide
  refine ⟨?_, by decide⟩
  rw [emitted, terminatesOnce_concat]
  rintro ⟨-, terminal⟩
  exact absurd terminal Bool.false_ne_true

end Lightweight.Backend
