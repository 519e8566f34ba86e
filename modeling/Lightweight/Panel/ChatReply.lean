import Lightweight.Panel.ChatReader
import Lightweight.Gateway.WireFrames
import Lightweight.Gateway.ChatAgreement

/-! A reply on its whole way to the panel: the gateway's frames as JSON in the stream, the stream as
bytes that the network cuts anywhere, and the panel's reading of them. -/

namespace Lightweight.Panel

open Framing Utf8 Core Router Store Api Inference Gateway

/-! ### The frames of the panel -/

/-- The panel finds a written frame where the codec does. -/
theorem earliest_separators {lines : List (List Char)} (nonempty : lines ≠ [])
    (fit : ∀ line ∈ lines, Line line) :
    earliest separators (framed lines) =
      some ((['\n'].intercalate lines).length, (framed lines).length) := by
  have whole := framed_eq_append nonempty
  apply separators_settled.earliest_eq
  constructor
  · refine ⟨['\n', '\n'], List.mem_singleton_self _, [], ?_, ?_, ?_⟩
    · rw [whole, List.take_left' rfl, List.append_nil]
    · rw [whole]
      simp
    · rw [whole]
      simp
  · intro separator listed front back occurs
    rw [List.mem_singleton.mp listed] at occurs
    rw [framed_first_blank fit occurs]

theorem frames_separators {lines : List (List Char)} (nonempty : lines ≠ [])
    (fit : ∀ line ∈ lines, Line line) (rest : List Char) :
    frames separators (framed lines ++ rest) =
      ((['\n'].intercalate lines, framed lines) :: (frames separators rest).1,
        (frames separators rest).2) := by
  have found := separators_settled.earliest_append rest (earliest_separators nonempty fit)
  have content : (framed lines ++ rest).take (['\n'].intercalate lines).length =
      ['\n'].intercalate lines := by
    rw [framed_eq_append nonempty, List.append_assoc]
    exact List.take_left' rfl
  rw [separators_settled.frames_of_some found, content, List.take_left' rfl, List.drop_left' rfl]

theorem frames_separators_encoded {items : List Core.Item}
    (plain : ∀ item ∈ items, '\r' ∉ item.text) :
    frames separators (items.flatMap Core.Item.encoded) =
      (items.map fun item => (['\n'].intercalate item.lines, item.encoded), []) := by
  induction items with
  | nil => rfl
  | cons item items ih =>
      rw [List.forall_mem_cons] at plain
      rw [List.flatMap_cons, Core.Item.encoded_eq_framed plain.1,
        frames_separators item.lines_ne_nil (Core.Item.lines_fit plain.1), ih plain.2,
        List.map_cons, Core.Item.encoded_eq_framed plain.1]

/-! ### One frame -/

/-- Nothing is trimmed off an object. -/
theorem jsTrim_braced (inner : List Char) :
    jsTrim ('{' :: inner ++ ['}']) = '{' :: inner ++ ['}'] := by
  have front : isJsSpace '{' = false := by decide
  have back : isJsSpace '}' = false := by decide
  rw [jsTrim, List.cons_append, List.dropWhile_cons_of_neg (by simp [front]), ← List.cons_append,
    List.rdropWhile_concat_neg _ _ _ (by simp [back])]

theorem payloadOf_oneLine {line : List Char} (plain : OneLine line) :
    payloadOf line =
      if dataPrefix.isPrefixOf line then some (jsTrim (line.drop dataPrefix.length)) else none := by
  rw [payloadOf, List.splitOn_eq_singleton (oneLine_not_mem plain).1, List.find?_singleton]
  split
  · rfl
  · rfl

theorem payloadOf_item {item : Core.Item} (plain : OneLine item.text) :
    payloadOf (['\n'].intercalate item.lines) =
      match item with
      | .data payload => some (jsTrim payload)
      | .comment _ => none := by
  have line : OneLine (item.before ++ item.text) := by
    rw [oneLine_append]
    refine ⟨?_, plain⟩
    cases item with
    | data payload => exact (by decide : OneLine ['d', 'a', 't', 'a', ':', ' '])
    | comment text => exact (by decide : OneLine [':', ' '])
  rw [lines_of_oneLine plain, List.intercalate_singleton, payloadOf_oneLine line]
  cases item with
  | data payload => rfl
  | comment text => rfl

/-! ### One chunk -/

/-- The panel has heard as much as any client that reads whole chunks. -/
structure Agrees (turn : Turn) (client : Client) : Prop where
  answer : turn.answer = client.content
  reasoning : turn.reasoning = client.reasoning
  completionTokens : turn.completionTokens =
    .number (.posInt ((client.usage.map UsageBody.completionTokens).getD 0))
  promptTokens : turn.promptTokens =
    .number (.posInt ((client.usage.map UsageBody.promptTokens).getD 0))

theorem start_agrees : Agrees Turn.start Client.start := ⟨rfl, rfl, rfl, rfl⟩

section Hearing

variable {js : JavaScript} {turn : Turn} {client : Client}

theorem append_content (text : List Char) (delta : Option Delta) :
    js.append text ((delta.map fun delta => delta.toContent.toValue).bind
      (Value.get "content".toList)) = text ++ (delta.bind Delta.content).getD [] := by
  cases delta with
  | none => exact (List.append_nil text).symm
  | some delta =>
      rw [Option.map_some, Option.bind_some, Option.bind_some, Delta.get_content]
      cases delta.content with
      | none => exact (List.append_nil text).symm
      | some more => rfl

theorem append_reasoning (text : List Char) (delta : Option Delta) :
    js.append text ((delta.map fun delta => delta.toContent.toValue).bind
      (Value.get "reasoning_content".toList)) =
        text ++ (delta.bind Delta.reasoningContent).getD [] := by
  cases delta with
  | none => exact (List.append_nil text).symm
  | some delta =>
      rw [Option.map_some, Option.bind_some, Option.bind_some, Delta.get_reasoningContent]
      cases delta.reasoningContent with
      | none => exact (List.append_nil text).symm
      | some more => rfl

/-- The delta that the panel reads of a chunk. -/
theorem delta_of_chunk (chunk : ChatCompletionChunk) :
    ((chunk.toContent.toValue.get "choices".toList).bind firstOf).bind (Value.get "delta".toList) =
      (chunk.choices.head?.map ChunkChoice.delta).map fun delta => delta.toContent.toValue := by
  rw [ChatCompletionChunk.get_choices, Option.bind_some, firstOf, List.head?_map]
  cases chunk.choices.head? with
  | none => rfl
  | some choice => exact choice.get_delta

/-- The turn with the texts of a delta behind what it holds. -/
def Turn.withDelta (turn : Turn) (delta : Option Delta) : Turn :=
  { turn with
    answer := turn.answer ++ (delta.bind Delta.content).getD []
    reasoning := turn.reasoning ++ (delta.bind Delta.reasoningContent).getD [] }

/-- The turn with the counts of a usage in the place of its own. -/
def Turn.withUsage (turn : Turn) (usage : UsageBody) : Turn :=
  { turn with
    completionTokens := .number (.posInt usage.completionTokens)
    promptTokens := .number (.posInt usage.promptTokens) }

theorem hearUsage_toContent (usage : UsageBody) :
    turn.hearUsage usage.toContent.toValue = turn.withUsage usage := by
  rw [Turn.hearUsage, usage.get_tokens.1, usage.get_tokens.2]
  rfl

theorem hear_chunk (chunk : ChatCompletionChunk) :
    turn.hear js chunk.toContent.toValue =
      chunk.usage.elim (turn.withDelta (chunk.choices.head?.map ChunkChoice.delta))
        (turn.withDelta (chunk.choices.head?.map ChunkChoice.delta)).withUsage := by
  have object : chunk.toContent.toValue ≠ .null := fun h => Value.noConfusion h
  have counted := ChatCompletionChunk.get_usage chunk
  rw [Turn.hear.eq_2 js turn _ object, delta_of_chunk]
  simp only [append_content, append_reasoning]
  cases usage : chunk.usage with
  | none =>
      rw [usage] at counted
      simp only [counted, Option.map_none]
      rfl
  | some usage' =>
      rw [usage] at counted
      simp only [counted, Option.map_some]
      exact hearUsage_toContent usage'

theorem foldl_hearChoice_usage (choices : List ChunkChoice) (client : Client) :
    (choices.foldl Client.hearChoice client).usage = client.usage := by
  induction choices generalizing client with
  | nil => rfl
  | cons choice choices ih => exact ih (client.hearChoice choice)

/-- The chunks of the gateway have one choice at most; the panel reads no other. -/
theorem Agrees.hear (agrees : Agrees turn client) {chunk : ChatCompletionChunk}
    (single : chunk.choices.length ≤ 1) :
    Agrees (turn.hear js chunk.toContent.toValue) (client.hear (.chunk chunk)) := by
  have texts : Agrees (turn.withDelta (chunk.choices.head?.map ChunkChoice.delta))
      (chunk.choices.foldl Client.hearChoice client) := by
    cases chosen : chunk.choices with
    | nil =>
        have same : turn.withDelta none = turn := by simp [Turn.withDelta]
        exact same.symm ▸ agrees
    | cons choice others =>
        have alone : others = [] := by
          rw [chosen, List.length_cons] at single
          exact List.eq_nil_of_length_eq_zero (by omega)
        subst alone
        exact ⟨congrArg (· ++ _) agrees.answer, congrArg (· ++ _) agrees.reasoning,
          agrees.completionTokens, agrees.promptTokens⟩
  rw [hear_chunk]
  cases counted : chunk.usage with
  | none =>
      have heard : client.hear (.chunk chunk) = chunk.choices.foldl Client.hearChoice client := by
        rw [Client.hear, counted, Option.none_or, ← foldl_hearChoice_usage chunk.choices client]
      exact heard.symm ▸ texts
  | some usage =>
      refine ⟨texts.answer, texts.reasoning, ?_, ?_⟩
      · simp [Turn.withUsage, Client.hear, counted]
      · simp [Turn.withUsage, Client.hear, counted]

/-! ### The whole reply -/

theorem encodeLines_head {before text : List Char} (some_ : before ≠ []) :
    (encodeLines before text).head? = before.head? := by
  cases lines : text.splitOn '\n' with
  | nil => exact absurd lines (List.splitOn_ne_nil '\n' text)
  | cons line lines' =>
      rw [encodeLines, lines, List.flatMap_cons]
      simp [List.head?_append, List.head?_eq_some_head some_]

/-- The stream begins with no byte order mark. -/
theorem wireText_head (float : UInt64 → List Char) (sent : List Frame) :
    (wireText float sent).head? ≠ some byteOrderMark := by
  cases sent with
  | nil => exact (by decide : ([] : List Char).head? ≠ some byteOrderMark)
  | cons frame sent =>
      have first : (wireText float (frame :: sent)).head? = (frame.item float).encoded.head?.or
          (wireText float sent).head? := List.head?_append
      rw [first]
      cases frame.item float with
      | data payload =>
          rw [Core.Item.encoded, encodeData, encodeLines_head (List.cons_ne_nil _ _)]
          exact (by decide : some 'd' ≠ some byteOrderMark)
      | comment text =>
          rw [Core.Item.encoded, encodeComment, encodeLines_head (List.cons_ne_nil _ _)]
          exact (by decide : some ':' ≠ some byteOrderMark)

section Reading

variable {float : UInt64 → List Char} (digits : ∀ bits, OneLine (float bits))

include digits

/-- A frame of the gateway is to the panel what it is to any other client. -/
theorem Agrees.readFrame (agrees : Agrees turn client) {frame : Frame} (plain : Plain frame)
    (parsed : ∀ chunk, frame = .chunk chunk →
      js.parse (chunk.toContent.compact float) = some chunk.toContent.toValue) :
    Agrees (turn.readFrame js (['\n'].intercalate (frame.item float).lines))
      (client.hear frame) := by
  rw [Turn.readFrame, payloadOf_item (oneLine_item digits plain)]
  cases frame with
  | comment text => exact agrees
  | done => exact agrees
  | chunk chunk =>
      have braced : chunk.toContent.compact float =
          '{' :: compactMembers float _ ++ ['}'] := rfl
      have open_ : chunk.toContent.compact float ≠ doneData := by
        intro same
        rw [braced, List.cons_append] at same
        cases same
      have payload : jsTrim (chunk.toContent.compact float) = chunk.toContent.compact float := by
        rw [braced]
        exact jsTrim_braced _
      simp only [Frame.item, payload, Turn.readPayload, if_neg open_, parsed chunk rfl]
      exact agrees.hear plain

theorem Agrees.foldl (agrees : Agrees turn client) {sent : List Frame}
    (plain : ∀ frame ∈ sent, Plain frame)
    (parsed : ∀ chunk, .chunk chunk ∈ sent →
      js.parse (chunk.toContent.compact float) = some chunk.toContent.toValue) :
    Agrees ((sent.map fun frame => ['\n'].intercalate (frame.item float).lines).foldl
      (Turn.readFrame js) turn) (sent.foldl Client.hear client) := by
  induction sent generalizing turn client with
  | nil => exact agrees
  | cons frame sent ih =>
      rw [List.forall_mem_cons] at plain
      have here : Agrees (turn.readFrame js (['\n'].intercalate (frame.item float).lines))
          (client.hear frame) :=
        agrees.readFrame digits plain.1 fun chunk same => parsed chunk (same ▸ List.mem_cons_self)
      exact ih here plain.2 fun chunk member => parsed chunk (List.mem_cons_of_mem _ member)

/-- Frames on the wire, however they are cut, are to the panel what they are to any other client. -/
theorem readAll_agrees {sent : List Frame} (plain : ∀ frame ∈ sent, Plain frame)
    (parsed : ∀ chunk, .chunk chunk ∈ sent →
      js.parse (chunk.toContent.compact float) = some chunk.toContent.toValue)
    {values : List (List UInt8)} (arrived : values.flatten = encode (wireText float sent)) :
    Agrees (readAll js values).turn (sent.foldl Client.hear Client.start) := by
  have returns : ∀ item ∈ sent.map (Frame.item float), '\r' ∉ item.text := by
    intro item member
    obtain ⟨frame, listed, rfl⟩ := List.mem_map.mp member
    exact (oneLine_not_mem (oneLine_item digits (plain frame listed))).2
  have cut : frames separators (wireText float sent) =
      (sent.map fun frame => (['\n'].intercalate (frame.item float).lines,
        (frame.item float).encoded), []) := by
    have items := frames_separators_encoded returns
    rw [List.flatMap_map, List.map_map] at items
    exact items
  have turn : (readAll js values).turn =
      (sent.map fun frame => ['\n'].intercalate (frame.item float).lines).foldl
        (Turn.readFrame js) Turn.start := by
    rw [readAll, foldl_read start_idle, arrived]
    simp only [Reader.read, Reader.take, Reader.start, List.nil_append,
      TextDecoder.decode_encode (wireText_head float sent), cut, List.map_map]
    rfl
  rw [turn]
  exact start_agrees.foldl digits plain parsed

end Reading

end Hearing

/-! ### The reply in the panel -/

variable {ε : Type}

variable {js : JavaScript} {float : UInt64 → List Char}

/-- Whatever comes of a request, a generation behind any wait in the queue, a failure at any point of
it, or a refusal, and however the network cuts the stream, the panel shows what the frames add up to
for a client that is handed them whole. -/
theorem panel_hears_reply (js : JavaScript) (digits : ∀ bits, OneLine (float bits))
    (errors : Errors ε) (source : Source ε) (builder : ChunkBuilder) (includeUsage : Bool)
    (parsed : ∀ chunk, .chunk chunk ∈ encodeSource errors source builder includeUsage →
      js.parse (chunk.toContent.compact float) = some chunk.toContent.toValue)
    {values : List (List UInt8)} (arrived : values.flatten =
      encode (wireText float (encodeSource errors source builder includeUsage))) :
    let turn := (readAll js values).turn
    let reply := streamedReply (encodeSource errors source builder includeUsage)
    turn.answer = reply.content ∧ turn.reasoning = reply.reasoning ∧
      turn.completionTokens =
        .number (.posInt ((reply.usage.map UsageBody.completionTokens).getD 0)) ∧
      turn.promptTokens = .number (.posInt ((reply.usage.map UsageBody.promptTokens).getD 0)) := by
  have agrees := readAll_agrees digits (plainAll_encodeSource source builder includeUsage) parsed
    arrived
  exact ⟨agrees.answer, agrees.reasoning, agrees.completionTokens, agrees.promptTokens⟩

/-- The wait in the queue adds nothing to the reply. -/
theorem streamedReply_granted (errors : Errors ε) (notices : List Notice) (arrivals : List (Arrival ε))
    (builder : ChunkBuilder) (includeUsage : Bool) :
    streamedReply (encodeSource errors (.queued notices (.granted (.ok arrivals))) builder
      includeUsage) = streamedReply (encode errors arrivals builder includeUsage) := by
  obtain ⟨comments, only, queued⟩ :=
    encodeSource_admitted errors builder includeUsage notices arrivals
  have unfinished : (opening builder includeUsage (.running arrivals)).finished = false := rfl
  have running : encode errors arrivals builder includeUsage =
      [.chunk builder.role] ++ (admitted builder includeUsage arrivals).frames errors
        (arrivals.length + 1 + 1) :=
    Encoder.frames_drained unfinished (arrivals.length + 1)
  rw [streamedReply, streamedReply, queued, running, List.foldl_cons, List.foldl_append,
    foldl_comments only, List.singleton_append, List.foldl_cons]

/-- What the panel shows of a generation that finishes, behind a wait in the queue and with the timer
anywhere between its events, is what the reply in one piece has. -/
theorem panel_reply_aggregated (js : JavaScript) (digits : ∀ bits, OneLine (float bits))
    (errors : Errors ε) (id model : List Char) (builder : ChunkBuilder) (notices : List Notice)
    {events : List GenerationEvent} {reason : FinishReason} {usage : Usage}
    (unfinished : ∀ event ∈ events, event.isFinished = false) (recorded : Measurable events)
    {arrivals : List (Arrival ε)}
    (items : arrivals.filterMap Arrival.item? = terminated events reason usage)
    (parsed : ∀ chunk, .chunk chunk ∈
        encodeSource errors (.queued notices (.granted (.ok arrivals))) builder true →
      js.parse (chunk.toContent.compact float) = some chunk.toContent.toValue)
    {values : List (List UInt8)} (arrived : values.flatten = encode (wireText float
      (encodeSource errors (.queued notices (.granted (.ok arrivals))) builder true))) :
    ∃ response reply, aggregate errors id model (terminated events reason usage) =
        some (.ok response) ∧
      response.reply true = some reply ∧
      (readAll js values).turn =
        { answer := reply.content
          reasoning := reply.reasoning
          completionTokens := .number (.posInt usage.completionTokens)
          promptTokens := .number (.posInt usage.promptTokens) } := by
  obtain ⟨response, answered, shown⟩ :=
    aggregate_terminated errors id model unfinished recorded reason usage true
  refine ⟨response, _, answered, shown, ?_⟩
  have streamed := streamedReply_granted errors notices arrivals builder true
  rw [streamedReply_encode errors unfinished items recorded] at streamed
  have agrees := readAll_agrees digits (plainAll_encodeSource _ builder true) parsed arrived
  have content : (readAll js values).turn.answer = contentOf events :=
    agrees.answer.trans (congrArg Reply.content streamed)
  have reasoning : (readAll js values).turn.reasoning = reasoningOf events :=
    agrees.reasoning.trans (congrArg Reply.reasoning streamed)
  have counted : (List.foldl Client.hear Client.start (encodeSource errors
      (.queued notices (.granted (.ok arrivals))) builder true)).usage =
      some (UsageBody.ofUsage usage) := congrArg Reply.usage streamed
  have completion := agrees.completionTokens
  have prompt := agrees.promptTokens
  rw [counted] at completion prompt
  generalize (readAll js values).turn = turn at content reasoning completion prompt
  cases turn
  cases content
  cases reasoning
  cases completion
  cases prompt
  rfl

/-! ### A reply cut inside a character -/

def scriptOf (chunks : List ChatCompletionChunk) : JavaScript where
  parse := parserOf noDigits chunks
  asText _ := []

/-- The timer, and a word. -/
def briefArrivals : List (Arrival Unit) :=
  [.tick, .item (.event (.contentDelta ['é'])), .item (.event (.finished .stop Usage.zero))]

/-- It is asked for behind one other request. -/
def briefFrames : List Frame :=
  encodeSource sampleErrors (.queued [⟨some 1, 2⟩] (.granted (.ok briefArrivals))) sampleBuilder true

def briefBytes : List UInt8 := encode (wireText noDigits briefFrames)

theorem panel_reply_aggregated_brief :
    ∃ response reply, aggregate sampleErrors [] []
        (terminated [.contentDelta ['é']] .stop Usage.zero) = some (.ok response) ∧
      response.reply true = some reply ∧
      (readAll (scriptOf (chunksOf briefFrames))
          [briefBytes.take 317, briefBytes.drop 317]).turn =
        { answer := reply.content
          reasoning := reply.reasoning
          completionTokens := .number (.posInt Usage.zero.completionTokens)
          promptTokens := .number (.posInt Usage.zero.promptTokens) } := by
  have apart : ((chunksOf briefFrames).map fun chunk => chunk.toContent.compact noDigits).Nodup := by
    decide +kernel
  have arrived : [briefBytes.take 317, briefBytes.drop 317].flatten = briefBytes := by simp
  exact panel_reply_aggregated _ noDigits_oneLine sampleErrors [] [] sampleBuilder _ (by decide)
    (by simp [Lightweight.Gateway.Measurable]) rfl (fun chunk sent => parserOf_chunk apart (mem_chunksOf sent)) arrived

/-- A request that is refused at its deadline. -/
def refusedFrames : List Frame :=
  encodeSource sampleErrors (.queued [⟨none, 0⟩] .deadline) sampleBuilder true

theorem panel_hears_reply_refused :
    let turn := (readAll (scriptOf (chunksOf refusedFrames))
      [encode (wireText noDigits refusedFrames)]).turn
    let reply := streamedReply refusedFrames
    turn.answer = reply.content ∧ turn.reasoning = reply.reasoning ∧
      turn.completionTokens =
        .number (.posInt ((reply.usage.map UsageBody.completionTokens).getD 0)) ∧
      turn.promptTokens = .number (.posInt ((reply.usage.map UsageBody.promptTokens).getD 0)) := by
  have apart : ((chunksOf refusedFrames).map fun chunk => chunk.toContent.compact noDigits).Nodup := by
    decide +kernel
  exact panel_hears_reply _ noDigits_oneLine sampleErrors _ sampleBuilder true
    (fun chunk sent => parserOf_chunk apart (mem_chunksOf sent)) (List.flatten_singleton)

end Lightweight.Panel
