import Lightweight.Gateway.WireFrames
import Lightweight.Router.RewriterEnding

/-! A gateway's streamed reply behind the router: what a client is sent of it, and how it ends. -/

namespace Lightweight.Router

open Framing Utf8 Lightweight.Core Lightweight.Inference Lightweight.Api Lightweight.Gateway
  Lightweight.Store

/-- The printer of the values is `serde_json`'s own. -/
def printing (fromStr : List Char → Option Value) (float : UInt64 → List Char) : Serde where
  fromStr
  toString value := (Content.ofValue value).compact float

/-- An event under the name of the route. -/
def Value.renamed (publicModel : List Char) : Value → Value
  | .object event => .object (Map.insert modelKey (.string publicModel) event)
  | value => value

/-- What the client is sent of a frame of the gateway. -/
def relayedItem (float : UInt64 → List Char) (publicModel : List Char) : Frame → Core.Item
  | .chunk chunk =>
      .data ((Content.ofValue (chunk.toContent.toValue.renamed publicModel)).compact float)
  | .comment text => .comment text
  | .done => .data doneData

/-- The frame is an end of the stream to the router. -/
def endsStream : Frame → Bool
  | .chunk chunk => chunk.error.isSome
  | .comment _ => false
  | .done => true

/-! ### One frame -/

theorem dataValue_data (payload : List Char) :
    dataValue (['d', 'a', 't', 'a', ':', ' '] ++ payload) = some payload := by
  simp [dataValue, dataMark, stripSpace]

theorem dataValue_comment (text : List Char) : dataValue ([':', ' '] ++ text) = none := by
  simp [dataValue, dataMark]

theorem linesOf_item {item : Core.Item} (plain : OneLine item.text) :
    linesOf (['\n'].intercalate item.lines) = [item.before ++ item.text] := by
  rw [linesOf_intercalate (Core.Item.lines_fit (oneLine_not_mem plain).2), lines_of_oneLine plain]

theorem dataLines_item {item : Core.Item} (plain : OneLine item.text) :
    dataLines (['\n'].intercalate item.lines) =
      match item with
      | .data payload => [payload]
      | .comment _ => [] := by
  rw [dataLines, linesOf_item plain]
  cases item with
  | data payload => rw [Core.Item.before, Core.Item.text, List.filterMap_cons, dataValue_data]; rfl
  | comment text => rw [Core.Item.before, Core.Item.text, List.filterMap_cons, dataValue_comment]; rfl

theorem trim_braced (inner : List Char) :
    trim ('{' :: inner ++ ['}']) = '{' :: inner ++ ['}'] := by
  have front : isWhitespace '{' = false := by decide
  have back : isWhitespace '}' = false := by decide
  rw [trim, List.cons_append, List.dropWhile_cons_of_neg (by simp [front]), ← List.cons_append,
    List.rdropWhile_concat_neg _ _ _ (by simp [back])]

variable {fromStr : List Char → Option Value} {float : UInt64 → List Char} {publicModel : List Char}

/-- The bytes of an item, without and with what ends its frame. -/
def itemFrame (item : Core.Item) : List UInt8 × List UInt8 :=
  (encode (['\n'].intercalate item.lines), encode item.encoded)

theorem inspect_comment (serde : Serde) {text : List Char}
    (plain : OneLine (Core.Item.comment text).text) :
    inspect serde (itemFrame (.comment text)).1 = .other := by
  have lines := dataLines_item plain
  simp [itemFrame, inspect, fromUtf8_encode, lines]

theorem inspect_done (serde : Serde) : inspect serde (itemFrame (.data doneData)).1 = .done := by
  have plain : OneLine (Core.Item.data doneData).text := (by decide : OneLine doneData)
  have lines := dataLines_item plain
  have same : trim doneData = doneData := by decide
  simp [itemFrame, inspect, fromUtf8_encode, lines, same]

theorem otherLines_data {payload : List Char} (plain : OneLine (Core.Item.data payload).text) :
    otherLines (['\n'].intercalate (Core.Item.data payload).lines) = [] := by
  have mine : dataValue ((Core.Item.data payload).before ++ (Core.Item.data payload).text) =
      some payload := dataValue_data payload
  rw [otherLines, linesOf_item plain, List.filter_cons_of_neg (by rw [mine]; exact Bool.false_ne_true),
    List.filter_nil]

/-- The router reads a chunk as its object. -/
theorem inspect_chunk (digits : ∀ bits, OneLine (float bits)) {chunk : ChatCompletionChunk}
    {event : Map} (object : chunk.toContent.toValue = .object event) {serde : Serde}
    (parsed : serde.fromStr (chunk.toContent.compact float) = some chunk.toContent.toValue) :
    inspect serde (itemFrame (Frame.item float (.chunk chunk))).1 = .object event [] := by
  have plain : OneLine (Core.Item.data (chunk.toContent.compact float)).text := oneLine_compact digits _
  have lines := dataLines_item plain
  have braced : chunk.toContent.compact float = '{' :: compactMembers float _ ++ ['}'] := rfl
  have other : trim (chunk.toContent.compact float) ≠ doneData := by
    rw [braced, trim_braced, List.cons_append]
    exact fun same => absurd (List.cons.inj same).1 (by decide)
  rw [object] at parsed
  simp [itemFrame, Frame.item, inspect, fromUtf8_encode, lines, otherLines_data plain, other, parsed]

theorem printing_output (publicModel : List Char) (digits : ∀ bits, OneLine (float bits)) {frame : Frame} (plain : Plain frame)
    (parsed : ∀ chunk, frame = .chunk chunk →
      fromStr (chunk.toContent.compact float) = some chunk.toContent.toValue) :
    (inspect (printing fromStr float) (itemFrame (frame.item float)).1).output
        (printing fromStr float) publicModel (itemFrame (frame.item float)).2 =
      encode (relayedItem float publicModel frame).encoded := by
  cases frame with
  | comment text => rw [Frame.item, inspect_comment _ plain]; rfl
  | done => rw [Frame.item, inspect_done]; rfl
  | chunk chunk =>
      have parsed : (printing fromStr float).fromStr (chunk.toContent.compact float) =
          some chunk.toContent.toValue := parsed chunk rfl
      have named := chunk.get_model
      cases object : chunk.toContent.toValue with
      | object event =>
          rw [object] at named
          have names : namesModel event = true := by
            have model : Map.get modelKey event = some (.string chunk.model) := named
            rw [namesModel, model]
          rw [inspect_chunk digits object parsed, Sight.output, if_pos names, rewrite, relayedItem,
            object]
          rfl
      | _ => rw [object] at named; cases named

theorem printing_ends (digits : ∀ bits, OneLine (float bits)) {frame : Frame} (plain : Plain frame)
    (parsed : ∀ chunk, frame = .chunk chunk →
      fromStr (chunk.toContent.compact float) = some chunk.toContent.toValue) :
    (inspect (printing fromStr float) (itemFrame (frame.item float)).1).ends = endsStream frame := by
  cases frame with
  | comment text => rw [Frame.item, inspect_comment _ plain]; rfl
  | done => rw [Frame.item, inspect_done]; rfl
  | chunk chunk =>
      have parsed : (printing fromStr float).fromStr (chunk.toContent.compact float) =
          some chunk.toContent.toValue := parsed chunk rfl
      have failed := chunk.get_error
      cases object : chunk.toContent.toValue with
      | object event =>
          rw [object] at failed
          rw [inspect_chunk digits object parsed]
          exact failed
      | _ => cases object

/-! ### The whole stream -/

/-- The frames that the router finds in a stream of the gateway. -/
theorem frames_wireText (digits : ∀ bits, OneLine (float bits)) {sent : List Frame}
    (plain : PlainAll sent) :
    frames byteTerminators (encode (wireText float sent)) =
      (sent.map fun frame => itemFrame (frame.item float), []) := by
  have returns : ∀ item ∈ sent.map (Frame.item float), '\r' ∉ item.text := by
    intro item member
    obtain ⟨frame, listed, rfl⟩ := List.mem_map.mp member
    exact (oneLine_not_mem (oneLine_item digits (plain frame listed))).2
  have cut := frames_encoded returns
  rw [List.flatMap_map, List.map_map] at cut
  rw [frames_encode, wireText, cut, List.map_map]
  rfl

/-- What the router adds when it has seen no end. -/
def ownEnding (float : UInt64 → List Char) (ending : Ending) : Core.Item :=
  .data ((Content.ofValue (errorBody interruptedCode ending.message)).compact float)

/-- All that the client is sent for the frames of a gateway. -/
def relayedItems (float : UInt64 → List Char) (publicModel : List Char) (ending : Ending)
    (sent : List Frame) : List Core.Item :=
  sent.map (relayedItem float publicModel) ++
    if sent.any endsStream then [] else [ownEnding float ending]

theorem sentFrames_wire (digits : ∀ bits, OneLine (float bits)) {sent : List Frame}
    (plain : PlainAll sent)
    (parsed : ∀ chunk, .chunk chunk ∈ sent →
      fromStr (chunk.toContent.compact float) = some chunk.toContent.toValue) :
    sentFrames (printing fromStr float) publicModel
        (sent.map fun frame => itemFrame (frame.item float)) =
      encode ((sent.map (relayedItem float publicModel)).flatMap Core.Item.encoded) := by
  induction sent with
  | nil => rfl
  | cons frame sent ih =>
      rw [PlainAll, List.forall_mem_cons] at plain
      have here := printing_output publicModel digits plain.1
        fun chunk same => parsed chunk (same ▸ List.mem_cons_self)
      have later := ih plain.2 fun chunk member => parsed chunk (List.mem_cons_of_mem _ member)
      rw [List.map_cons, sentFrames, List.flatMap_cons, here]
      rw [List.map_cons, List.flatMap_cons, encode_append, ← later]
      rfl

theorem any_ends (digits : ∀ bits, OneLine (float bits)) {sent : List Frame}
    (plain : PlainAll sent)
    (parsed : ∀ chunk, .chunk chunk ∈ sent →
      fromStr (chunk.toContent.compact float) = some chunk.toContent.toValue) :
    ((sent.map fun frame => itemFrame (frame.item float)).any fun frame =>
      (inspect (printing fromStr float) frame.1).ends) = sent.any endsStream := by
  induction sent with
  | nil => rfl
  | cons frame sent ih =>
      rw [PlainAll, List.forall_mem_cons] at plain
      have here := printing_ends digits plain.1 fun chunk same =>
        parsed chunk (same ▸ List.mem_cons_self)
      have later := ih plain.2 fun chunk member => parsed chunk (List.mem_cons_of_mem _ member)
      rw [List.map_cons, List.any_cons, List.any_cons, here, later]

theorem close_bytes (serde : Serde) {rewriter : FrameRewriter} (running : rewriter.finished = false)
    (ending : Ending) :
    (rewriter.close serde ending).2 =
      if rewriter.ended then []
      else encode (encodeData (serde.toString (errorBody interruptedCode ending.message))) := by
  have ended : rewriter.ended = (rewriter.sawDone || rewriter.sawError) := rfl
  cases ending with
  | finish =>
      rw [FrameRewriter.close, FrameRewriter.finish, running, ended]
      cases rewriter.sawDone || rewriter.sawError <;> rfl
  | abort =>
      rw [FrameRewriter.close, FrameRewriter.abort, running, ended, Bool.false_or]
      cases rewriter.sawDone || rewriter.sawError <;> rfl

/-- The router sends on every frame of a gateway, however the network cuts them, and says itself how
the stream ended exactly if no frame does. -/
theorem relayed_wire (digits : ∀ bits, OneLine (float bits)) {sent : List Frame}
    (plain : PlainAll sent)
    (parsed : ∀ chunk, .chunk chunk ∈ sent →
      fromStr (chunk.toContent.compact float) = some chunk.toContent.toValue)
    (within : ∀ frame ∈ sent, byteLen (frame.item float).encoded ≤ frameLimit)
    {chunks : List (List UInt8)} (arrived : chunks.flatten = encode (wireText float sent))
    (ending : Ending) :
    (FrameRewriter.new publicModel).relayed (printing fromStr float) chunks ending =
      encode ((relayedItems float publicModel ending sent).flatMap Core.Item.encoded) := by
  have cut := frames_wireText digits plain
  have sizes : ∀ count, (frames byteTerminators ((FrameRewriter.new publicModel).buffer ++
      (chunks.take count).flatten)).2.length ≤ frameLimit := by
    intro count
    have grows (xs ys : List UInt8) : xs.length ≤ (xs ++ ys).length := by simp
    have whole : (FrameRewriter.new publicModel).buffer ++ (chunks.take count).flatten ++
        (chunks.drop count).flatten = encode (wireText float sent) := by
      rw [← arrived, ← flatten_take_drop chunks count]
      rfl
    have finished : ∀ frame ∈ (frames byteTerminators ((FrameRewriter.new publicModel).buffer ++
        (chunks.take count).flatten ++ (chunks.drop count).flatten)).1,
          frame.2.length ≤ frameLimit := by
      intro frame listed
      rw [whole, cut] at listed
      obtain ⟨one, member, rfl⟩ := List.mem_map.mp listed
      exact (length_encode _).trans_le (within one member)
    exact byteTerminators_settled.rest_bounded grows finished (by rw [whole, cut]; exact Nat.zero_le _)
  have pushed := pushAll_within (printing fromStr float) (FrameRewriter.new publicModel) rfl rfl sizes
  have whole : (FrameRewriter.new publicModel).buffer ++ chunks.flatten =
      encode (wireText float sent) := arrived
  rw [whole, cut] at pushed
  have keeps := afterFrames_keeps (printing fromStr float) (FrameRewriter.new publicModel)
    (sent.map fun frame => itemFrame (frame.item float))
  have ended := afterFrames_ended (printing fromStr float) (FrameRewriter.new publicModel)
    (sent.map fun frame => itemFrame (frame.item float))
  rw [any_ends digits plain parsed] at ended
  have running : (((FrameRewriter.new publicModel).afterFrames (printing fromStr float)
      (sent.map fun frame => itemFrame (frame.item float))).hold []).finished = false := keeps.2
  have closed := close_bytes (printing fromStr float) running ending
  have held : (((FrameRewriter.new publicModel).afterFrames (printing fromStr float)
      (sent.map fun frame => itemFrame (frame.item float))).hold []).ended = sent.any endsStream :=
    ended
  rw [held] at closed
  have sent_ : ((FrameRewriter.new publicModel).pushAll (printing fromStr float) chunks).2 =
      encode ((sent.map (relayedItem float publicModel)).flatMap Core.Item.encoded) := by
    rw [pushed]
    exact sentFrames_wire digits plain parsed
  have last : (((FrameRewriter.new publicModel).pushAll (printing fromStr float) chunks).1.close
      (printing fromStr float) ending).2 =
        if sent.any endsStream then [] else encode (ownEnding float ending).encoded := by
    rw [pushed]
    exact closed
  rw [FrameRewriter.relayed, sent_, last, relayedItems, List.flatMap_append, encode_append]
  congr 1
  split
  · rfl
  · rw [List.flatMap_singleton]

/-- The event that a client decodes of a frame. -/
def relayedEvent (float : UInt64 → List Char) (publicModel : List Char) (frame : Frame) :
    Option SseEvent :=
  (relayedItem float publicModel frame).event

theorem eventsOf_items {items : List Core.Item} (plain : ∀ item ∈ items, OneLine item.text) :
    eventsOf (items.flatMap Core.Item.encoded) = items.filterMap Core.Item.event := by
  have returns : ∀ item ∈ items, '\r' ∉ item.text := fun item member =>
    (oneLine_not_mem (plain item member)).2
  rw [eventsOf, frames_encoded returns, List.filterMap_map]
  apply List.filterMap_congr
  intro item member
  exact Core.Item.parseFrame_lines (returns item member)

/-- Behind the router a client of a gateway decodes the chunks of every request, whatever becomes of
it, under the name of the route, and behind them one error exactly if the gateway sent no end. -/
theorem gateway_stream_relayed {ε : Type} (fromStr : List Char → Option Value)
    (digits : ∀ bits, OneLine (float bits)) (publicModel : List Char) (errors : Errors ε)
    (source : Source ε) (builder : ChunkBuilder) (includeUsage : Bool)
    (parsed : ∀ chunk, .chunk chunk ∈ encodeSource errors source builder includeUsage →
      fromStr (chunk.toContent.compact float) = some chunk.toContent.toValue)
    (within : ∀ frame ∈ encodeSource errors source builder includeUsage,
      byteLen (frame.item float).encoded ≤ frameLimit)
    {chunks : List (List UInt8)} (arrived : chunks.flatten =
      encode (wireText float (encodeSource errors source builder includeUsage)))
    (ending : Ending) :
    SseDecoder.new.yielded
        [(FrameRewriter.new publicModel).relayed (printing fromStr float) chunks ending] =
      (encodeSource errors source builder includeUsage).filterMap (relayedEvent float publicModel) ++
        if (encodeSource errors source builder includeUsage).any endsStream then []
        else [SseEvent.ofData
          ((Content.ofValue (errorBody interruptedCode ending.message)).compact float)] := by
  have plain : PlainAll (encodeSource errors source builder includeUsage) :=
    plainAll_encodeSource source builder includeUsage
  generalize encodeSource errors source builder includeUsage = sent at *
  have items : ∀ item ∈ relayedItems float publicModel ending sent, OneLine item.text := by
    intro item member
    rcases List.mem_append.mp member with relayed | own
    · obtain ⟨frame, listed, rfl⟩ := List.mem_map.mp relayed
      cases frame with
      | chunk chunk => exact oneLine_compact digits _
      | comment text => exact plain _ listed
      | done => exact (by decide : OneLine doneData)
    · split at own
      · cases own
      · rw [List.mem_singleton.mp own]
        exact oneLine_compact digits _
  rw [SseDecoder.new, yielded_single, relayed_wire digits plain parsed within arrived ending,
    fromUtf8Lossy_encode, eventsOf_items items, relayedItems, List.filterMap_append, List.filterMap_map]
  congr 1
  split
  · rfl
  · rfl

/-- A reply that the clock of the engine cuts off before its end. -/
def cutOffFrames : List Frame :=
  encodeSource sampleErrors (.running clockSetBack) sampleBuilder true

theorem gateway_stream_relayed_cut_off :
    SseDecoder.new.yielded
        [(FrameRewriter.new routeName).relayed
          (printing (parserOf noDigits (chunksOf cutOffFrames)) noDigits)
          [encode (wireText noDigits cutOffFrames)] .finish] =
      cutOffFrames.filterMap (relayedEvent noDigits routeName) ++
        if cutOffFrames.any endsStream then []
        else [SseEvent.ofData ((Content.ofValue
          (errorBody interruptedCode Ending.finish.message)).compact noDigits)] := by
  have apart : ((chunksOf cutOffFrames).map fun chunk => chunk.toContent.compact noDigits).Nodup := by
    decide +kernel
  have within : ∀ frame ∈ cutOffFrames, byteLen (frame.item noDigits).encoded ≤ frameLimit := by
    decide +kernel
  exact gateway_stream_relayed _ noDigits_oneLine routeName sampleErrors _ sampleBuilder true
    (fun chunk sent => parserOf_chunk apart (mem_chunksOf sent)) within List.flatten_singleton .finish

end Lightweight.Router
