import Lightweight.Router.RewriterEvents

/-! How a stream ends for the client. The rewriter adds an error frame of its own to a stream that the
node left without an end; the question is when it does so although the client has read one. -/

namespace Lightweight.Router

open Framing Utf8 Lightweight.Core

/-- An event that ends a stream for a client: the end marker, or an error. -/
def Terminal (serde : Serde) (event : SseEvent) : Prop :=
  event.isDone = true ∨
    ∃ object, serde.fromStr event.data = some (.object object) ∧ Map.containsKey errorKey object = true

def TerminalFrame (serde : Serde) (content : List UInt8) : Prop :=
  ∃ event, decoded content = some event ∧ Terminal serde event

/-- Whether the rewriter takes note of an end. -/
def Sight.ends : Sight → Bool
  | .other => false
  | .done => true
  | .object event _ => Map.containsKey errorKey event

theorem containsKey_insert (value : Value) (map : Map) :
    Map.containsKey errorKey (Map.insert modelKey value map) = Map.containsKey errorKey map := by
  have other : errorKey ≠ modelKey := by decide
  rw [Map.containsKey, Map.get_insert, if_neg other, Map.containsKey]

/-- Renaming a model does not make or unmake an end. -/
theorem Renamed.terminal_iff {serde : Serde} {publicModel : List Char} {before after : SseEvent}
    (lawful : serde.Lawful publicModel) (renamed : Renamed serde publicModel before after) :
    Terminal serde after ↔ Terminal serde before := by
  cases found : namedObject serde before.data with
  | none =>
      have same := renamed.kept found
      simp [Terminal, SseEvent.isDone, same]
  | some object =>
      have parsed := namedObject_eq_some found
      have parsed' := renamed.renamed object found
      have running (event : SseEvent) (value : Value) (reads : serde.fromStr event.data = some value) :
          ¬event.isDone = true := by
        intro done
        have ended := lawful.done event.data (by simpa [SseEvent.isDone] using done)
        rw [reads] at ended
        cases ended
      simp only [Terminal, running before _ parsed, running after _ parsed', parsed, parsed',
        Option.some.injEq, Value.object.injEq, exists_eq_left', containsKey_insert]

/-- The decoder and the rewriter agree on whether the data of a frame is an end. -/
theorem terminal_data {serde : Serde} {publicModel : List Char} (lawful : serde.Lawful publicModel)
    {text : List Char} {event : SseEvent} (found : parseFrame text = some event) :
    Terminal serde event ↔
      trim (['\n'].intercalate (dataLines text)) = doneData ∨
        ∃ object, serde.fromStr (['\n'].intercalate (dataLines text)) = some (.object object) ∧
          Map.containsKey errorKey object = true := by
  have marker := decide_eq_decide.mp (reading_data skipsBlank_done found)
  have object := reading_data lawful.blank found
  rw [Terminal, SseEvent.isDone, beq_iff_eq, marker, object]

/-- The rewriter takes note of the ends in valid text. -/
theorem ends_iff {serde : Serde} {publicModel : List Char} (lawful : serde.Lawful publicModel)
    (content : List UInt8) :
    (inspect serde content).ends = true ↔
      (fromUtf8 content).isSome = true ∧ TerminalFrame serde content := by
  cases valid : fromUtf8 content with
  | none => simp [inspect, valid, Sight.ends]
  | some text =>
      simp only [TerminalFrame, decoded_of_valid valid, Option.isSome_some, true_and]
      by_cases none : dataLines text = []
      · have other : inspect serde content = .other := by simp [inspect, valid, none]
        simp only [other, Sight.ends, Bool.false_eq_true, false_iff, not_exists, not_and]
        intro event found
        rw [terminal_data lawful found, none, List.intercalate_nil, lawful.empty]
        simp [trim, doneData]
      · have found := parseFrame_of_dataLines none
        simp only [found, Option.some.injEq, exists_eq_left', terminal_data lawful found, inspect,
          valid, List.isEmpty_iff, none, if_false]
        by_cases done : trim (['\n'].intercalate (dataLines text)) = doneData
        · simp [done, Sight.ends]
        · simp only [done, if_false, false_or]
          cases serde.fromStr (['\n'].intercalate (dataLines text)) with
          | none => simp [Sight.ends]
          | some value => cases value <;> simp [Sight.ends]

/-- What is sent on for a frame is a frame that ends the stream exactly if that one did. -/
theorem output_terminal {serde : Serde} {publicModel : List Char} (lawful : serde.Lawful publicModel)
    {frame : List UInt8 × List UInt8} (lone : IsFrame frame) :
    ∃ sent, sent.2 = (inspect serde frame.1).output serde publicModel frame.2 ∧ IsFrame sent ∧
      (TerminalFrame serde sent.1 ↔ TerminalFrame serde frame.1) := by
  cases valid : fromUtf8 frame.1 with
  | none =>
      refine ⟨frame, ?_, lone, Iff.rfl⟩
      simp [inspect, valid, Sight.output]
  | some text =>
      obtain ⟨sent, bytes, whole, related⟩ := output_renamed lawful lone valid
      refine ⟨sent, bytes, whole, ?_⟩
      unfold TerminalFrame
      generalize decoded frame.1 = before at related
      generalize decoded sent.1 = after at related
      cases related with
      | none => simp
      | some renamed => simp [renamed.terminal_iff lawful]

/-! ### Whole streams -/

/-- How the connection to the node ends. -/
inductive Ending where
  | finish
  | abort
deriving DecidableEq, Repr

def FrameRewriter.close (serde : Serde) (rewriter : FrameRewriter) :
    Ending → FrameRewriter × List UInt8
  | .finish => rewriter.finish serde
  | .abort => rewriter.abort serde

/-- All that the client is sent. -/
def FrameRewriter.relayed (serde : Serde) (rewriter : FrameRewriter) (chunks : List (List UInt8))
    (ending : Ending) : List UInt8 :=
  (rewriter.pushAll serde chunks).2 ++ ((rewriter.pushAll serde chunks).1.close serde ending).2

/-- What is sent, told apart by where it comes from. -/
inductive Emission where
  | forwarded (bytes : List UInt8)
  | own (bytes : List UInt8)
deriving DecidableEq, Repr

def Emission.bytes : Emission → List UInt8
  | .forwarded bytes => bytes
  | .own bytes => bytes

/-- The error frame that the rewriter writes itself. -/
def ownFrame (serde : Serde) (code message : List Char) : Emission :=
  .own (encode (encodeData (serde.toString (errorBody code message))))

def forward (serde : Serde) (publicModel : List Char) (frame : List UInt8 × List UInt8) : Emission :=
  .forwarded ((inspect serde frame.1).output serde publicModel frame.2)

def FrameRewriter.pushTrace (serde : Serde) (rewriter : FrameRewriter) (chunk : List UInt8) :
    List Emission :=
  if rewriter.finished then []
  else
    let cut := frames byteTerminators (rewriter.buffer ++ chunk)
    cut.1.map (forward serde rewriter.publicModel) ++
      if cut.2.length > frameLimit then [ownFrame serde invalidCode tooLargeMessage] else []

def Ending.message : Ending → List Char
  | .finish => endedMessage
  | .abort => failedMessage

def FrameRewriter.closeTrace (serde : Serde) (rewriter : FrameRewriter) (ending : Ending) :
    List Emission :=
  if rewriter.finished || rewriter.sawDone || rewriter.sawError then []
  else [ownFrame serde interruptedCode ending.message]

def FrameRewriter.trace (serde : Serde) :
    FrameRewriter → List (List UInt8) → Ending → List Emission
  | rewriter, [], ending => rewriter.closeTrace serde ending
  | rewriter, chunk :: chunks, ending =>
      rewriter.pushTrace serde chunk ++ trace serde (rewriter.push serde chunk).1 chunks ending

theorem pushTrace_bytes (serde : Serde) (rewriter : FrameRewriter) (chunk : List UInt8) :
    (rewriter.pushTrace serde chunk).flatMap Emission.bytes = (rewriter.push serde chunk).2 := by
  cases running : rewriter.finished with
  | true => simp [FrameRewriter.pushTrace, FrameRewriter.push, running]
  | false =>
      have sent (parts : List (List UInt8 × List UInt8)) :
          (parts.map (forward serde rewriter.publicModel)).flatMap Emission.bytes =
            sentFrames serde rewriter.publicModel parts := by
        rw [List.flatMap_map]
        rfl
      rw [push_eq serde running, FrameRewriter.pushTrace, if_neg (by simp [running])]
      simp only [List.flatMap_append, sent]
      split
      · simp [ownFrame, Emission.bytes, FrameRewriter.fail]
      · simp

theorem closeTrace_bytes (serde : Serde) (rewriter : FrameRewriter) (ending : Ending) :
    (rewriter.closeTrace serde ending).flatMap Emission.bytes =
      (rewriter.close serde ending).2 := by
  unfold FrameRewriter.closeTrace
  cases ending with
  | finish =>
      unfold FrameRewriter.close FrameRewriter.finish
      cases rewriter.finished <;> cases rewriter.sawDone <;> cases rewriter.sawError <;>
        simp [ownFrame, Emission.bytes, FrameRewriter.fail, Ending.message]
  | abort =>
      unfold FrameRewriter.close FrameRewriter.abort
      cases rewriter.finished <;> cases rewriter.sawDone <;> cases rewriter.sawError <;>
        simp [ownFrame, Emission.bytes, FrameRewriter.fail, Ending.message]

/-- The trace of a stream is what the client is sent. -/
theorem trace_bytes (serde : Serde) (rewriter : FrameRewriter) (chunks : List (List UInt8))
    (ending : Ending) :
    (rewriter.trace serde chunks ending).flatMap Emission.bytes =
      rewriter.relayed serde chunks ending := by
  induction chunks generalizing rewriter with
  | nil => exact closeTrace_bytes serde rewriter ending
  | cons chunk chunks ih =>
      rw [FrameRewriter.trace, List.flatMap_append, pushTrace_bytes, ih]
      simp [FrameRewriter.relayed, FrameRewriter.pushAll]

/-- The frames that are forwarded, and whether a push leaves more than the limit unfinished. -/
def received : List UInt8 → List (List UInt8) → List (List UInt8 × List UInt8) × Bool
  | _, [] => ([], false)
  | buffer, chunk :: chunks =>
      let cut := frames byteTerminators (buffer ++ chunk)
      if cut.2.length > frameLimit then (cut.1, true)
      else
        let later := received cut.2 chunks
        (cut.1 ++ later.1, later.2)

theorem received_isFrame (buffer : List UInt8) (chunks : List (List UInt8)) :
    ∀ frame ∈ (received buffer chunks).1, IsFrame frame := by
  induction chunks generalizing buffer with
  | nil => simp [received]
  | cons chunk chunks ih =>
      intro frame listed
      simp only [received] at listed
      split at listed
      · exact IsFrame.of_mem listed
      · rcases List.mem_append.mp listed with here | later
        · exact IsFrame.of_mem here
        · exact ih _ frame later

/-- Whether the rewriter has seen the end of the stream. -/
def FrameRewriter.ended (rewriter : FrameRewriter) : Bool :=
  rewriter.sawDone || rewriter.sawError

theorem after_ended (rewriter : FrameRewriter) (sight : Sight) :
    (sight.after rewriter).ended = (rewriter.ended || sight.ends) := by
  cases sight with
  | other => simp [Sight.after, Sight.ends]
  | done => simp [Sight.after, Sight.ends, FrameRewriter.ended]
  | object event otherLines =>
      simp [Sight.after, Sight.ends, FrameRewriter.ended, FrameRewriter.note, Bool.or_assoc]

theorem afterFrames_ended (serde : Serde) (rewriter : FrameRewriter)
    (parts : List (List UInt8 × List UInt8)) :
    (rewriter.afterFrames serde parts).ended =
      (rewriter.ended || parts.any fun frame => (inspect serde frame.1).ends) := by
  induction parts generalizing rewriter with
  | nil => simp [FrameRewriter.afterFrames]
  | cons frame parts ih =>
      rw [FrameRewriter.afterFrames, List.foldl_cons]
      exact (ih _).trans (by rw [after_ended, List.any_cons, Bool.or_assoc])

theorem trace_finished (serde : Serde) {rewriter : FrameRewriter} (stopped : rewriter.finished = true)
    (chunks : List (List UInt8)) (ending : Ending) :
    rewriter.trace serde chunks ending = [] := by
  induction chunks with
  | nil => simp [FrameRewriter.trace, FrameRewriter.closeTrace, stopped]
  | cons chunk chunks ih =>
      have same : (rewriter.push serde chunk).1 = rewriter := by
        rw [FrameRewriter.push, if_pos stopped]
      rw [FrameRewriter.trace, same, ih, FrameRewriter.pushTrace, if_pos stopped]
      rfl

/-- The trace of a stream: the frames forwarded, and the error frame unless the end was seen and no
push left too much. -/
theorem trace_eq (serde : Serde) (rewriter : FrameRewriter) (running : rewriter.finished = false)
    (chunks : List (List UInt8)) (ending : Ending) :
    rewriter.trace serde chunks ending =
      (received rewriter.buffer chunks).1.map (forward serde rewriter.publicModel) ++
        if (received rewriter.buffer chunks).2 then [ownFrame serde invalidCode tooLargeMessage]
        else if rewriter.ended ||
            (received rewriter.buffer chunks).1.any fun frame => (inspect serde frame.1).ends then []
        else [ownFrame serde interruptedCode ending.message] := by
  induction chunks generalizing rewriter with
  | nil =>
      simp only [FrameRewriter.trace, FrameRewriter.closeTrace, received, running]
      simp [FrameRewriter.ended]
  | cons chunk chunks ih =>
      rw [FrameRewriter.trace, push_eq serde running, FrameRewriter.pushTrace,
        if_neg (by simp [running])]
      simp only [received]
      split
      · rw [trace_finished serde rfl]
        simp
      · generalize frames byteTerminators (rewriter.buffer ++ chunk) = cut
        have keeps := afterFrames_keeps serde rewriter cut.1
        have flags : ((rewriter.afterFrames serde cut.1).hold cut.2).ended =
            (rewriter.ended || cut.1.any fun frame => (inspect serde frame.1).ends) :=
          afterFrames_ended serde rewriter cut.1
        have model : ((rewriter.afterFrames serde cut.1).hold cut.2).publicModel =
            rewriter.publicModel := keeps.1
        have held : ((rewriter.afterFrames serde cut.1).hold cut.2).buffer = cut.2 := rfl
        rw [ih ((rewriter.afterFrames serde cut.1).hold cut.2) (keeps.2.trans running), flags, model,
          held, List.map_append, List.any_append, Bool.or_assoc, List.append_nil, List.append_assoc]

/-! ### Exactly one end -/

/-- The client reads an end; the rewriter's own error frame is the last thing sent; and it comes only
after a stream without an end. -/
structure EndsOnce (serde : Serde) (emissions : List Emission) : Prop where
  ends : ∃ event ∈ SseDecoder.new.yielded [emissions.flatMap Emission.bytes], Terminal serde event
  last : ∀ before bytes after, emissions = before ++ .own bytes :: after → after = []
  alone : ∀ before bytes after, emissions = before ++ .own bytes :: after →
    ∀ event ∈ SseDecoder.new.yielded [before.flatMap Emission.bytes], ¬Terminal serde event

/-- The frames forwarded, as frames that end the stream exactly where the node's did. -/
theorem exists_forwarded {serde : Serde} {publicModel : List Char} (lawful : serde.Lawful publicModel)
    {parts : List (List UInt8 × List UInt8)} (lone : ∀ frame ∈ parts, IsFrame frame) :
    ∃ sent : List (List UInt8 × List UInt8),
      (parts.map (forward serde publicModel)).flatMap Emission.bytes = sent.flatMap Prod.snd ∧
      (∀ frame ∈ sent, IsFrame frame) ∧
      ((∃ frame ∈ sent, TerminalFrame serde frame.1) ↔ ∃ frame ∈ parts, TerminalFrame serde frame.1) := by
  induction parts with
  | nil => exact ⟨[], rfl, by simp, by simp⟩
  | cons frame parts ih =>
      obtain ⟨one, bytes, whole, same⟩ := output_terminal lawful (lone frame List.mem_cons_self)
      obtain ⟨rest, joined, frames, ends⟩ := ih fun other member =>
        lone other (List.mem_cons_of_mem frame member)
      refine ⟨one :: rest, ?_, ?_, ?_⟩
      · rw [List.map_cons, List.flatMap_cons, joined, List.flatMap_cons, bytes]
        rfl
      · intro other member
        rcases List.mem_cons.mp member with rfl | later
        · exact whole
        · exact frames other later
      · simp only [List.mem_cons, exists_eq_or_imp, same, ends]

theorem yielded_sent {parts : List (List UInt8 × List UInt8)} (lone : ∀ frame ∈ parts, IsFrame frame) :
    SseDecoder.new.yielded [parts.flatMap Prod.snd] = parts.filterMap fun frame => decoded frame.1 := by
  rw [SseDecoder.new, yielded_single, eventsOf_fromUtf8Lossy, frames_flatMap lone]
  rfl

theorem exists_terminal_iff (serde : Serde) (parts : List (List UInt8 × List UInt8)) :
    (∃ event ∈ parts.filterMap fun frame => decoded frame.1, Terminal serde event) ↔
      ∃ frame ∈ parts, TerminalFrame serde frame.1 := by
  simp only [List.mem_filterMap, TerminalFrame]
  constructor
  · rintro ⟨event, ⟨frame, listed, found⟩, ended⟩
    exact ⟨frame, listed, event, found, ended⟩
  · rintro ⟨frame, listed, event, found, ended⟩
    exact ⟨event, ⟨frame, listed, found⟩, ended⟩

/-- The rewriter's own error frame is a frame that ends the stream. -/
theorem ownFrame_ends {serde : Serde} {code message : List Char}
    (reads : serde.Reads (errorBody code message)) :
    ∃ sent, ownFrame serde code message = .own sent.2 ∧ IsFrame sent ∧
      TerminalFrame serde sent.1 := by
  have plain : '\r' ∉ (Item.data (serde.toString (errorBody code message))).text := fun member =>
    absurd (reads.oneLine _ member) (by decide)
  refine ⟨_, ?_, isFrame_framed (Item.lines_ne_nil _) (Item.lines_fit plain), ?_⟩
  · exact congrArg (fun text => Emission.own (encode text)) (Item.encoded_eq_framed plain)
  · refine ⟨SseEvent.ofData (serde.toString (errorBody code message)), ?_, .inr ⟨_, reads.back, rfl⟩⟩
    rw [decoded, fromUtf8Lossy_encode, Item.parseFrame_lines plain]
    rfl

theorem forward_ne_own (serde : Serde) (publicModel : List Char)
    (parts : List (List UInt8 × List UInt8)) (bytes : List UInt8) :
    .own bytes ∉ parts.map (forward serde publicModel) := by
  simp [forward]

/-- Where only the last emission is the rewriter's own, a list is split there in one way. -/
theorem own_split {sent before after : List Emission} {bytes other : List UInt8}
    (foreign : .own other ∉ sent) (split : sent ++ [.own bytes] = before ++ .own other :: after) :
    before = sent ∧ after = [] := by
  rcases List.eq_nil_or_concat after with none | ⟨middle, last, rfl⟩
  · subst none
    exact ⟨(List.append_inj' split rfl).1.symm, rfl⟩
  · rw [List.concat_eq_append, ← List.cons_append, ← List.append_assoc] at split
    have same := (List.append_inj' split rfl).1
    refine absurd ?_ foreign
    rw [same]
    simp

/-- Frames sent on without an error frame end the stream if one of the node's did. -/
theorem endsOnce_forwarded {serde : Serde} {publicModel : List Char}
    (lawful : serde.Lawful publicModel) {parts : List (List UInt8 × List UInt8)}
    (lone : ∀ frame ∈ parts, IsFrame frame)
    (terminal : ∃ frame ∈ parts, TerminalFrame serde frame.1) :
    EndsOnce serde (parts.map (forward serde publicModel)) := by
  have foreign (before after : List Emission) (bytes : List UInt8) :
      parts.map (forward serde publicModel) ≠ before ++ .own bytes :: after := by
    intro split
    refine absurd ?_ (forward_ne_own serde publicModel parts bytes)
    rw [split]
    simp
  obtain ⟨sent, bytes, whole, ends⟩ := exists_forwarded lawful lone
  refine ⟨?_, fun before own after split => absurd split (foreign _ _ _),
    fun before own after split => absurd split (foreign _ _ _)⟩
  rw [bytes, yielded_sent whole]
  exact (exists_terminal_iff serde sent).mpr (ends.mpr terminal)

/-- Frames sent on with an error frame after them end the stream once if none of the node's did. -/
theorem endsOnce_own {serde : Serde} {publicModel code message : List Char}
    (lawful : serde.Lawful publicModel) (reads : serde.Reads (errorBody code message))
    {parts : List (List UInt8 × List UInt8)} (lone : ∀ frame ∈ parts, IsFrame frame) :
    EndsOnce serde (parts.map (forward serde publicModel) ++ [ownFrame serde code message]) ↔
      ∀ frame ∈ parts, ¬TerminalFrame serde frame.1 := by
  obtain ⟨sent, bytes, whole, ends⟩ := exists_forwarded lawful lone
  obtain ⟨own, written, ownWhole, terminal⟩ := ownFrame_ends reads
  have quiet : (∀ event ∈ SseDecoder.new.yielded
        [(parts.map (forward serde publicModel)).flatMap Emission.bytes], ¬Terminal serde event) ↔
      ∀ frame ∈ parts, ¬TerminalFrame serde frame.1 := by
    have none := not_congr ((exists_terminal_iff serde sent).trans ends)
    rw [bytes, yielded_sent whole]
    simpa only [not_exists, not_and] using none
  rw [written]
  constructor
  · intro once
    exact quiet.mp (once.alone _ own.2 [] rfl)
  · intro none
    constructor
    · have all : ∀ frame ∈ sent ++ [own], IsFrame frame := by
        intro frame listed
        rcases List.mem_append.mp listed with here | last
        · exact whole frame here
        · rw [List.mem_singleton.mp last]
          exact ownWhole
      have joined : (parts.map (forward serde publicModel) ++ [Emission.own own.2]).flatMap
          Emission.bytes = (sent ++ [own]).flatMap Prod.snd := by
        rw [List.flatMap_append, bytes, List.flatMap_append]
        rfl
      rw [joined, yielded_sent all]
      exact (exists_terminal_iff serde _).mpr ⟨own, by simp, terminal⟩
    · intro before other after split
      exact (own_split (forward_ne_own serde publicModel parts other) split).2
    · intro before other after split
      rw [(own_split (forward_ne_own serde publicModel parts other) split).1]
      exact quiet.mpr none

/-- A stream is ended once exactly if the node did not end it, or ended it by a frame of valid text
and left no push with too much unfinished. -/
theorem relayed_ends_once_iff (serde : Serde) (publicModel : List Char) (chunks : List (List UInt8))
    (ending : Ending) (lawful : serde.Lawful publicModel)
    (failures : ∀ body ∈ failureBodies, serde.Reads body) :
    ((FrameRewriter.new publicModel).trace serde chunks ending).flatMap Emission.bytes =
        (FrameRewriter.new publicModel).relayed serde chunks ending ∧
      (EndsOnce serde ((FrameRewriter.new publicModel).trace serde chunks ending) ↔
        (∀ frame ∈ (received [] chunks).1, ¬TerminalFrame serde frame.1) ∨
          (received [] chunks).2 = false ∧
            ∃ frame ∈ (received [] chunks).1,
              TerminalFrame serde frame.1 ∧ (fromUtf8 frame.1).isSome = true) := by
  refine ⟨trace_bytes serde _ chunks ending, ?_⟩
  have lone := received_isFrame [] chunks
  have tooLarge := failures _ (List.mem_cons_self)
  have interrupted : serde.Reads (errorBody interruptedCode ending.message) := by
    cases ending with
    | finish => exact failures _ (by simp [failureBodies, Ending.message])
    | abort => exact failures _ (by simp [failureBodies, Ending.message])
  have shape := trace_eq serde (FrameRewriter.new publicModel) rfl chunks ending
  simp only [FrameRewriter.new, FrameRewriter.ended, Bool.or_false, Bool.false_or] at shape
  have noted : ((received [] chunks).1.any fun frame => (inspect serde frame.1).ends) = true ↔
      ∃ frame ∈ (received [] chunks).1,
        TerminalFrame serde frame.1 ∧ (fromUtf8 frame.1).isSome = true := by
    simp only [List.any_eq_true, ends_iff lawful, and_comm]
  rw [FrameRewriter.new, shape]
  generalize received [] chunks = seen at lone noted ⊢
  cases seen.2 with
  | true => simpa using endsOnce_own lawful tooLarge lone
  | false =>
      by_cases ends : (seen.1.any fun frame => (inspect serde frame.1).ends) = true
      · obtain ⟨frame, listed, terminal, -⟩ := noted.mp ends
        have once := endsOnce_forwarded lawful lone ⟨frame, listed, terminal⟩
        rw [if_neg Bool.false_ne_true, if_pos ends, List.append_nil]
        exact iff_of_true once (.inr ⟨rfl, noted.mp ends⟩)
      · rw [if_neg Bool.false_ne_true, if_neg ends, endsOnce_own lawful interrupted lone]
        exact (or_iff_left fun both => ends (noted.mpr both.2)).symm

/-! ### An end that the rewriter does not heed -/

def doneContent : List UInt8 := encode "data: [DONE]".toList
def doneFrame : List UInt8 := encode "data: [DONE]\n\n".toList

theorem doneContent_terminal (serde : Serde) : TerminalFrame serde doneContent :=
  ⟨SseEvent.ofData doneData, by decide, .inl (by decide)⟩

theorem received_doneFrame (chunks : List (List UInt8)) :
    received [] (doneFrame :: chunks) =
      ((doneContent, doneFrame) :: (received [] chunks).1, (received [] chunks).2) := by
  have cut : frames byteTerminators ([] ++ doneFrame) = ([(doneContent, doneFrame)], []) := by
    decide
  have short : ¬([] : List UInt8).length > frameLimit := by simp
  rw [received, cut, if_neg short]
  rfl

/-- More than the limit without the end of a frame. -/
def overlong : List UInt8 := List.replicate (frameLimit + 1) 0x78

theorem received_overlong : received [] [overlong] = ([], true) := by
  have unfinished : earliest byteTerminators overlong = none := by
    rw [earliest_eq_none]
    intro terminator listed front back occurs
    have inside : ∀ byte ∈ terminator, byte = 0x78 := by
      intro byte member
      apply List.eq_of_mem_replicate (n := frameLimit + 1)
      rw [← overlong, occurs]
      simp [member]
    have outside : ∀ terminator ∈ byteTerminators, ¬∀ byte ∈ terminator, byte = 0x78 := by decide
    exact outside terminator listed inside
  have long : overlong.length > frameLimit := by
    rw [overlong, List.length_replicate]
    exact Nat.lt_succ_self frameLimit
  rw [received, List.nil_append, frames_of_none unfinished, if_pos long]

/-- After an end that it has sent on, the rewriter writes an error frame. -/
theorem error_written_after_done :
    sampleSerde.Lawful routeName ∧ (∀ body ∈ failureBodies, sampleSerde.Reads body) ∧
      ¬EndsOnce sampleSerde
        ((FrameRewriter.new routeName).trace sampleSerde [doneFrame, overlong] .finish) := by
  refine ⟨sampleSerde_lawful, sampleSerde_failures, ?_⟩
  have lone := received_isFrame [] [doneFrame, overlong]
  have shape := trace_eq sampleSerde (FrameRewriter.new routeName) rfl [doneFrame, overlong] .finish
  simp only [FrameRewriter.new, received_doneFrame, received_overlong, if_true] at shape lone
  rw [FrameRewriter.new, shape,
    endsOnce_own sampleSerde_lawful (sampleSerde_failures _ List.mem_cons_self) lone]
  intro none
  exact none _ List.mem_cons_self (doneContent_terminal sampleSerde)

theorem relayed_ends_once_done :
    sampleSerde.Lawful routeName ∧ (∀ body ∈ failureBodies, sampleSerde.Reads body) ∧
      EndsOnce sampleSerde ((FrameRewriter.new routeName).trace sampleSerde [doneFrame] .abort) := by
  refine ⟨sampleSerde_lawful, sampleSerde_failures, ?_⟩
  have once := relayed_ends_once_iff sampleSerde routeName [doneFrame] .abort sampleSerde_lawful
    sampleSerde_failures
  apply once.2.mpr
  right
  rw [received_doneFrame]
  exact ⟨rfl, _, List.mem_cons_self, doneContent_terminal sampleSerde, by decide +kernel⟩

end Lightweight.Router
