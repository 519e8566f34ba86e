import Mathlib.Data.List.Forall2
import Lightweight.Router.RewriterFrames

/-! A stream through the rewriter: the client decodes the node's events, with the model renamed. -/

namespace Lightweight.Router

open Framing Utf8 Lightweight.Core

/-- What is sent on for the frames of a stream. -/
def sentFrames (serde : Serde) (publicModel : List Char) (frames : List (List UInt8 × List UInt8)) :
    List UInt8 :=
  frames.flatMap fun frame => (inspect serde frame.1).output serde publicModel frame.2

/-- The rewriter after the frames of a stream. -/
def FrameRewriter.afterFrames (serde : Serde) (rewriter : FrameRewriter)
    (frames : List (List UInt8 × List UInt8)) : FrameRewriter :=
  frames.foldl (fun rewriter frame => (inspect serde frame.1).after rewriter) rewriter

theorem after_hold (rewriter : FrameRewriter) (buffer : List UInt8) (sight : Sight) :
    sight.after (rewriter.hold buffer) = (sight.after rewriter).hold buffer := by
  cases sight <;> rfl

theorem afterFrames_hold (serde : Serde) (rewriter : FrameRewriter) (buffer : List UInt8)
    (frames : List (List UInt8 × List UInt8)) :
    (rewriter.hold buffer).afterFrames serde frames =
      (rewriter.afterFrames serde frames).hold buffer := by
  induction frames generalizing rewriter with
  | nil => rfl
  | cons frame frames ih =>
      rw [FrameRewriter.afterFrames, List.foldl_cons, after_hold]
      exact ih _

theorem afterFrames_append (serde : Serde) (rewriter : FrameRewriter)
    (before after : List (List UInt8 × List UInt8)) :
    rewriter.afterFrames serde (before ++ after) =
      (rewriter.afterFrames serde before).afterFrames serde after :=
  List.foldl_append

theorem after_keeps (rewriter : FrameRewriter) (sight : Sight) :
    (sight.after rewriter).publicModel = rewriter.publicModel ∧
      (sight.after rewriter).finished = rewriter.finished := by
  cases sight <;> exact ⟨rfl, rfl⟩

theorem afterFrames_keeps (serde : Serde) (rewriter : FrameRewriter)
    (frames : List (List UInt8 × List UInt8)) :
    (rewriter.afterFrames serde frames).publicModel = rewriter.publicModel ∧
      (rewriter.afterFrames serde frames).finished = rewriter.finished := by
  induction frames generalizing rewriter with
  | nil => exact ⟨rfl, rfl⟩
  | cons frame frames ih =>
      have here := after_keeps rewriter (inspect serde frame.1)
      have rest := ih ((inspect serde frame.1).after rewriter)
      exact ⟨rest.1.trans here.1, rest.2.trans here.2⟩

/-- The loop of `push` sends on the frames that the buffer holds, and keeps what is left. -/
theorem pushLoop_eq (serde : Serde) {fuel : Nat} (rewriter : FrameRewriter)
    (enough : rewriter.buffer.length < fuel) :
    FrameRewriter.pushLoop serde fuel rewriter =
      ((rewriter.afterFrames serde (frames byteTerminators rewriter.buffer).1).hold
          (frames byteTerminators rewriter.buffer).2,
        sentFrames serde rewriter.publicModel (frames byteTerminators rewriter.buffer).1) := by
  induction fuel generalizing rewriter with
  | zero => omega
  | succ fuel ih =>
      cases found : earliest byteTerminators rewriter.buffer with
      | none =>
          rw [frames_of_none found]
          simp only [FrameRewriter.pushLoop, found]
          rfl
      | some cut =>
          obtain ⟨content, total⟩ := cut
          obtain ⟨positive, bound, inside⟩ := byteTerminators_settled.total_pos found
          have shorter : (rewriter.buffer.drop total).length < fuel := by
            rw [List.length_drop]
            omega
          have first : (rewriter.buffer.take total).take content = rewriter.buffer.take content := by
            rw [List.take_take, min_eq_left inside]
          have model := (after_keeps rewriter (inspect serde (rewriter.buffer.take content))).1
          have later := ih (((inspect serde (rewriter.buffer.take content)).after rewriter).hold
            (rewriter.buffer.drop total)) shorter
          rw [afterFrames_hold] at later
          rw [byteTerminators_settled.frames_of_some found]
          simp only [FrameRewriter.pushLoop, found, first, emit_eq, after_hold, later]
          simp only [FrameRewriter.hold, model]
          rfl

/-- A push sends on the frames that its chunk completes; if more than the limit is left, it ends the
stream with an error. -/
theorem push_eq (serde : Serde) {rewriter : FrameRewriter} (running : rewriter.finished = false)
    (chunk : List UInt8) :
    rewriter.push serde chunk =
      let cut := frames byteTerminators (rewriter.buffer ++ chunk)
      let after := rewriter.afterFrames serde cut.1
      let sent := sentFrames serde rewriter.publicModel cut.1
      if cut.2.length > frameLimit then
        (((after.hold []).fail serde invalidCode tooLargeMessage).1,
          sent ++ ((after.hold []).fail serde invalidCode tooLargeMessage).2)
      else (after.hold cut.2, sent) := by
  rw [FrameRewriter.push, if_neg (by simp [running])]
  simp only [pushLoop_eq serde (rewriter.hold (rewriter.buffer ++ chunk)) (Nat.lt_succ_self _),
    afterFrames_hold]
  rfl

/-- While what is left after each chunk stays within the limit, the chunks do what the frames of the
stream do. -/
theorem pushAll_within (serde : Serde) (rewriter : FrameRewriter) {chunks : List (List UInt8)}
    (running : rewriter.finished = false) (waiting : earliest byteTerminators rewriter.buffer = none)
    (within : ∀ count, (frames byteTerminators
      (rewriter.buffer ++ (chunks.take count).flatten)).2.length ≤ frameLimit) :
    rewriter.pushAll serde chunks =
      ((rewriter.afterFrames serde
          (frames byteTerminators (rewriter.buffer ++ chunks.flatten)).1).hold
          (frames byteTerminators (rewriter.buffer ++ chunks.flatten)).2,
        sentFrames serde rewriter.publicModel
          (frames byteTerminators (rewriter.buffer ++ chunks.flatten)).1) := by
  induction chunks generalizing rewriter with
  | nil =>
      rw [List.flatten_nil, List.append_nil, frames_of_none waiting]
      rfl
  | cons chunk chunks ih =>
      have rest := within 1
      rw [List.take_succ_cons, List.take_zero, List.flatten_singleton] at rest
      have pushed := push_eq serde running chunk
      simp only [if_neg (Nat.not_lt.mpr rest)] at pushed
      have keeps := afterFrames_keeps serde rewriter
        (frames byteTerminators (rewriter.buffer ++ chunk)).1
      have later := ih ((rewriter.afterFrames serde
          (frames byteTerminators (rewriter.buffer ++ chunk)).1).hold
          (frames byteTerminators (rewriter.buffer ++ chunk)).2)
        (keeps.2.trans running) (byteTerminators_settled.frames_rest _) (by
          intro count
          have longer := within (count + 1)
          rw [List.take_succ_cons, List.flatten_cons, ← List.append_assoc,
            byteTerminators_settled.frames_append] at longer
          exact longer)
      rw [List.flatten_cons, ← List.append_assoc, byteTerminators_settled.frames_append]
      simp only [FrameRewriter.pushAll, pushed, later, afterFrames_hold]
      simp only [FrameRewriter.hold, keeps.1, sentFrames, List.flatMap_append, afterFrames_append]

theorem flatten_take_drop (chunks : List (List UInt8)) (count : Nat) :
    (chunks.take count).flatten ++ (chunks.drop count).flatten = chunks.flatten := by
  rw [← List.flatten_append, List.take_append_drop]

/-- Over chunks whose frames stay within the limit, the frames of the whole stream are sent on. -/
theorem pushAll_eq (serde : Serde) (rewriter : FrameRewriter) {chunks : List (List UInt8)}
    (running : rewriter.finished = false) (waiting : earliest byteTerminators rewriter.buffer = none)
    (finished : ∀ frame ∈ (frames byteTerminators (rewriter.buffer ++ chunks.flatten)).1,
      frame.2.length ≤ frameLimit)
    (last : (frames byteTerminators (rewriter.buffer ++ chunks.flatten)).2.length ≤ frameLimit) :
    (rewriter.pushAll serde chunks).2 = sentFrames serde rewriter.publicModel
      (frames byteTerminators (rewriter.buffer ++ chunks.flatten)).1 := by
  rw [pushAll_within serde rewriter running waiting]
  intro count
  have grows (xs ys : List UInt8) : xs.length ≤ (xs ++ ys).length := by simp
  rw [← flatten_take_drop chunks count, ← List.append_assoc] at finished last
  exact byteTerminators_settled.rest_bounded grows finished last

/-- However a stream is cut, as long as no unfinished frame exceeds the limit after a chunk, the
rewriter sends on the same bytes and learns the same facts as from the stream in one piece. -/
theorem push_chunk_invariant (serde : Serde) (publicModel : List Char) (chunks : List (List UInt8))
    (within : ∀ count, (frames byteTerminators (chunks.take count).flatten).2.length ≤ frameLimit) :
    let cut := (FrameRewriter.new publicModel).pushAll serde chunks
    let whole := (FrameRewriter.new publicModel).push serde chunks.flatten
    cut.2 = whole.2 ∧ cut.1.hasGenerated = whole.1.hasGenerated ∧
      cut.1.completed = whole.1.completed ∧ cut.1.promptTokens = whole.1.promptTokens := by
  have all := within chunks.length
  rw [List.take_length] at all
  have pieces := pushAll_within serde (FrameRewriter.new publicModel) rfl rfl within
  have running : (FrameRewriter.new publicModel).finished = false := rfl
  have piece := push_eq serde running chunks.flatten
  have last : ¬ (frames byteTerminators ((FrameRewriter.new publicModel).buffer ++
      chunks.flatten)).2.length > frameLimit := Nat.not_lt.mpr all
  simp only [if_neg last] at piece
  rw [pieces, piece]
  exact ⟨rfl, rfl, rfl, rfl⟩

/-- Frames written one after the other are found again. -/
theorem frames_flatMap {parts : List (List UInt8 × List UInt8)}
    (lone : ∀ frame ∈ parts, IsFrame frame) :
    frames byteTerminators (parts.flatMap Prod.snd) = (parts, []) := by
  induction parts with
  | nil => rfl
  | cons frame parts ih =>
      have rest := ih fun other member => lone other (List.mem_cons_of_mem frame member)
      rw [List.flatMap_cons, byteTerminators_settled.frames_append,
        (lone frame List.mem_cons_self).frames, List.nil_append, rest]
      rfl

/-- What the rewriter sends on for one frame, as a frame. -/
structure SentFor (serde : Serde) (publicModel : List Char) (frame sent : List UInt8 × List UInt8) :
    Prop where
  bytes : sent.2 = (inspect serde frame.1).output serde publicModel frame.2
  lone : IsFrame sent
  renamed : Option.Rel (Renamed serde publicModel) (decoded frame.1) (decoded sent.1)

theorem exists_sent {serde : Serde} {publicModel : List Char} (lawful : serde.Lawful publicModel)
    {parts : List (List UInt8 × List UInt8)} (lone : ∀ frame ∈ parts, IsFrame frame)
    (valid : ∀ frame ∈ parts, ∃ text, fromUtf8 frame.1 = some text) :
    ∃ sent, List.Forall₂ (SentFor serde publicModel) parts sent := by
  induction parts with
  | nil => exact ⟨[], .nil⟩
  | cons frame parts ih =>
      obtain ⟨text, decodes⟩ := valid frame List.mem_cons_self
      obtain ⟨one, bytes, whole, renamed⟩ :=
        output_renamed lawful (lone frame List.mem_cons_self) decodes
      obtain ⟨rest, pairs⟩ := ih (fun other member => lone other (List.mem_cons_of_mem frame member))
        fun other member => valid other (List.mem_cons_of_mem frame member)
      exact ⟨one :: rest, .cons ⟨bytes, whole, renamed⟩ pairs⟩

theorem sentFrames_eq {serde : Serde} {publicModel : List Char}
    {parts sent : List (List UInt8 × List UInt8)}
    (pairs : List.Forall₂ (SentFor serde publicModel) parts sent) :
    sentFrames serde publicModel parts = sent.flatMap Prod.snd ∧ ∀ frame ∈ sent, IsFrame frame := by
  induction pairs with
  | nil => simp [sentFrames]
  | cons pair _ ih =>
      refine ⟨?_, ?_⟩
      · rw [sentFrames, List.flatMap_cons, List.flatMap_cons, pair.bytes, ← ih.1]
        rfl
      · simpa using ⟨pair.lone, fun a b => ih.2 (a, b)⟩

theorem forall₂_filterMap {α β γ δ : Type} {relation : γ → δ → Prop} {f : α → Option γ}
    {g : β → Option δ} {xs : List α} {ys : List β}
    (pairs : List.Forall₂ (fun x y => Option.Rel relation (f x) (g y)) xs ys) :
    List.Forall₂ relation (xs.filterMap f) (ys.filterMap g) := by
  induction pairs with
  | nil => exact .nil
  | cons pair rest ih =>
      rename_i x y xs ys
      rw [List.filterMap_cons, List.filterMap_cons]
      generalize f x = left at pair
      generalize g y = right at pair
      cases pair with
      | none => exact ih
      | some related => exact .cons related ih

/-- A valid stream of whole frames, pushed in chunks cut anywhere, reaches the client as the same
events, each with its model renamed. -/
theorem stream_renamed (serde : Serde) (publicModel : List Char) (chunks : List (List UInt8))
    (text : List Char) (lawful : serde.Lawful publicModel) (valid : chunks.flatten = encode text)
    (whole : (frames terminators text).2 = [])
    (within : ∀ frame ∈ (frames terminators text).1, byteLen frame.2 ≤ frameLimit) :
    List.Forall₂ (Renamed serde publicModel)
      (SseDecoder.new.yielded [chunks.flatten])
      (SseDecoder.new.yielded [((FrameRewriter.new publicModel).pushAll serde chunks).2]) := by
  have cut := frames_encode text
  rw [whole] at cut
  have lone : ∀ frame ∈ (frames byteTerminators (encode text)).1, IsFrame frame := fun frame =>
    IsFrame.of_mem
  have decodes : ∀ frame ∈ (frames byteTerminators (encode text)).1,
      ∃ part, fromUtf8 frame.1 = some part := by
    intro frame listed
    rw [cut] at listed
    obtain ⟨part, -, rfl⟩ := List.mem_map.mp listed
    exact ⟨part.1, fromUtf8_encode part.1⟩
  have finished : ∀ frame ∈ (frames byteTerminators ([] ++ chunks.flatten)).1,
      frame.2.length ≤ frameLimit := by
    intro frame listed
    rw [List.nil_append, valid, cut] at listed
    obtain ⟨part, member, rfl⟩ := List.mem_map.mp listed
    rw [length_encode]
    exact within part member
  have last : (frames byteTerminators ([] ++ chunks.flatten)).2.length ≤ frameLimit := by
    rw [List.nil_append, valid, cut]
    exact Nat.zero_le _
  have output := pushAll_eq serde (FrameRewriter.new publicModel) rfl rfl finished last
  obtain ⟨sent, pairs⟩ := exists_sent lawful lone decodes
  obtain ⟨bytes, whole'⟩ := sentFrames_eq pairs
  have sentBytes : ((FrameRewriter.new publicModel).pushAll serde chunks).2 =
      sent.flatMap Prod.snd := by
    rw [output, ← bytes]
    exact congrArg (fun stream => sentFrames serde publicModel (frames byteTerminators stream).1) valid
  rw [SseDecoder.new, yielded_single, yielded_single, eventsOf_fromUtf8Lossy, eventsOf_fromUtf8Lossy,
    sentBytes, frames_flatMap whole', valid]
  exact forall₂_filterMap (pairs.imp fun frame one sentFor => sentFor.renamed)

/-! ### A stream of one event -/

def nodeName : List Char := "Q".toList
def routeName : List Char := "Coder".toList

def printedModel (name : List Char) : List Char :=
  "\"model\":\"".toList ++ name ++ "\"".toList

def printedError (code message : List Char) : List Char :=
  "\"error\":\x7b\"code\":\"".toList ++ code ++ "\",\"message\":\"".toList ++ message ++
    "\",\"type\":\"server_error\"\x7d".toList

/-- Prints an object with a model, an error body, and an error body with a model. -/
def printSample : Value → List Char
  | .object [(_, .string name)] => "\x7b".toList ++ printedModel name ++ "\x7d".toList
  | .object [(_, .object [(_, .string code), (_, .string message), _])] =>
      "\x7b".toList ++ printedError code message ++ "\x7d".toList
  | .object [(_, .object [(_, .string code), (_, .string message), _]), (_, .string name)] =>
      "\x7b".toList ++ printedError code message ++ ",".toList ++ printedModel name ++ "\x7d".toList
  | _ => []

def underRoute : Value → Value
  | .object event => .object (Map.insert modelKey (.string routeName) event)
  | other => other

def sampleValues : List Value :=
  [.object [(modelKey, .string nodeName)], .object [(modelKey, .string routeName)]] ++
    failureBodies ++ failureBodies.map underRoute

/-- As much of `serde_json` as streams of these values need. -/
def sampleSerde : Serde where
  fromStr text :=
    if trim text = doneData then none
    else sampleValues[(sampleValues.map printSample).idxOf (text.filter (· ≠ '\n'))]?
  toString := printSample

/-- Each of the values is printed on a line, and no two of them on the same. -/
theorem sampleValues_printed : ∀ index : Fin sampleValues.length,
    (sampleValues.map printSample).idxOf ((printSample sampleValues[index]).filter (· ≠ '\n')) =
        index ∧
      trim (printSample sampleValues[index]) ≠ doneData ∧
      (printSample sampleValues[index]).any isBreak = false := by
  decide +kernel

theorem sampleSerde_reads : ∀ value ∈ sampleValues, sampleSerde.Reads value := by
  intro value listed
  obtain ⟨index, bound, rfl⟩ := List.getElem_of_mem listed
  obtain ⟨first, running, oneLine⟩ := sampleValues_printed ⟨index, bound⟩
  refine ⟨?_, fun c member => by simpa using List.any_eq_false.mp oneLine c member⟩
  have found : sampleSerde.fromStr (printSample sampleValues[index]) =
      sampleValues[(sampleValues.map printSample).idxOf
        ((printSample sampleValues[index]).filter (· ≠ '\n'))]? := if_neg running
  exact found.trans ((congrArg (sampleValues[·]?) first).trans (List.getElem?_eq_getElem bound))

theorem sampleSerde_failures : ∀ body ∈ failureBodies, sampleSerde.Reads body := by
  intro body listed
  apply sampleSerde_reads
  simp [sampleValues, listed]

theorem underRoute_sampleValues : ∀ value ∈ sampleValues, underRoute value ∈ sampleValues := by
  have models : ∀ value ∈ [Value.object [(modelKey, .string nodeName)],
      .object [(modelKey, .string routeName)]],
      underRoute value = .object [(modelKey, .string routeName)] := by
    simp only [List.forall_mem_cons]
    exact ⟨rfl, rfl, by simp⟩
  have twice : ∀ body ∈ failureBodies, underRoute (underRoute body) = underRoute body := by
    simp only [failureBodies, List.forall_mem_cons]
    exact ⟨rfl, rfl, rfl, by simp⟩
  intro value listed
  rcases List.mem_append.mp listed with front | back
  · rcases List.mem_append.mp front with model | body
    · rw [models value model]
      simp [sampleValues]
    · exact List.mem_append_right _ (List.mem_map_of_mem body)
  · obtain ⟨body, member, rfl⟩ := List.mem_map.mp back
    rw [twice body member]
    exact listed

theorem sampleSerde_lawful : sampleSerde.Lawful routeName := by
  constructor
  · constructor
    · intro front back
      have done := decide_eq_decide.mp (skipsBlank_done.between front back)
      simp only [sampleSerde, done, List.filter_append]
      rfl
    · intro text
      have done := decide_eq_decide.mp (skipsBlank_done.leading text)
      simp only [sampleSerde, done]
      rfl
    · intro text
      have done := decide_eq_decide.mp (skipsBlank_done.trailing text)
      simp only [sampleSerde, done, List.filter_append]
      simp
  · rfl
  · intro text ended
    simp [sampleSerde, ended]
  · intro text event found
    simp only [sampleSerde] at found
    split at found
    · cases found
    · exact sampleSerde_reads _ (underRoute_sampleValues _ (List.mem_of_getElem? found))

/-- An event under the node's name, in two chunks that are cut inside its data. -/
def nodeChunks : List (List UInt8) :=
  [encode "data: \x7b\"mod".toList, encode "el\":\"Q\"\x7d\n\n".toList]

def nodeText : List Char := "data: \x7b\"model\":\"Q\"\x7d\n\n".toList

theorem stream_renamed_once :
    sampleSerde.Lawful routeName ∧ nodeChunks.flatten = encode nodeText ∧
      (frames terminators nodeText).2 = [] ∧
      (∀ frame ∈ (frames terminators nodeText).1, byteLen frame.2 ≤ frameLimit) ∧
      List.Forall₂ (Renamed sampleSerde routeName) (SseDecoder.new.yielded [nodeChunks.flatten])
        (SseDecoder.new.yielded [((FrameRewriter.new routeName).pushAll sampleSerde nodeChunks).2]) :=
  ⟨sampleSerde_lawful, by decide +kernel, by decide +kernel, by decide +kernel,
    stream_renamed sampleSerde routeName nodeChunks nodeText sampleSerde_lawful (by decide +kernel)
      (by decide +kernel) (by decide +kernel)⟩

/-- A stream shorter than the limit has no frame beyond it. -/
theorem unfinished_of_short {chunks : List (List UInt8)}
    (short : chunks.flatten.length ≤ frameLimit) (count : Nat) :
    (frames byteTerminators (chunks.take count).flatten).2.length ≤ frameLimit := by
  have rest := congrArg List.length
    (byteTerminators_settled.frames_flatten (chunks.take count).flatten)
  rw [← flatten_take_drop chunks count, List.length_append] at short
  rw [List.length_append] at rest
  omega

/-- An event whose separator is cut, and one whose data is. -/
def separatorCut : List (List UInt8) :=
  [encode "data: \x7b\"model\":\"Q\"\x7d\r\n\r".toList, encode "\ndata: [DO".toList,
    encode "NE]\n\n".toList]

theorem push_chunk_invariant_separator :
    ((FrameRewriter.new routeName).pushAll sampleSerde separatorCut).1.completed = true ∧
      ((FrameRewriter.new routeName).pushAll sampleSerde separatorCut).2 =
        ((FrameRewriter.new routeName).push sampleSerde separatorCut.flatten).2 := by
  refine ⟨by decide +kernel, ?_⟩
  have same := push_chunk_invariant sampleSerde routeName separatorCut
    (unfinished_of_short (by decide +kernel))
  exact same.1

end Lightweight.Router
