import Mathlib.Data.List.DropRight
import Lightweight.Framing
import Lightweight.Utf8

/-! The server-sent event codec of `lightweight-core`. Text is a list of characters, so the offsets of
a frame count characters where the source counts bytes; `byteLen` is the length the limit is about. -/

namespace Lightweight.Core

open Framing Utf8

def doneData : List Char := ['[', 'D', 'O', 'N', 'E', ']']

structure SseEvent where
  event : Option (List Char)
  data : List Char
  id : Option (List Char)
deriving DecidableEq, Repr

/-- A plain data-only event. -/
def SseEvent.ofData (payload : List Char) : SseEvent :=
  { event := none, data := payload, id := none }

/-- The characters with the Unicode property `White_Space`. -/
def isWhitespace (c : Char) : Bool :=
  (0x9 ≤ c.toNat && c.toNat ≤ 0xD) || c.toNat == 0x20 || c.toNat == 0x85 || c.toNat == 0xA0 ||
    c.toNat == 0x1680 || (0x2000 ≤ c.toNat && c.toNat ≤ 0x200A) || c.toNat == 0x2028 ||
    c.toNat == 0x2029 || c.toNat == 0x202F || c.toNat == 0x205F || c.toNat == 0x3000

def trim (text : List Char) : List Char :=
  (text.dropWhile isWhitespace).rdropWhile isWhitespace

def SseEvent.isDone (event : SseEvent) : Bool :=
  trim event.data == doneData

inductive SseDecodeError where
  | frameTooLarge (limit : Nat)
deriving DecidableEq, Repr

structure SseDecoder where
  buffer : List Char
  ready : List SseEvent
  limit : Nat
  poisoned : Bool
deriving DecidableEq, Repr

def SseDecoder.withLimit (limit : Nat) : SseDecoder :=
  { buffer := [], ready := [], limit, poisoned := false }

def defaultFrameLimit : Nat := 8 * 1024 * 1024

def SseDecoder.new : SseDecoder := SseDecoder.withLimit defaultFrameLimit

/-- The bytes of a text in UTF-8. -/
def byteLen : List Char → Nat
  | [] => 0
  | c :: text => c.utf8Size + byteLen text

def terminators : List (List Char) :=
  [['\r', '\n', '\r', '\n'], ['\n', '\n'], ['\r', '\r'], ['\n', '\r', '\n']]

structure FrameEnd where
  frame : Nat
  content : Nat
deriving DecidableEq, Repr

def findFrameEnd (buffer : List Char) : Option FrameEnd :=
  (earliest terminators buffer).map fun found => { frame := found.2, content := found.1 }

def isBreak (c : Char) : Bool := c == '\n' || c == '\r'

def linesOf (frame : List Char) : List (List Char) :=
  (frame.splitOnP isBreak).filter fun line => !line.isEmpty

/-- What precedes and what follows the first separator. -/
def splitOnce (separator : Char) : List Char → Option (List Char × List Char)
  | [] => none
  | c :: rest =>
      if c = separator then some ([], rest)
      else (splitOnce separator rest).map fun parts => (c :: parts.1, parts.2)

def stripSpace : List Char → List Char
  | ' ' :: rest => rest
  | value => value

def dataField : List Char := ['d', 'a', 't', 'a']
def eventField : List Char := ['e', 'v', 'e', 'n', 't']
def idField : List Char := ['i', 'd']

/-- The field of a line and its value; a comment has none. -/
def fieldOf (line : List Char) : Option (List Char × List Char) :=
  if line.head? = some ':' then none
  else
    match splitOnce ':' line with
    | some (field, value) => some (field, stripSpace value)
    | none => some (line, [])

/-- The event so far, and whether it has data, after one more line. -/
def readLine (state : SseEvent × Bool) (line : List Char) : SseEvent × Bool :=
  match fieldOf line with
  | none => state
  | some (field, value) =>
      if field = dataField then
        let data := if state.2 then state.1.data ++ ['\n'] else state.1.data
        ({ state.1 with data := data ++ value }, true)
      else if field = eventField then ({ state.1 with event := some value }, state.2)
      else if field = idField then ({ state.1 with id := some value }, state.2)
      else state

def parseFrame (frame : List Char) : Option SseEvent :=
  let last := (linesOf frame).foldl readLine ({ event := none, data := [], id := none }, false)
  if last.2 then some last.1 else none

/-- The loop of `extract`; every frame uses up fuel. -/
def SseDecoder.extractLoop : Nat → SseDecoder → Except SseDecodeError Unit × SseDecoder
  | 0, decoder => (.ok (), decoder)
  | fuel + 1, decoder =>
      match findFrameEnd decoder.buffer with
      | none =>
          if byteLen decoder.buffer > decoder.limit then
            (.error (.frameTooLarge decoder.limit), { decoder with poisoned := true, buffer := [] })
          else (.ok (), decoder)
      | some last =>
          let frame := decoder.buffer.take last.frame
          extractLoop fuel { decoder with
            buffer := decoder.buffer.drop last.frame
            ready := decoder.ready ++ (parseFrame (frame.take last.content)).toList }

/-- A frame takes at least one character, so the loop ends within this fuel. -/
def SseDecoder.extract (decoder : SseDecoder) : Except SseDecodeError Unit × SseDecoder :=
  decoder.extractLoop (decoder.buffer.length + 1)

def SseDecoder.feed (decoder : SseDecoder) (chunk : List UInt8) :
    Except SseDecodeError Unit × SseDecoder :=
  if decoder.poisoned then (.error (.frameTooLarge decoder.limit), decoder)
  else SseDecoder.extract { decoder with buffer := decoder.buffer ++ fromUtf8Lossy chunk }

def SseDecoder.drain (decoder : SseDecoder) : List SseEvent × SseDecoder :=
  (decoder.ready, { decoder with ready := [] })

/-- The events taken over a sequence of chunks, after each of them what is ready. -/
def SseDecoder.yielded : SseDecoder → List (List UInt8) → List SseEvent
  | _, [] => []
  | decoder, chunk :: chunks =>
      let taken := (decoder.feed chunk).2.drain
      taken.1 ++ taken.2.yielded chunks

/-- The lines of a text behind a prefix each, and the blank line that ends the frame. -/
def encodeLines (before : List Char) (text : List Char) : List Char :=
  ((text.splitOn '\n').flatMap fun line => before ++ line.rdropWhile (· == '\r') ++ ['\n']) ++ ['\n']

def encodeData (payload : List Char) : List Char :=
  encodeLines ['d', 'a', 't', 'a', ':', ' '] payload

def encodeComment (text : List Char) : List Char :=
  encodeLines [':', ' '] text

/-! ### The frames of a text -/

theorem terminators_settled : Settled terminators :=
  Settled.of_offsets (by decide) (by decide)

/-- The events of the frames a text holds. -/
def eventsOf (text : List Char) : List SseEvent :=
  (frames terminators text).1.filterMap fun frame => parseFrame frame.1

/-- No frame of the text, finished or not, is above the limit. -/
def FramesWithin (limit : Nat) (text : List Char) : Prop :=
  (∀ frame ∈ (frames terminators text).1, byteLen frame.2 ≤ limit) ∧
    byteLen (frames terminators text).2 ≤ limit

instance (limit : Nat) (text : List Char) : Decidable (FramesWithin limit text) :=
  inferInstanceAs (Decidable ((∀ frame ∈ (frames terminators text).1, byteLen frame.2 ≤ limit) ∧
    byteLen (frames terminators text).2 ≤ limit))

theorem eventsOf_append (xs ys : List Char) :
    eventsOf (xs ++ ys) = eventsOf xs ++ eventsOf ((frames terminators xs).2 ++ ys) := by
  simp only [eventsOf, terminators_settled.frames_append xs ys, List.filterMap_append]

theorem byteLen_append (xs ys : List Char) : byteLen (xs ++ ys) = byteLen xs + byteLen ys := by
  induction xs with
  | nil => simp [byteLen]
  | cons c xs ih => simp [byteLen, ih, Nat.add_assoc]

/-- What `extract` does to a buffer: the events of its frames become ready, and what is left is kept
unless it is above the limit. -/
theorem extractLoop_eq {fuel : Nat} (decoder : SseDecoder) (enough : decoder.buffer.length < fuel) :
    decoder.extractLoop fuel =
      let cut := frames terminators decoder.buffer
      let ready := decoder.ready ++ eventsOf decoder.buffer
      if byteLen cut.2 > decoder.limit then
        (.error (.frameTooLarge decoder.limit), { decoder with buffer := [], ready, poisoned := true })
      else (.ok (), { decoder with buffer := cut.2, ready }) := by
  induction fuel generalizing decoder with
  | zero => omega
  | succ fuel ih =>
      unfold SseDecoder.extractLoop findFrameEnd
      cases found : earliest terminators decoder.buffer with
      | none => simp [eventsOf, frames_of_none found]
      | some cut =>
          obtain ⟨content, total⟩ := cut
          obtain ⟨positive, bound, inside⟩ := terminators_settled.total_pos found
          have shorter : (decoder.buffer.drop total).length < fuel := by
            rw [List.length_drop]
            omega
          have content_take : (decoder.buffer.take total).take content = decoder.buffer.take content := by
            rw [List.take_take, min_eq_left inside]
          simp only [Option.map_some]
          rw [ih _ shorter]
          simp only [eventsOf, terminators_settled.frames_of_some found, content_take,
            List.filterMap_cons]
          cases parseFrame (decoder.buffer.take content) <;> simp

theorem feed_ready {decoder : SseDecoder} (healthy : decoder.poisoned = false) (chunk : List UInt8) :
    (decoder.feed chunk).2.ready =
      decoder.ready ++ eventsOf (decoder.buffer ++ fromUtf8Lossy chunk) := by
  rw [SseDecoder.feed, if_neg (by simp [healthy]), SseDecoder.extract,
    extractLoop_eq _ (Nat.lt_succ_self _)]
  dsimp only
  split <;> rfl

/-- A stream in one chunk yields the events of its frames, whatever the limit. -/
theorem yielded_single (limit : Nat) (bytes : List UInt8) :
    (SseDecoder.withLimit limit).yielded [bytes] = eventsOf (fromUtf8Lossy bytes) :=
  calc
    (SseDecoder.withLimit limit).yielded [bytes]
      = ((SseDecoder.withLimit limit).feed bytes).2.ready := List.append_nil _
    _ = eventsOf (fromUtf8Lossy bytes) := feed_ready rfl bytes

/-- Between two calls the decoder holds an unfinished frame. -/
structure SseDecoder.Waiting (decoder : SseDecoder) : Prop where
  healthy : decoder.poisoned = false
  unfinished : earliest terminators decoder.buffer = none

theorem withLimit_waiting (limit : Nat) : (SseDecoder.withLimit limit).Waiting :=
  ⟨rfl, rfl⟩

/-- A text within the limit leaves no more than the limit behind at any point of it. -/
theorem FramesWithin.rest {limit : Nat} {text more : List Char}
    (within : FramesWithin limit (text ++ more)) : byteLen (frames terminators text).2 ≤ limit := by
  have grows (xs ys : List Char) : byteLen xs ≤ byteLen (xs ++ ys) := by
    rw [byteLen_append]
    exact Nat.le_add_right _ _
  exact terminators_settled.rest_bounded grows within.1 within.2

theorem feed_within {decoder : SseDecoder} (waiting : decoder.Waiting) {chunk : List UInt8}
    (within : byteLen (frames terminators (decoder.buffer ++ fromUtf8Lossy chunk)).2 ≤ decoder.limit) :
    decoder.feed chunk = (.ok (), { decoder with
      buffer := (frames terminators (decoder.buffer ++ fromUtf8Lossy chunk)).2
      ready := decoder.ready ++ eventsOf (decoder.buffer ++ fromUtf8Lossy chunk) }) := by
  have fine : ¬decoder.limit < byteLen (frames terminators (decoder.buffer ++ fromUtf8Lossy chunk)).2 :=
    Nat.not_lt.mpr within
  rw [SseDecoder.feed, if_neg (by simp [waiting.healthy]), SseDecoder.extract,
    extractLoop_eq _ (Nat.lt_succ_self _)]
  exact if_neg fine

/-- What the decoder does with a chunk of a text that stays within the limit: it takes the events
out, and keeps a part of the text that stays within the limit too. -/
theorem feed_within_next {decoder : SseDecoder} (waiting : decoder.Waiting) {chunk : List UInt8}
    {more : List Char}
    (within : FramesWithin decoder.limit (decoder.buffer ++ fromUtf8Lossy chunk ++ more)) :
    ∃ next, decoder.feed chunk = (.ok (), next) ∧
      next.drain.1 = decoder.ready ++ eventsOf (decoder.buffer ++ fromUtf8Lossy chunk) ∧
      next.drain.2.Waiting ∧
      FramesWithin next.drain.2.limit (next.drain.2.buffer ++ more) ∧
      eventsOf (decoder.buffer ++ fromUtf8Lossy chunk ++ more) =
        eventsOf (decoder.buffer ++ fromUtf8Lossy chunk) ++ eventsOf (next.drain.2.buffer ++ more) := by
  refine ⟨_, feed_within waiting within.rest, rfl, ⟨waiting.healthy, ?_⟩, ?_, eventsOf_append _ _⟩
  · exact terminators_settled.frames_rest _
  · rw [FramesWithin, terminators_settled.frames_append] at within
    exact ⟨fun frame member => within.1 frame (List.mem_append_right _ member), within.2⟩

/-- Over chunks that stay within the limit the decoder yields the events of the text the chunks
spell one after the other. -/
theorem yielded_eq (decoder : SseDecoder) {chunks : List (List UInt8)} (waiting : decoder.Waiting)
    (drained : decoder.ready = [])
    (within : FramesWithin decoder.limit (decoder.buffer ++ chunks.flatMap fromUtf8Lossy)) :
    decoder.yielded chunks = eventsOf (decoder.buffer ++ chunks.flatMap fromUtf8Lossy) := by
  induction chunks generalizing decoder with
  | nil => simp [SseDecoder.yielded, eventsOf, frames_of_none waiting.unfinished]
  | cons chunk chunks ih =>
      rw [List.flatMap_cons, ← List.append_assoc] at within ⊢
      obtain ⟨next, fed, taken, waiting', within', split⟩ := feed_within_next waiting within
      rw [SseDecoder.yielded, fed]
      dsimp only
      rw [ih _ waiting' rfl within', taken, drained, List.nil_append, split]

theorem yielded_withLimit {limit : Nat} {chunks : List (List UInt8)}
    (within : FramesWithin limit (chunks.flatMap fromUtf8Lossy)) :
    (SseDecoder.withLimit limit).yielded chunks = eventsOf (chunks.flatMap fromUtf8Lossy) :=
  yielded_eq _ (withLimit_waiting limit) rfl within

/-! ### The event of a frame -/

/-- The values a frame gives a field. -/
def valuesOf (name : List Char) (lines : List (List Char)) : List (List Char) :=
  (lines.filterMap fieldOf).filterMap fun entry => if entry.1 = name then some entry.2 else none

theorem valuesOf_append (name : List Char) (xs ys : List (List Char)) :
    valuesOf name (xs ++ ys) = valuesOf name xs ++ valuesOf name ys := by
  simp [valuesOf]

theorem valuesOf_cons (name line : List Char) (lines : List (List Char)) :
    valuesOf name (line :: lines) = valuesOf name [line] ++ valuesOf name lines :=
  valuesOf_append name [line] lines

theorem intercalate_append {xs ys : List (List Char)} (left : xs ≠ []) (right : ys ≠ []) :
    ['\n'].intercalate (xs ++ ys) = ['\n'].intercalate xs ++ ['\n'] ++ ['\n'].intercalate ys := by
  induction xs with
  | nil => exact absurd rfl left
  | cons x xs ih =>
      cases xs with
      | nil => simp [List.intercalate_cons_of_ne_nil right]
      | cons next xs => simpa using ih (List.cons_ne_nil _ _)

theorem intercalate_concat (values : List (List Char)) (value : List Char) :
    ['\n'].intercalate (values ++ [value]) =
      (if values.isEmpty then [] else ['\n'].intercalate values ++ ['\n']) ++ value := by
  cases values with
  | nil => simp
  | cons first values =>
      rw [intercalate_append (List.cons_ne_nil _ _) (List.cons_ne_nil _ _)]
      simp

/-- One line adds its data value, or replaces the value of another field. -/
theorem readLine_eq (line : List Char) (event id : Option (List Char)) (values : List (List Char)) :
    readLine ({ event, data := ['\n'].intercalate values, id }, !values.isEmpty) line =
      ({ event := (valuesOf eventField [line]).getLast?.or event
         data := ['\n'].intercalate (values ++ valuesOf dataField [line])
         id := (valuesOf idField [line]).getLast?.or id },
        !(values ++ valuesOf dataField [line]).isEmpty) := by
  unfold readLine valuesOf
  cases entry : fieldOf line with
  | none => simp [entry]
  | some parts =>
      obtain ⟨field, value⟩ := parts
      have names : dataField ≠ eventField ∧ dataField ≠ idField ∧ eventField ≠ idField := by decide
      by_cases data : field = dataField
      · subst data
        simp only [List.filterMap_cons, entry, List.filterMap_nil, if_true, names.1, names.2.1,
          if_false, intercalate_concat]
        cases values <;> simp
      · by_cases named : field = eventField
        · subst named
          simp [entry, data, names]
        · by_cases last : field = idField
          · subst last
            simp [entry, data, named]
          · simp [entry, data, named, last]

/-- The event a frame has read after some lines: the data values joined, of each other field the
last value. -/
theorem foldl_readLine (lines : List (List Char)) (event id : Option (List Char))
    (values : List (List Char)) :
    lines.foldl readLine
        ({ event, data := ['\n'].intercalate values, id }, !values.isEmpty) =
      ({ event := (valuesOf eventField lines).getLast?.or event
         data := ['\n'].intercalate (values ++ valuesOf dataField lines)
         id := (valuesOf idField lines).getLast?.or id },
        !(values ++ valuesOf dataField lines).isEmpty) := by
  induction lines generalizing event id values with
  | nil => simp [valuesOf]
  | cons line lines ih =>
      rw [List.foldl_cons, readLine_eq, ih, valuesOf_cons eventField line lines,
        valuesOf_cons dataField line lines, valuesOf_cons idField line lines]
      simp only [List.getLast?_append, Option.or_assoc, List.append_assoc]

/-- The event of a frame, field by field. -/
theorem parseFrame_eq (frame : List Char) :
    parseFrame frame =
      if (valuesOf dataField (linesOf frame)).isEmpty then none
      else some
        { event := (valuesOf eventField (linesOf frame)).getLast?
          data := ['\n'].intercalate (valuesOf dataField (linesOf frame))
          id := (valuesOf idField (linesOf frame)).getLast? } := by
  have read := foldl_readLine (linesOf frame) none none []
  rw [List.intercalate_nil, List.isEmpty_nil, Bool.not_true] at read
  rw [parseFrame, read]
  simp only [List.nil_append, Option.or_none]
  cases (valuesOf dataField (linesOf frame)).isEmpty <;> rfl

end Lightweight.Core
