import Lightweight.Router.FrameRewriter

/-! One frame through the rewriter, as the client's decoder reads it before and after. The two read
the lines of a frame differently in one point: a line `data` without a colon is an empty value to the
decoder and not data to the rewriter. -/

namespace Lightweight.Router

open Framing Utf8 Lightweight.Core

/-- What the router relies on in `serde_json`, for the values it prints under a route's name. -/
structure Serde.Lawful (serde : Serde) (publicModel : List Char) : Prop where
  blank : SkipsBlank serde.fromStr
  empty : serde.fromStr [] = none
  done : ∀ text, trim text = doneData → serde.fromStr text = none
  renamed : ∀ text event, serde.fromStr text = some (.object event) →
    serde.Reads (.object (Map.insert modelKey (.string publicModel) event))

/-- What the rewriter sees in a frame: the end marker, a JSON object beside other lines, or nothing
it acts on. -/
inductive Sight where
  | other
  | done
  | object (event : Map) (otherLines : List (List Char))

def inspect (serde : Serde) (content : List UInt8) : Sight :=
  match fromUtf8 content with
  | none => .other
  | some text =>
      if (dataLines text).isEmpty then .other
      else if trim (['\n'].intercalate (dataLines text)) = doneData then .done
      else
        match serde.fromStr (['\n'].intercalate (dataLines text)) with
        | some (.object event) => .object event (otherLines text)
        | _ => .other

/-- The bytes sent on for a frame. -/
def Sight.output (serde : Serde) (publicModel : List Char) (raw : List UInt8) : Sight → List UInt8
  | .object event otherLines =>
      if namesModel event then rewrite serde publicModel otherLines event else raw
  | _ => raw

/-- The rewriter after a frame. -/
def Sight.after (rewriter : FrameRewriter) : Sight → FrameRewriter
  | .other => rewriter
  | .done => { rewriter with sawDone := true }
  | .object event _ => rewriter.note event

theorem emit_eq (serde : Serde) (rewriter : FrameRewriter) (content raw : List UInt8) :
    rewriter.emit serde content raw =
      ((inspect serde content).after rewriter,
        (inspect serde content).output serde rewriter.publicModel raw) := by
  unfold FrameRewriter.emit inspect
  cases fromUtf8 content with
  | none => rfl
  | some text =>
      by_cases none : (dataLines text).isEmpty = true
      · simp only [if_pos none]
        rfl
      · by_cases done : trim (['\n'].intercalate (dataLines text)) = doneData
        · simp only [if_neg none, if_pos done]
          rfl
        · simp only [if_neg none, if_neg done]
          cases serde.fromStr (['\n'].intercalate (dataLines text)) with
          | none => rfl
          | some value =>
              cases value with
              | object event =>
                  simp only [Sight.after, Sight.output]
                  cases namesModel event <;> rfl
              | _ => rfl

/-! ### The lines of a frame -/

theorem linesOf_line {text line : List Char} (listed : line ∈ linesOf text) : Line line := by
  obtain ⟨member, some⟩ := List.mem_filter.mp listed
  exact ⟨by simpa using some, fun c inside => (mem_splitOnP member c inside).2⟩

theorem splitOnce_eq_some {separator : Char} {line : List Char} {parts : List Char × List Char}
    (found : splitOnce separator line = some parts) :
    line = parts.1 ++ separator :: parts.2 := by
  induction line generalizing parts with
  | nil => simp [splitOnce] at found
  | cons c line ih =>
      rw [splitOnce] at found
      split at found
      · rename_i same
        cases found
        simp [same]
      · obtain ⟨inner, deeper, rfl⟩ := Option.map_eq_some_iff.mp found
        simp [ih deeper]

/-- The decoder's data lines are the rewriter's, and the bare `data` lines with an empty value. -/
theorem fieldOf_dataValue (line : List Char) :
    (∃ value, dataValue line = some value ∧ fieldOf line = some (dataField, value)) ∨
      (dataValue line = none ∧ ∀ entry, fieldOf line = some entry → entry.1 = dataField →
        entry.2 = []) := by
  by_cases start : dataMark.isPrefixOf line = true
  · left
    obtain ⟨rest, rfl⟩ := List.isPrefixOf_iff_prefix.mp start
    refine ⟨stripSpace rest, ?_, ?_⟩
    · rw [dataValue, if_pos start, List.drop_left' rfl]
    · simp [fieldOf, dataMark, splitOnce, dataField]
  · right
    refine ⟨by rw [dataValue, if_neg start], ?_⟩
    intro entry found named
    rw [fieldOf] at found
    split at found
    · cases found
    · cases parts : splitOnce ':' line with
      | none =>
          rw [parts] at found
          cases found
          rfl
      | some halves =>
          rw [parts] at found
          cases found
          have whole := splitOnce_eq_some parts
          refine absurd (List.isPrefixOf_iff_prefix.mpr ⟨halves.2, ?_⟩) start
          rw [whole, named]
          rfl

theorem thins_dataLines (lines : List (List Char)) :
    Thins (valuesOf dataField lines) (lines.filterMap dataValue) := by
  induction lines with
  | nil => exact .nil
  | cons line lines ih =>
      rcases fieldOf_dataValue line with ⟨value, mine, theirs⟩ | ⟨mine, theirs⟩
      · simpa [valuesOf, mine, theirs] using Thins.keep value ih
      · cases found : fieldOf line with
        | none => simpa [valuesOf, mine, found] using ih
        | some entry =>
            by_cases named : entry.1 = dataField
            · have blank := theirs entry found named
              simpa [valuesOf, mine, found, named, blank] using Thins.drop ih
            · simpa [valuesOf, mine, found, named] using ih

theorem valuesOf_otherLines {name : List Char} (other : name ≠ dataField) (lines : List (List Char)) :
    valuesOf name (lines.filter fun line => (dataValue line).isNone) = valuesOf name lines := by
  induction lines with
  | nil => rfl
  | cons line lines ih =>
      rcases fieldOf_dataValue line with ⟨value, mine, theirs⟩ | ⟨mine, -⟩
      · have skipped : valuesOf name (line :: lines) = valuesOf name lines := by
          simp [valuesOf, theirs, Ne.symm other]
        rw [List.filter_cons_of_neg (by simp [mine]), ih, skipped]
      · rw [List.filter_cons_of_pos (by simp [mine]), valuesOf_cons, ih, ← valuesOf_cons]

theorem thins_otherLines (text : List Char) : Thins (valuesOf dataField (otherLines text)) [] := by
  have nothing : (otherLines text).filterMap dataValue = [] := by
    rw [List.filterMap_eq_nil_iff]
    intro line listed
    simpa using (List.mem_filter.mp listed).2
  rw [← nothing]
  exact thins_dataLines _

/-! ### The frame written anew -/

/-- The lines of a frame with its data replaced. -/
def renamedLines (text printed : List Char) : List (List Char) :=
  otherLines text ++ [['d', 'a', 't', 'a', ':', ' '] ++ printed]

theorem renamedLines_fit {text printed : List Char} (oneLine : ∀ c ∈ printed, isBreak c = false) :
    ∀ line ∈ renamedLines text printed, Line line := by
  intro line listed
  rcases List.mem_append.mp listed with here | last
  · exact linesOf_line (List.mem_filter.mp here).1
  · rw [List.mem_singleton] at last
    subst last
    refine ⟨by simp, fun c member => ?_⟩
    rcases List.mem_append.mp member with mark | inside
    · exact (by simp [isBreak] : ∀ c ∈ ['d', 'a', 't', 'a', ':', ' '], isBreak c = false) c mark
    · exact oneLine c inside

theorem encodeData_oneLine {printed : List Char} (oneLine : ∀ c ∈ printed, isBreak c = false) :
    encodeData printed = framed [['d', 'a', 't', 'a', ':', ' '] ++ printed] := by
  have plain : '\r' ∉ printed := fun member => absurd (oneLine _ member) (by decide)
  have single : printed.splitOn '\n' = [printed] :=
    List.splitOn_eq_singleton fun member => absurd (oneLine _ member) (by decide)
  rw [encodeData, encodeLines_eq_framed _ plain, single]
  rfl

theorem encode_append (xs ys : List Char) : encode (xs ++ ys) = encode xs ++ encode ys :=
  List.flatMap_append

theorem rewrite_eq_framed {serde : Serde} {publicModel : List Char} {event : Map} (text : List Char)
    (reads : serde.Reads (.object (Map.insert modelKey (.string publicModel) event))) :
    rewrite serde publicModel (otherLines text) event =
      encode (framed (renamedLines text
        (serde.toString (.object (Map.insert modelKey (.string publicModel) event))))) := by
  have lines (others : List (List Char)) :
      (others.flatMap fun line => encode line ++ [0x0A]) =
        encode (others.flatMap fun line => line ++ ['\n']) := by
    induction others with
    | nil => rfl
    | cons line others ih =>
        rw [List.flatMap_cons, ih, List.flatMap_cons, encode_append, encode_append]
        rfl
  rw [rewrite, lines, encodeData_oneLine reads.oneLine, ← encode_append, renamedLines, framed, framed]
  simp

/-- The event of the frame written anew: the data printed, and the other fields as they were. -/
theorem parseFrame_renamedLines {serde : Serde} {publicModel : List Char} {event : Map}
    (lawful : serde.Lawful publicModel) (text : List Char)
    (reads : serde.Reads (.object (Map.insert modelKey (.string publicModel) event))) :
    ∃ data, parseFrame (['\n'].intercalate (renamedLines text
          (serde.toString (.object (Map.insert modelKey (.string publicModel) event))))) =
        some
          { event := (valuesOf eventField (linesOf text)).getLast?, data,
            id := (valuesOf idField (linesOf text)).getLast? } ∧
      serde.fromStr data = some (.object (Map.insert modelKey (.string publicModel) event)) := by
  generalize (Value.object (Map.insert modelKey (.string publicModel) event)) = value at reads
  have names : eventField ≠ dataField ∧ idField ≠ dataField := by decide
  obtain ⟨single, nothing⟩ := valuesOf_data [serde.toString value]
  rw [List.map_singleton] at single nothing
  have thins := (thins_otherLines text).append (Thins.keep (serde.toString value) .nil)
  refine ⟨['\n'].intercalate (valuesOf dataField (otherLines text) ++ [serde.toString value]), ?_, ?_⟩
  · rw [parseFrame_eq, linesOf_intercalate (renamedLines_fit reads.oneLine), renamedLines,
      valuesOf_append, valuesOf_append, valuesOf_append, single, nothing eventField names.1,
      nothing idField names.2, List.append_nil, List.append_nil, otherLines,
      valuesOf_otherLines names.1, valuesOf_otherLines names.2]
    simp
  · have same := lawful.blank.thins thins [] (by simp)
    rw [List.nil_append, List.nil_append] at same
    rw [same]
    simpa using reads.back

/-! ### Before and after -/

/-- The event that a client decodes from a frame. -/
def decoded (content : List UInt8) : Option SseEvent :=
  parseFrame (fromUtf8Lossy content)

/-- The JSON object of an event's data, if it names a model. -/
def namedObject (serde : Serde) (data : List Char) : Option Map :=
  match serde.fromStr data with
  | some (.object event) => if namesModel event then some event else none
  | _ => none

/-- The same event, but for the member `model` of its data. -/
structure Renamed (serde : Serde) (publicModel : List Char) (before after : SseEvent) : Prop where
  event : after.event = before.event
  id : after.id = before.id
  kept : namedObject serde before.data = none → after.data = before.data
  renamed : ∀ object, namedObject serde before.data = some object →
    serde.fromStr after.data = some (.object (Map.insert modelKey (.string publicModel) object))

theorem Renamed.same {serde : Serde} {publicModel : List Char} {event : SseEvent}
    (unnamed : namedObject serde event.data = none) : Renamed serde publicModel event event :=
  ⟨rfl, rfl, fun _ => rfl, fun object found => by rw [unnamed] at found; cases found⟩

theorem parseFrame_of_dataLines {text : List Char} (kept : dataLines text ≠ []) :
    parseFrame text = some
      { event := (valuesOf eventField (linesOf text)).getLast?
        data := ['\n'].intercalate (valuesOf dataField (linesOf text))
        id := (valuesOf idField (linesOf text)).getLast? } := by
  have thins : Thins (valuesOf dataField (linesOf text)) (dataLines text) := thins_dataLines _
  rw [parseFrame_eq, if_neg (by simpa using thins.ne_nil kept)]

/-- To a reading that skips blank lines the decoder's data is the rewriter's. -/
theorem reading_data {β : Type} {reading : List Char → β} (skips : SkipsBlank reading)
    {text : List Char} {event : SseEvent} (found : parseFrame text = some event) :
    reading event.data = reading (['\n'].intercalate (dataLines text)) := by
  rw [parseFrame_eq] at found
  have thins : Thins (valuesOf dataField (linesOf text)) (dataLines text) := thins_dataLines _
  split at found
  · cases found
  · rename_i some
    cases found
    generalize valuesOf dataField (linesOf text) = values at thins some
    by_cases none : dataLines text = []
    · rw [none] at thins ⊢
      cases thins with
      | nil => exact absurd rfl some
      | drop rest => simpa using skips.thins rest [[]] (List.cons_ne_nil _ _)
    · simpa using skips.thins thins [] (by simpa using none)

/-- A frame on its own. -/
structure IsFrame (frame : List UInt8 × List UInt8) : Prop where
  ends : earliest byteTerminators frame.2 = some (frame.1.length, frame.2.length)
  start : frame.1 <+: frame.2

theorem IsFrame.frames {frame : List UInt8 × List UInt8} (lone : IsFrame frame) :
    Framing.frames byteTerminators frame.2 = ([frame], []) := by
  have content : frame.2.take frame.1.length = frame.1 := (List.prefix_iff_eq_take.mp lone.start).symm
  rw [byteTerminators_settled.frames_of_some lone.ends, content, List.take_length, List.drop_length]
  rfl

theorem IsFrame.of_mem {bytes : List UInt8} {frame : List UInt8 × List UInt8}
    (listed : frame ∈ (Framing.frames byteTerminators bytes).1) : IsFrame frame :=
  ⟨(byteTerminators_settled.frame_of_mem listed).1, (byteTerminators_settled.frame_of_mem listed).2⟩

theorem decoded_of_valid {content : List UInt8} {text : List Char}
    (valid : fromUtf8 content = some text) : decoded content = parseFrame text := by
  rw [decoded, fromUtf8Lossy_of_fromUtf8 valid]

/-- The rewriter's output depends on its data only through the object it may name a model in. -/
theorem output_eq {serde : Serde} {publicModel : List Char} (lawful : serde.Lawful publicModel)
    {content : List UInt8} (raw : List UInt8) {text : List Char}
    (valid : fromUtf8 content = some text) :
    (inspect serde content).output serde publicModel raw =
      match namedObject serde (['\n'].intercalate (dataLines text)) with
      | some event => rewrite serde publicModel (otherLines text) event
      | none => raw := by
  unfold inspect namedObject
  simp only [valid]
  by_cases none : (dataLines text).isEmpty = true
  · have nothing : ['\n'].intercalate (dataLines text) = [] := by
      rw [List.isEmpty_iff.mp none, List.intercalate_nil]
    simp only [if_pos none, nothing, lawful.empty]
    rfl
  · by_cases done : trim (['\n'].intercalate (dataLines text)) = doneData
    · simp only [if_neg none, if_pos done, lawful.done _ done]
      rfl
    · simp only [if_neg none, if_neg done]
      cases serde.fromStr (['\n'].intercalate (dataLines text)) with
      | none => rfl
      | some value =>
          cases value with
          | object event =>
              simp only [Sight.output]
              cases namesModel event <;> rfl
          | _ => rfl

theorem namedObject_eq_some {serde : Serde} {data : List Char} {object : Map}
    (found : namedObject serde data = some object) : serde.fromStr data = some (.object object) := by
  unfold namedObject at found
  split at found
  · rename_i event parsed
    split at found
    · cases found
      exact parsed
    · cases found
  · cases found

/-- A written frame of text is a frame of bytes. -/
theorem isFrame_framed {lines : List (List Char)} (nonempty : lines ≠ [])
    (fit : ∀ line ∈ lines, Line line) :
    IsFrame (encode (['\n'].intercalate lines), encode (framed lines)) := by
  have found := frames_framed nonempty fit []
  have bytes := frames_encode (framed lines)
  rw [List.append_nil] at found
  rw [found] at bytes
  apply IsFrame.of_mem
  rw [bytes]
  exact List.mem_cons_self

/-- A frame without a model to rename is sent on as it came, any other one as a frame of the same
event with the model renamed. -/
theorem output_renamed {serde : Serde} {publicModel : List Char} (lawful : serde.Lawful publicModel)
    {frame : List UInt8 × List UInt8} (lone : IsFrame frame) {text : List Char}
    (valid : fromUtf8 frame.1 = some text) :
    ∃ sent, sent.2 = (inspect serde frame.1).output serde publicModel frame.2 ∧ IsFrame sent ∧
      Option.Rel (Renamed serde publicModel) (decoded frame.1) (decoded sent.1) := by
  have named {event : SseEvent} (found : parseFrame text = some event) :
      namedObject serde event.data = namedObject serde (['\n'].intercalate (dataLines text)) := by
    unfold namedObject
    rw [reading_data lawful.blank found]
  rw [output_eq lawful frame.2 valid, decoded_of_valid valid]
  cases object : namedObject serde (['\n'].intercalate (dataLines text)) with
  | none =>
      refine ⟨frame, rfl, lone, ?_⟩
      rw [decoded_of_valid valid]
      cases found : parseFrame text with
      | none => exact .none
      | some event => exact .some (Renamed.same ((named found).trans object))
  | some object' =>
      have reads := lawful.renamed _ _ (namedObject_eq_some object)
      have nonempty (printed : List Char) : renamedLines text printed ≠ [] := by simp [renamedLines]
      obtain ⟨data, written, back⟩ := parseFrame_renamedLines lawful text reads
      refine ⟨_, (rewrite_eq_framed text reads).symm,
        isFrame_framed (nonempty _) (renamedLines_fit reads.oneLine), ?_⟩
      have kept : dataLines text ≠ [] := by
        intro none
        rw [none, List.intercalate_nil] at object
        have parsed := namedObject_eq_some object
        rw [lawful.empty] at parsed
        cases parsed
      have found := parseFrame_of_dataLines kept
      have before := (named found).trans object
      rw [decoded, fromUtf8Lossy_encode, written, found]
      refine .some ⟨rfl, rfl, fun unnamed => ?_, fun other same => ?_⟩
      · rw [before] at unnamed
        cases unnamed
      · rw [before] at same
        cases same
        exact back

end Lightweight.Router
