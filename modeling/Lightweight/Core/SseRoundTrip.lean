import Lightweight.Core.Sse
import Lightweight.Spelling

/-! The encoder and the decoder are inverse to each other: a frame written line by line is found again
as that frame, and its lines are read back as they were written. -/

namespace Lightweight.Core

open Framing Utf8

/-- A line that can stand in a frame. -/
structure Line (line : List Char) : Prop where
  some : line ≠ []
  inner : ∀ c ∈ line, isBreak c = false

/-- Lines with their ends, and the blank line that ends the frame. -/
def framed (lines : List (List Char)) : List Char :=
  (lines.flatMap fun line => line ++ ['\n']) ++ ['\n']

theorem Line.not_mem {line : List Char} (fits : Line line) : '\n' ∉ line ∧ '\r' ∉ line := by
  constructor
  · intro member
    exact absurd (fits.inner _ member) (by decide)
  · intro member
    exact absurd (fits.inner _ member) (by decide)

theorem framed_eq_intercalate (lines : List (List Char)) :
    framed lines = ['\n'].intercalate (lines ++ [[], []]) := by
  induction lines with
  | nil => rfl
  | cons line lines ih =>
      rw [List.cons_append, List.intercalate_cons_of_ne_nil (by simp), ← ih]
      simp [framed]

theorem framed_eq_append {lines : List (List Char)} (nonempty : lines ≠ []) :
    framed lines = ['\n'].intercalate lines ++ ['\n', '\n'] := by
  induction lines with
  | nil => exact absurd rfl nonempty
  | cons line lines ih =>
      cases lines with
      | nil => simp [framed]
      | cons next lines =>
          have rest := ih (List.cons_ne_nil _ _)
          rw [List.intercalate_cons_cons, List.append_assoc, ← rest]
          simp [framed]

theorem splitOn_framed {lines : List (List Char)} (fit : ∀ line ∈ lines, Line line) :
    (framed lines).splitOn '\n' = lines ++ [[], []] := by
  rw [framed_eq_intercalate]
  apply List.splitOn_intercalate
  · intro line member
    rcases List.mem_append.mp member with here | blank
    · exact (fit line here).not_mem.1
    · have empty : line = [] := by simpa using blank
      simp [empty]
  · simp

theorem return_not_mem_framed {lines : List (List Char)} (fit : ∀ line ∈ lines, Line line) :
    '\r' ∉ framed lines := by
  simp only [framed, List.mem_append, List.mem_flatMap, List.mem_singleton, not_or, not_exists,
    not_and]
  refine ⟨fun line member => ⟨(fit line member).not_mem.2, by decide⟩, by decide⟩

/-- Between its lines a frame has no blank line. -/
theorem framed_first_blank {lines : List (List Char)} (fit : ∀ line ∈ lines, Line line)
    {front back : List Char} (occurs : framed lines = front ++ ['\n', '\n'] ++ back) :
    front = ['\n'].intercalate lines := by
  have parts : lines ++ [[], []] = front.splitOn '\n' ++ [] :: back.splitOn '\n' := by
    rw [← splitOn_framed fit, occurs, List.append_assoc, List.cons_append,
      List.splitOn_append_cons_self, List.cons_append, List.nil_append,
      List.splitOn_cons_eq_if_modifyHead]
    rfl
  have same : front.splitOn '\n' = lines := by
    rcases List.append_eq_append_iff.mp parts with ⟨gap, left, right⟩ | ⟨gap, left, right⟩
    · cases gap with
      | nil => simpa using left
      | cons first gap =>
          have short := congrArg List.length right
          have ended := List.length_pos_iff.mpr (List.splitOn_ne_nil '\n' back)
          simp only [List.cons_append, List.length_cons, List.length_append, List.length_nil] at short
          omega
    · cases gap with
      | nil => simpa using left.symm
      | cons first gap =>
          simp only [List.cons_append, List.cons.injEq] at right
          have blank : [] ∈ lines := by
            rw [left, right.1]
            simp
          exact absurd rfl (fit [] blank).some
  rw [← same, List.intercalate_splitOn]

theorem earliest_framed {lines : List (List Char)} (nonempty : lines ≠ [])
    (fit : ∀ line ∈ lines, Line line) :
    earliest terminators (framed lines) =
      some ((['\n'].intercalate lines).length, (framed lines).length) := by
  apply terminators_settled.earliest_eq
  have whole := framed_eq_append nonempty
  constructor
  · refine ⟨['\n', '\n'], by decide, [], ?_, ?_, ?_⟩
    · rw [whole, List.take_left' rfl, List.append_nil]
    · rw [whole]
      simp
    · rw [whole]
      simp
  · intro terminator listed front back occurs
    have plain : '\r' ∉ terminator := fun member => return_not_mem_framed fit (by
      rw [occurs]
      simp [member])
    have blank : terminator = ['\n', '\n'] := by
      simp only [terminators, List.mem_cons, List.not_mem_nil, or_false] at listed
      rcases listed with rfl | rfl | rfl | rfl
      · exact absurd (by decide) plain
      · rfl
      · exact absurd (by decide) plain
      · exact absurd (by decide) plain
    subst blank
    rw [framed_first_blank fit occurs]

/-- A written frame is found again, whatever follows it. -/
theorem frames_framed {lines : List (List Char)} (nonempty : lines ≠ [])
    (fit : ∀ line ∈ lines, Line line) (rest : List Char) :
    frames terminators (framed lines ++ rest) =
      ((['\n'].intercalate lines, framed lines) :: (frames terminators rest).1,
        (frames terminators rest).2) := by
  have found := terminators_settled.earliest_append rest (earliest_framed nonempty fit)
  have content : (framed lines ++ rest).take (['\n'].intercalate lines).length =
      ['\n'].intercalate lines := by
    rw [framed_eq_append nonempty, List.append_assoc]
    exact List.take_left' rfl
  rw [terminators_settled.frames_of_some found, content, List.take_left' rfl, List.drop_left' rfl]

theorem linesOf_intercalate {lines : List (List Char)} (fit : ∀ line ∈ lines, Line line) :
    linesOf (['\n'].intercalate lines) = lines := by
  induction lines with
  | nil => rfl
  | cons line lines ih =>
      have here := fit line List.mem_cons_self
      have rest := ih fun other member => fit other (List.mem_cons_of_mem line member)
      cases lines with
      | nil => simp [linesOf, List.splitOnP_eq_singleton here.inner, here.some]
      | cons next lines =>
          rw [List.intercalate_cons_cons, List.append_assoc, linesOf, List.singleton_append,
            List.splitOnP_append_cons_of_forall_mem here.inner '\n' (by decide)]
          rw [List.filter_cons_of_pos (by simpa using here.some)]
          exact congrArg (line :: ·) rest

/-! ### Encoding -/

theorem rdropWhile_return {line : List Char} (absent : '\r' ∉ line) :
    line.rdropWhile (· == '\r') = line := by
  apply List.rdropWhile_eq_self_iff.mpr
  intro nonempty last
  have same : line.getLast nonempty = '\r' := by simpa using last
  exact absent (same ▸ List.getLast_mem nonempty)

theorem splitOn_return {text : List Char} (absent : '\r' ∉ text) {line : List Char}
    (listed : line ∈ text.splitOn '\n') : ∀ c ∈ line, isBreak c = false := by
  intro c member
  obtain ⟨inside, other⟩ := mem_splitOnP listed c member
  have different : c ≠ '\r' := by
    rintro rfl
    exact absent inside
  simp only [beq_eq_false_iff_ne] at other
  simp [isBreak, other, different]

theorem encodeLines_eq_framed (before : List Char) {text : List Char} (absent : '\r' ∉ text) :
    encodeLines before text = framed ((text.splitOn '\n').map (before ++ ·)) := by
  rw [encodeLines, framed, List.flatMap_map]
  congr 1
  apply List.flatMap_congr
  intro line listed
  have plain : '\r' ∉ line := fun member =>
    absurd (splitOn_return absent listed _ member) (by decide)
  rw [rdropWhile_return plain]

theorem fieldOf_data (line : List Char) :
    fieldOf (['d', 'a', 't', 'a', ':', ' '] ++ line) = some (dataField, line) := by
  simp [fieldOf, splitOnce, stripSpace, dataField]

theorem fieldOf_comment (line : List Char) : fieldOf ([':', ' '] ++ line) = none := by
  simp [fieldOf]

theorem valuesOf_data (lines : List (List Char)) :
    valuesOf dataField (lines.map (['d', 'a', 't', 'a', ':', ' '] ++ ·)) = lines ∧
      ∀ name, name ≠ dataField → valuesOf name (lines.map (['d', 'a', 't', 'a', ':', ' '] ++ ·)) = [] := by
  constructor
  · simp only [valuesOf, List.filterMap_map, Function.comp_def, fieldOf_data]
    simp
  · intro name other
    simp only [valuesOf, List.filterMap_map, Function.comp_def, fieldOf_data]
    simp [Ne.symm other]

theorem valuesOf_comment (name : List Char) (lines : List (List Char)) :
    valuesOf name (lines.map ([':', ' '] ++ ·)) = [] := by
  simp only [valuesOf, List.filterMap_map, Function.comp_def, fieldOf_comment]
  simp

/-! ### Items -/

/-- What the gateway writes into a stream. -/
inductive Item where
  | data (payload : List Char)
  | comment (text : List Char)
deriving DecidableEq, Repr

def Item.text : Item → List Char
  | .data payload => payload
  | .comment text => text

def Item.encoded : Item → List Char
  | .data payload => encodeData payload
  | .comment text => encodeComment text

def Item.event : Item → Option SseEvent
  | .data payload => some (SseEvent.ofData payload)
  | .comment _ => none

def Item.before : Item → List Char
  | .data _ => ['d', 'a', 't', 'a', ':', ' ']
  | .comment _ => [':', ' ']

def Item.lines (item : Item) : List (List Char) :=
  (item.text.splitOn '\n').map (item.before ++ ·)

theorem Item.lines_ne_nil (item : Item) : item.lines ≠ [] := by
  simp [Item.lines]

theorem Item.lines_fit {item : Item} (absent : '\r' ∉ item.text) : ∀ line ∈ item.lines, Line line := by
  intro line listed
  obtain ⟨rest, member, rfl⟩ := List.mem_map.mp listed
  constructor
  · cases item <;> simp [Item.before]
  · intro c inside
    rcases List.mem_append.mp inside with here | later
    · cases item with
      | data payload => exact (by simp [isBreak] : ∀ c ∈ ['d', 'a', 't', 'a', ':', ' '], isBreak c = false) c here
      | comment text => exact (by simp [isBreak] : ∀ c ∈ [':', ' '], isBreak c = false) c here
    · exact splitOn_return absent member c later

theorem Item.encoded_eq_framed {item : Item} (absent : '\r' ∉ item.text) :
    item.encoded = framed item.lines := by
  cases item with
  | data payload => exact encodeLines_eq_framed _ absent
  | comment text => exact encodeLines_eq_framed _ absent

theorem Item.parseFrame_lines {item : Item} (absent : '\r' ∉ item.text) :
    parseFrame (['\n'].intercalate item.lines) = item.event := by
  rw [parseFrame_eq, linesOf_intercalate (Item.lines_fit absent)]
  cases item with
  | data payload =>
      obtain ⟨values, others⟩ := valuesOf_data (payload.splitOn '\n')
      simp only [Item.lines, Item.text, Item.before, values, others eventField (by decide),
        others idField (by decide)]
      simp [Item.event, SseEvent.ofData]
  | comment text =>
      simp only [Item.lines, Item.text, Item.before, valuesOf_comment]
      rfl

/-- The frames of written items are the items, one frame each. -/
theorem frames_encoded {items : List Item} (plain : ∀ item ∈ items, '\r' ∉ item.text) :
    frames terminators (items.flatMap Item.encoded) =
      (items.map fun item => (['\n'].intercalate item.lines, item.encoded), []) := by
  induction items with
  | nil => rfl
  | cons item items ih =>
      have here := plain item List.mem_cons_self
      have rest := ih fun other member => plain other (List.mem_cons_of_mem item member)
      rw [List.flatMap_cons, Item.encoded_eq_framed here,
        frames_framed item.lines_ne_nil (Item.lines_fit here), rest, List.map_cons,
        Item.encoded_eq_framed here]

/-- Items written one after the other, and cut into chunks between characters in any way, are read
back: the payloads as they were, and nothing for a comment. -/
theorem encoded_items_decoded (limit : Nat) (items : List Item) (parts : List (List Char))
    (plain : ∀ item ∈ items, '\r' ∉ item.text)
    (within : ∀ item ∈ items, byteLen item.encoded ≤ limit)
    (cut : parts.flatten = items.flatMap Item.encoded) :
    (SseDecoder.withLimit limit).yielded (parts.map encode) = items.filterMap Item.event := by
  have text : (parts.map encode).flatMap fromUtf8Lossy = items.flatMap Item.encoded := by
    rw [List.flatMap_map, ← cut]
    simp [fromUtf8Lossy_encode, List.flatMap_id']
  have found := frames_encoded plain
  have fits : FramesWithin limit (items.flatMap Item.encoded) := by
    rw [FramesWithin, found]
    refine ⟨?_, Nat.zero_le _⟩
    intro frame listed
    obtain ⟨item, member, rfl⟩ := List.mem_map.mp listed
    exact within item member
  rw [yielded_withLimit (by rw [text]; exact fits), text, eventsOf, found, List.filterMap_map]
  apply List.filterMap_congr
  intro item member
  exact Item.parseFrame_lines (plain item member)

/-- A payload of a blank line, a line that looks like a comment and a line that looks like a field,
a keep-alive, and an empty payload. -/
def mixedItems : List Item :=
  [.data ['\n', ':', ' ', 'x', '\n', 'i', 'd', ':', '€'], .comment ['p', 'i', 'n', 'g'], .data []]

theorem encoded_items_decoded_mixed :
    (∀ item ∈ mixedItems, '\r' ∉ item.text) ∧
      (∀ item ∈ mixedItems, byteLen item.encoded ≤ 64) ∧
      (SseDecoder.withLimit 64).yielded
          (((mixedItems.flatMap Item.encoded).map ([·])).map encode) =
        mixedItems.filterMap Item.event :=
  ⟨by decide +kernel, by decide +kernel,
    encoded_items_decoded 64 mixedItems ((mixedItems.flatMap Item.encoded).map ([·]))
      (by decide +kernel) (by decide +kernel) (by decide +kernel)⟩

end Lightweight.Core
