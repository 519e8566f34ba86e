import Lightweight.Core.Sse
import Lightweight.Spelling

/-! Where the cuts between chunks show in the events. `feed` decodes each chunk on its own, so that a
character cut by the end of a chunk arrives as replacement characters; the spans of a stream say of
every character whether that happens to it. -/

namespace Lightweight.Core

open Framing Utf8

/-- A character of the stream, and how many of its bytes come behind the first cut inside it. -/
abbrev Span := Char × Nat

def spanTerminators : List (List Span) :=
  terminators.map fun terminator => terminator.map (·, 0)

def spanLines (frame : List Span) : List (List Span) :=
  (frame.splitOnP fun span => isBreak span.1).filter fun line => !line.isEmpty

def spanSplit : List Span → Option (List Span × List Span)
  | [] => none
  | span :: rest =>
      if span.1 = ':' then some ([], rest)
      else (spanSplit rest).map fun parts => (span :: parts.1, parts.2)

def spanStrip : List Span → List Span
  | [] => []
  | span :: rest => if span.1 = ' ' then rest else span :: rest

def spanField (line : List Span) : Option (List Span × List Span) :=
  if line.head?.map Prod.fst = some ':' then none
  else
    match spanSplit line with
    | some (field, value) => some (field, spanStrip value)
    | none => some (line, [])

/-- The values the lines give a field. -/
def spanValues (name : List Char) (lines : List (List Span)) : List (List Span) :=
  (lines.filterMap spanField).filterMap fun entry =>
    if entry.1.map Prod.fst = name then some entry.2 else none

/-- The values that make up the event of a frame: all its data, and of the other fields the last
value each. Without data there is no event. -/
def keptValues (frame : List Span) : List (List Span) :=
  let lines := spanLines frame
  if (spanValues dataField lines).isEmpty then []
  else spanValues dataField lines ++ (spanValues eventField lines).getLast?.toList ++
    (spanValues idField lines).getLast?.toList

/-- No chunk ends inside a character of a value that is kept. -/
def KeptWhole (chunks : List (List UInt8)) : Prop :=
  ∀ frame ∈ (frames spanTerminators (spans chunks)).1, ∀ value ∈ keptValues frame.1,
    ∀ span ∈ value, span.2 = 0

instance (chunks : List (List UInt8)) : Decidable (KeptWhole chunks) :=
  inferInstanceAs (Decidable (∀ frame ∈ (frames spanTerminators (spans chunks)).1,
    ∀ value ∈ keptValues frame.1, ∀ span ∈ value, span.2 = 0))

/-- An ASCII character is shown as it is, and no other character as ASCII. -/
structure Shows (shown : Span → List Char) (span : Span) : Prop where
  ascii : span.1.toNat < 0x80 → shown span = [span.1]
  beyond : 0x80 ≤ span.1.toNat → shown span ≠ [] ∧ ∀ c ∈ shown span, 0x80 ≤ c.toNat

/-- How the whole stream shows its characters. -/
def showWhole (span : Span) : List Char := [span.1]

theorem shows_showWhole (span : Span) : Shows showWhole span :=
  ⟨fun _ => rfl, fun high => ⟨by simp [showWhole], by simpa [showWhole] using high⟩⟩

theorem shows_showCut {span : Span} (valid : span.2 ≠ 0 → 0x80 ≤ span.1.toNat) :
    Shows showCut span := by
  obtain ⟨c, behind⟩ := span
  cases behind with
  | zero => exact ⟨fun _ => rfl, fun high => ⟨by simp [showCut], by simpa [showCut] using high⟩⟩
  | succ behind =>
      have high : 0x80 ≤ c.toNat := valid (Nat.succ_ne_zero behind)
      refine ⟨fun low => absurd high (Nat.not_le.mpr low), fun _ => ⟨by simp [showCut], ?_⟩⟩
      intro shown member
      rw [showCut, List.mem_replicate] at member
      rw [member.2]
      decide

variable {shown : Span → List Char}

theorem Shows.ne_nil {span : Span} (faithful : Shows shown span) : shown span ≠ [] := by
  by_cases low : span.1.toNat < 0x80
  · rw [faithful.ascii low]
    exact List.cons_ne_nil _ _
  · exact (faithful.beyond (Nat.not_lt.mp low)).1

/-- An ASCII character is shown by its own span only. -/
theorem Shows.not_mem {span : Span} (faithful : Shows shown span) {c : Char} (low : c.toNat < 0x80)
    (other : span.1 ≠ c) : c ∉ shown span := by
  intro member
  by_cases ascii : span.1.toNat < 0x80
  · rw [faithful.ascii ascii, List.mem_singleton] at member
    exact other member.symm
  · exact absurd ((faithful.beyond (Nat.not_lt.mp ascii)).2 c member) (Nat.not_le.mpr low)

theorem Shows.self {span : Span} (faithful : Shows shown span) {c : Char} (low : c.toNat < 0x80)
    (same : span.1 = c) : shown span = [c] := by
  rw [faithful.ascii (by rw [same]; exact low), same]

theorem linesOf_flatMap {frame : List Span} (faithful : ∀ span ∈ frame, Shows shown span) :
    linesOf (frame.flatMap shown) = (spanLines frame).map (List.flatMap shown) := by
  have split : (frame.flatMap shown).splitOnP isBreak =
      (frame.splitOnP fun span => isBreak span.1).map (List.flatMap shown) := by
    apply splitOnP_flatMap
    · intro span member line
      refine ⟨span.1, (faithful span member).ascii ?_, line⟩
      simp only [isBreak, Bool.or_eq_true, beq_iff_eq] at line
      rcases line with same | same <;> simp [same]
    · intro span member line c within
      simp only [isBreak, Bool.or_eq_false_iff, beq_eq_false_iff_ne] at line ⊢
      constructor
      · rintro rfl
        exact (faithful span member).not_mem (by decide) line.1 within
      · rintro rfl
        exact (faithful span member).not_mem (by decide) line.2 within
  rw [linesOf, split, spanLines, List.filter_map]
  congr 1
  apply List.filter_congr
  intro line member
  have part : ∀ span ∈ line, span ∈ frame := fun span within => (mem_splitOnP member span within).1
  cases line with
  | nil => rfl
  | cons span line =>
      have some := (faithful span (part span List.mem_cons_self)).ne_nil
      simp [some]

theorem splitOnce_append {separator : Char} {xs : List Char} (absent : separator ∉ xs)
    (ys : List Char) :
    splitOnce separator (xs ++ ys) =
      (splitOnce separator ys).map fun parts => (xs ++ parts.1, parts.2) := by
  induction xs with
  | nil => simp
  | cons x xs ih =>
      simp only [List.mem_cons, not_or] at absent
      simp [splitOnce, Ne.symm absent.1, ih absent.2, Function.comp_def]

theorem splitOnce_flatMap {line : List Span} (faithful : ∀ span ∈ line, Shows shown span) :
    splitOnce ':' (line.flatMap shown) =
      (spanSplit line).map fun parts => (parts.1.flatMap shown, parts.2.flatMap shown) := by
  induction line with
  | nil => rfl
  | cons span line ih =>
      have here := faithful span List.mem_cons_self
      have rest := ih fun other member => faithful other (List.mem_cons_of_mem span member)
      rw [List.flatMap_cons, spanSplit]
      by_cases colon : span.1 = ':'
      · simp [here.self (by decide) colon, colon, splitOnce]
      · rw [splitOnce_append (here.not_mem (by decide) colon), rest, if_neg colon]
        simp [Function.comp_def]

theorem stripSpace_flatMap {value : List Span} (faithful : ∀ span ∈ value, Shows shown span) :
    stripSpace (value.flatMap shown) = (spanStrip value).flatMap shown := by
  cases value with
  | nil => rfl
  | cons span value =>
      have here := faithful span List.mem_cons_self
      rw [List.flatMap_cons, spanStrip]
      by_cases space : span.1 = ' '
      · simp [here.self (by decide) space, space, stripSpace]
      · rw [if_neg space, List.flatMap_cons]
        have absent : ' ' ∉ shown span := here.not_mem (by decide) space
        have some := here.ne_nil
        cases spelled : shown span with
        | nil => exact absurd spelled some
        | cons c later =>
            have first : c ≠ ' ' := by
              rintro rfl
              simp [spelled] at absent
            simp [stripSpace, first]

theorem spanSplit_mem {line : List Span} {parts : List Span × List Span}
    (found : spanSplit line = some parts) : parts.1 ⊆ line ∧ parts.2 ⊆ line := by
  induction line generalizing parts with
  | nil => simp [spanSplit] at found
  | cons span line ih =>
      rw [spanSplit] at found
      split at found
      · cases found
        simp
      · obtain ⟨inner, deeper, rfl⟩ := Option.map_eq_some_iff.mp found
        obtain ⟨left, right⟩ := ih deeper
        exact ⟨List.cons_subset_cons span left, List.subset_cons_of_subset span right⟩

theorem spanStrip_subset (value : List Span) : spanStrip value ⊆ value := by
  cases value with
  | nil => exact List.Subset.refl _
  | cons span value =>
      rw [spanStrip]
      split
      · exact List.subset_cons_self span value
      · exact List.Subset.refl _

theorem spanField_subset {line : List Span} {entry : List Span × List Span}
    (found : spanField line = some entry) : entry.1 ⊆ line ∧ entry.2 ⊆ line := by
  rw [spanField] at found
  split at found
  · cases found
  · cases parts : spanSplit line with
    | none =>
        rw [parts] at found
        cases found
        simp
    | some halves =>
        rw [parts] at found
        cases found
        obtain ⟨left, right⟩ := spanSplit_mem parts
        exact ⟨left, List.Subset.trans (spanStrip_subset _) right⟩

theorem fieldOf_flatMap {line : List Span} (faithful : ∀ span ∈ line, Shows shown span) :
    fieldOf (line.flatMap shown) =
      (spanField line).map fun entry => (entry.1.flatMap shown, entry.2.flatMap shown) := by
  have comment : (line.flatMap shown).head? = some ':' ↔ line.head?.map Prod.fst = some ':' := by
    cases line with
    | nil => simp
    | cons span line =>
        have here := faithful span List.mem_cons_self
        by_cases colon : span.1 = ':'
        · simp [here.self (by decide) colon, colon]
        · have absent : ':' ∉ shown span := here.not_mem (by decide) colon
          cases spelled : shown span with
          | nil => exact absurd spelled here.ne_nil
          | cons c later =>
              have first : c ≠ ':' := by
                rintro rfl
                simp [spelled] at absent
              simp [spelled, first, colon]
  rw [fieldOf, spanField]
  by_cases start : line.head?.map Prod.fst = some ':'
  · rw [if_pos (comment.mpr start), if_pos start, Option.map_none]
  · rw [if_neg (fun shownStart => start (comment.mp shownStart)), if_neg start,
      splitOnce_flatMap faithful]
    cases parts : spanSplit line with
    | none => simp
    | some halves =>
        have inside := (spanSplit_mem parts).2
        simp [stripSpace_flatMap fun span member => faithful span (inside member)]

/-- A field name of ASCII characters is shown only by these. -/
theorem flatMap_eq_name {name : List Char} (ascii : ∀ c ∈ name, c.toNat < 0x80) {field : List Span}
    (faithful : ∀ span ∈ field, Shows shown span) :
    field.flatMap shown = name ↔ field.map Prod.fst = name := by
  induction field generalizing name with
  | nil => simp
  | cons span field ih =>
      have here := faithful span List.mem_cons_self
      have rest (name : List Char) (low : ∀ c ∈ name, c.toNat < 0x80) := ih low fun other member =>
        faithful other (List.mem_cons_of_mem span member)
      by_cases low : span.1.toNat < 0x80
      · rw [List.flatMap_cons, here.ascii low, List.map_cons]
        cases name with
        | nil => simp
        | cons c name =>
            simp only [List.singleton_append, List.cons.injEq]
            rw [rest name fun d member => ascii d (List.mem_cons_of_mem c member)]
      · obtain ⟨some, high⟩ := here.beyond (Nat.not_lt.mp low)
        constructor
        · rintro rfl
          obtain ⟨c, member⟩ := List.exists_mem_of_ne_nil _ some
          have listed : c ∈ (span :: field).flatMap shown := by
            rw [List.flatMap_cons]
            exact List.mem_append_left _ member
          exact absurd (ascii c listed) (Nat.not_lt.mpr (high c member))
        · rintro rfl
          exact absurd (ascii span.1 (by simp)) low

theorem valuesOf_flatMap {name : List Char} (ascii : ∀ c ∈ name, c.toNat < 0x80)
    {lines : List (List Span)} (faithful : ∀ line ∈ lines, ∀ span ∈ line, Shows shown span) :
    valuesOf name (lines.map (List.flatMap shown)) =
      (spanValues name lines).map (List.flatMap shown) := by
  induction lines with
  | nil => rfl
  | cons line lines ih =>
      have here := faithful line List.mem_cons_self
      have rest := ih fun other member => faithful other (List.mem_cons_of_mem line member)
      unfold valuesOf spanValues at rest ⊢
      rw [List.map_cons, List.filterMap_cons, List.filterMap_cons, fieldOf_flatMap here]
      cases found : spanField line with
      | none => simpa using rest
      | some entry =>
          have inside := (spanField_subset found).1
          have named := flatMap_eq_name ascii fun span member => here span (inside member)
          by_cases same : entry.1.map Prod.fst = name
          · simpa [same, named.mpr same] using rest
          · have other : ¬entry.1.flatMap shown = name := fun equal => same (named.mp equal)
            simpa [same, other] using rest

theorem spanLines_subset {frame line : List Span} (listed : line ∈ spanLines frame) :
    line ⊆ frame := fun span member =>
  (mem_splitOnP (List.mem_filter.mp listed).1 span member).1

theorem intercalate_flatMap (newline : shown ('\n', 0) = ['\n']) (values : List (List Span)) :
    ['\n'].intercalate (values.map (List.flatMap shown)) =
      ([('\n', 0)].intercalate values).flatMap shown := by
  induction values with
  | nil => rfl
  | cons value values ih =>
      cases values with
      | nil => simp
      | cons next values =>
          rw [List.map_cons, List.map_cons, List.intercalate_cons_cons, List.intercalate_cons_cons,
            ← List.map_cons, ih]
          simp [newline]

/-- The event of a frame as it is shown. -/
theorem parseFrame_flatMap {frame : List Span} (faithful : ∀ span ∈ frame, Shows shown span) :
    parseFrame (frame.flatMap shown) =
      if (spanValues dataField (spanLines frame)).isEmpty then none
      else some
        { event := (spanValues eventField (spanLines frame)).getLast?.map (List.flatMap shown)
          data := ['\n'].intercalate
            ((spanValues dataField (spanLines frame)).map (List.flatMap shown))
          id := (spanValues idField (spanLines frame)).getLast?.map (List.flatMap shown) } := by
  have inner : ∀ line ∈ spanLines frame, ∀ span ∈ line, Shows shown span := fun line listed span member =>
    faithful span (spanLines_subset listed member)
  rw [parseFrame_eq, linesOf_flatMap faithful, valuesOf_flatMap (by simp [dataField]) inner,
    valuesOf_flatMap (by simp [eventField]) inner, valuesOf_flatMap (by simp [idField]) inner]
  simp

/-- A cut character is shown as several, so that a text with one is shown longer than it is. -/
theorem flatMap_showCut_length (text : List Span) :
    text.length ≤ (text.flatMap showCut).length ∧
      ((text.flatMap showCut).length = text.length → ∀ span ∈ text, span.2 = 0) := by
  induction text with
  | nil => simp
  | cons span text ih =>
      obtain ⟨c, behind⟩ := span
      cases behind with
      | zero =>
          simp only [List.flatMap_cons, showCut, List.length_append, List.length_cons,
            List.length_nil, List.mem_cons, forall_eq_or_imp, true_and]
          exact ⟨by omega, fun same => ih.2 (by omega)⟩
      | succ behind =>
          simp only [List.flatMap_cons, showCut, List.length_append, List.length_replicate,
            List.length_cons]
          exact ⟨by omega, fun same => by omega⟩

theorem showCut_eq_iff (text : List Span) :
    text.flatMap showCut = text.flatMap showWhole ↔ ∀ span ∈ text, span.2 = 0 := by
  constructor
  · intro same
    apply (flatMap_showCut_length text).2
    rw [same]
    simp [showWhole]
  · intro whole
    apply List.flatMap_congr
    intro span member
    obtain ⟨c, behind⟩ := span
    have uncut : behind = 0 := whole (c, behind) member
    subst uncut
    rfl

theorem mem_intercalate {separator span : Span} {values : List (List Span)} :
    span ∈ [separator].intercalate values →
      span = separator ∨ ∃ value ∈ values, span ∈ value := by
  induction values with
  | nil => simp
  | cons value values ih =>
      intro member
      cases values with
      | nil => exact Or.inr ⟨value, List.mem_cons_self, by simpa using member⟩
      | cons next values =>
          rw [List.intercalate_cons_cons, List.mem_append, List.mem_append,
            List.mem_singleton] at member
          rcases member with (here | same) | later
          · exact Or.inr ⟨value, List.mem_cons_self, here⟩
          · exact Or.inl same
          · rcases ih later with same | ⟨other, listed, inside⟩
            · exact Or.inl same
            · exact Or.inr ⟨other, List.mem_cons_of_mem value listed, inside⟩

theorem subset_intercalate {separator : Span} {values : List (List Span)} {value : List Span}
    (listed : value ∈ values) : value ⊆ [separator].intercalate values := by
  induction values with
  | nil => exact absurd listed List.not_mem_nil
  | cons first values ih =>
      cases values with
      | nil =>
          rw [List.mem_singleton] at listed
          simp [listed]
      | cons next values =>
          rw [List.intercalate_cons_cons]
          rcases List.mem_cons.mp listed with rfl | later
          · simp
          · exact List.subset_append_of_subset_right _ (ih later)

/-- Joined data is shown whole exactly where every value of it is. -/
theorem joined_showCut_iff (values : List (List Span)) :
    ['\n'].intercalate (values.map (List.flatMap showCut)) =
        ['\n'].intercalate (values.map (List.flatMap showWhole)) ↔
      ∀ value ∈ values, ∀ span ∈ value, span.2 = 0 := by
  rw [intercalate_flatMap rfl, intercalate_flatMap rfl, showCut_eq_iff]
  constructor
  · exact fun whole value listed span member => whole span (subset_intercalate listed member)
  · intro whole span member
    rcases mem_intercalate member with rfl | ⟨value, listed, inside⟩
    · rfl
    · exact whole value listed span inside

theorem last_showCut_iff (value : Option (List Span)) :
    value.map (List.flatMap showCut) = value.map (List.flatMap showWhole) ↔
      ∀ kept ∈ value.toList, ∀ span ∈ kept, span.2 = 0 := by
  cases value with
  | none => simp
  | some value => simp [showCut_eq_iff]

/-- A frame gives the same event cut and whole exactly if no cut falls into a value it keeps. -/
theorem parseFrame_showCut_iff {frame : List Span}
    (valid : ∀ span ∈ frame, span.2 ≠ 0 → 0x80 ≤ span.1.toNat) :
    parseFrame (frame.flatMap showCut) = parseFrame (frame.flatMap showWhole) ↔
      ∀ value ∈ keptValues frame, ∀ span ∈ value, span.2 = 0 := by
  rw [parseFrame_flatMap fun span member => shows_showCut (valid span member),
    parseFrame_flatMap fun span _ => shows_showWhole span, keptValues]
  cases empty : (spanValues dataField (spanLines frame)).isEmpty with
  | true => simp
  | false =>
      simp only [if_neg Bool.false_ne_true, Option.some.injEq, SseEvent.mk.injEq,
        last_showCut_iff, joined_showCut_iff, List.mem_append, or_imp, forall_and]
      tauto

theorem parseFrame_isSome {frame : List Span}
    (valid : ∀ span ∈ frame, span.2 ≠ 0 → 0x80 ≤ span.1.toNat) :
    (parseFrame (frame.flatMap showCut)).isSome = (parseFrame (frame.flatMap showWhole)).isSome := by
  rw [parseFrame_flatMap fun span member => shows_showCut (valid span member),
    parseFrame_flatMap fun span _ => shows_showWhole span]
  cases (spanValues dataField (spanLines frame)).isEmpty <;> rfl

theorem filterMap_eq_iff {α β : Type} {f g : α → Option β} {xs : List α}
    (both : ∀ x ∈ xs, (f x).isSome = (g x).isSome) :
    xs.filterMap f = xs.filterMap g ↔ ∀ x ∈ xs, f x = g x := by
  induction xs with
  | nil => simp
  | cons x xs ih =>
      have here := both x List.mem_cons_self
      have rest := ih fun y member => both y (List.mem_cons_of_mem x member)
      rw [List.filterMap_cons, List.filterMap_cons, List.forall_mem_cons]
      cases left : f x with
      | none =>
          cases right : g x with
          | none => simpa using rest
          | some value => simp [left, right] at here
      | some value =>
          cases right : g x with
          | none => simp [left, right] at here
          | some other => simp [rest]

def breakMarks : List Span := [('\n', 0), ('\r', 0)]

theorem spells_shown {text : List Span} (faithful : ∀ span ∈ text, Shows shown span)
    (valid : ∀ span ∈ text, span.2 ≠ 0 → 0x80 ≤ span.1.toNat) :
    Spells breakMarks Prod.fst shown text := by
  have low : ∀ m ∈ breakMarks, m.1.toNat < 0x80 ∧ m.2 = 0 := by decide
  constructor
  · exact fun span member marked => (faithful span member).ascii (low span marked).1
  · intro span member other
    refine ⟨(faithful span member).ne_nil, fun m marked => ?_⟩
    apply (faithful span member).not_mem (low m marked).1
    intro same
    -- the same character without a cut would be the mark itself
    have uncut : span.2 = 0 := by
      by_contra cut
      have high := valid span member cut
      rw [same] at high
      exact absurd (low m marked).1 (Nat.not_lt.mpr high)
    have equal : span = m := Prod.ext same (uncut.trans (low m marked).2.symm)
    exact other (equal ▸ marked)
  · decide

theorem spanTerminators_settled : Settled spanTerminators :=
  Settled.of_offsets (by decide) (by decide)

theorem spanTerminators_marked :
    ∀ terminator ∈ spanTerminators, ∀ m ∈ terminator, m ∈ breakMarks := by
  decide

/-- The frames of a text are those of its spans, shown. -/
theorem frames_shown {text : List Span} (faithful : ∀ span ∈ text, Shows shown span)
    (valid : ∀ span ∈ text, span.2 ≠ 0 → 0x80 ≤ span.1.toNat) :
    frames terminators (text.flatMap shown) =
      ((frames spanTerminators text).1.map fun frame =>
        (frame.1.flatMap shown, frame.2.flatMap shown),
        (frames spanTerminators text).2.flatMap shown) := by
  have same : written Prod.fst spanTerminators = terminators := by decide
  rw [← same]
  exact (spells_shown faithful valid).frames spanTerminators_marked spanTerminators_settled

theorem eventsOf_flatMap {text : List Span} (faithful : ∀ span ∈ text, Shows shown span)
    (valid : ∀ span ∈ text, span.2 ≠ 0 → 0x80 ≤ span.1.toNat) :
    eventsOf (text.flatMap shown) =
      (frames spanTerminators text).1.filterMap fun frame => parseFrame (frame.1.flatMap shown) := by
  rw [eventsOf, frames_shown faithful valid, List.filterMap_map]
  rfl

theorem spans_showWhole (chunks : List (List UInt8)) :
    (spans chunks).flatMap showWhole = fromUtf8Lossy chunks.flatten := by
  rw [← spans_whole]
  exact List.flatMap_pure_eq_map _ _

/-- The chunks, decoded one by one, spell the events of the whole stream exactly if no chunk ends
inside a character of a value that an event keeps. -/
theorem eventsOf_chunks_iff (chunks : List (List UInt8)) :
    eventsOf (chunks.flatMap fromUtf8Lossy) = eventsOf (fromUtf8Lossy chunks.flatten) ↔
      KeptWhole chunks := by
  have valid : ∀ span ∈ spans chunks, span.2 ≠ 0 → 0x80 ≤ span.1.toNat := fun span member =>
    spans_cut member
  rw [← spans_showWhole, ← spans_chunks,
    eventsOf_flatMap (fun span member => shows_showCut (valid span member)) valid,
    eventsOf_flatMap (fun span _ => shows_showWhole span) valid, filterMap_eq_iff]
  · apply forall₂_congr
    intro frame listed
    exact parseFrame_showCut_iff fun span member =>
      valid span (spanTerminators_settled.frame_subset listed member)
  · intro frame listed
    exact parseFrame_isSome fun span member =>
      valid span (spanTerminators_settled.frame_subset listed member)

theorem byteLen_showWhole_le (text : List Span) :
    byteLen (text.flatMap showWhole) ≤ byteLen (text.flatMap showCut) := by
  induction text with
  | nil => exact Nat.le_refl _
  | cons span text ih =>
      rw [List.flatMap_cons, List.flatMap_cons, byteLen_append, byteLen_append]
      apply Nat.add_le_add _ ih
      obtain ⟨c, behind⟩ := span
      cases behind with
      | zero => exact Nat.le_refl _
      | succ behind =>
          -- a replacement has three bytes, and there are at least two of them
          have most : c.utf8Size ≤ 4 := c.utf8Size_le_four
          have three : replacement.utf8Size = 3 := by decide
          simp only [showWhole, showCut, List.replicate_succ, byteLen, three]
          omega

/-- What the whole stream leaves unfinished is no longer than what the chunks spell of it. -/
theorem rest_whole_le (chunks : List (List UInt8)) :
    byteLen (frames terminators (fromUtf8Lossy chunks.flatten)).2 ≤
      byteLen (frames terminators (chunks.flatMap fromUtf8Lossy)).2 := by
  have valid : ∀ span ∈ spans chunks, span.2 ≠ 0 → 0x80 ≤ span.1.toNat := fun span member =>
    spans_cut member
  rw [← spans_showWhole, ← spans_chunks,
    frames_shown (fun span member => shows_showCut (valid span member)) valid,
    frames_shown (fun span _ => shows_showWhole span) valid]
  exact byteLen_showWhole_le _

/-- Within the limit, as the decoder measures the text it holds, the events taken over the chunks are
those of the stream in one chunk exactly if no chunk ends inside a character of a value that an event
keeps. -/
theorem yielded_chunks_iff (limit : Nat) (chunks : List (List UInt8))
    (within : FramesWithin limit (chunks.flatMap fromUtf8Lossy)) :
    (SseDecoder.withLimit limit).yielded chunks =
        (SseDecoder.withLimit limit).yielded [chunks.flatten] ↔
      KeptWhole chunks := by
  rw [yielded_withLimit within, yielded_single]
  exact eventsOf_chunks_iff chunks

/-- `data: €` in two chunks, the first of which ends inside the euro sign. -/
def cutEuro : List (List UInt8) :=
  [[0x64, 0x61, 0x74, 0x61, 0x3A, 0x20, 0xE2], [0x82, 0xAC, 0x0A, 0x0A]]

theorem cut_character_replaced :
    FramesWithin defaultFrameLimit (fromUtf8Lossy cutEuro.flatten) ∧
      FramesWithin defaultFrameLimit (cutEuro.flatMap fromUtf8Lossy) ∧
      SseDecoder.new.yielded cutEuro ≠ SseDecoder.new.yielded [cutEuro.flatten] := by
  decide

/-- The same frame with cuts before the euro sign, inside a line break and inside the blank line. -/
def cutAround : List (List UInt8) :=
  [[0x64, 0x61, 0x74, 0x61, 0x3A, 0x20], [0xE2, 0x82, 0xAC, 0x0D], [0x0A, 0x0D], [0x0A]]

theorem yielded_chunks_around :
    FramesWithin defaultFrameLimit (cutAround.flatMap fromUtf8Lossy) ∧ KeptWhole cutAround ∧
      SseDecoder.new.yielded cutAround = SseDecoder.new.yielded [cutAround.flatten] :=
  ⟨by decide, by decide,
    (yielded_chunks_iff defaultFrameLimit cutAround (by decide)).mpr (by decide)⟩

end Lightweight.Core
