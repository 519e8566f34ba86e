import Lightweight.Gather
import Lightweight.Histogram
import Lightweight.TextFormat
import Mathlib.Data.List.DropRight
import Mathlib.Data.List.Lex
import Mathlib.Data.Char
import Mathlib.Order.Lex
import Mathlib.Data.Prod.Lex
import Mathlib.Algebra.Ring.Int.Defs

/-! The histogram families of the router's metrics: a series for each set of labels, and the text they
are exposed in. -/

namespace Lightweight.Router

open Histogram TextFormat

/-- The bounds in the unit that is observed, and how many of it make one of the exposed unit. -/
structure Ladder extends Histogram.Ladder Int where
  perUnit : Nat

def secondsLadder : Ladder where
  bounds := [5, 10, 25, 50, 100, 250, 500, 1000, 2500, 5000, 10000, 30000, 60000, 120000, 300000]
  sorted := by decide
  perUnit := 1000

def planningLadder : Ladder where
  bounds := [10, 25, 50, 100, 250, 500, 1000, 2500, 10000, 50000]
  sorted := by decide
  perUnit := 1000000

def ratioLadder : Ladder where
  bounds := [250, 500, 750, 1000, 1250, 1500, 2000, 2500, 3000, 4000, 5000, 6000, 8000, 10000, 16000,
    32000]
  sorted := by decide
  perUnit := 1000

def tokensLadder : Ladder where
  bounds := [-4096, -1024, -256, -64, -16, 0, 16, 64, 256, 1024, 4096, 16384, 65536]
  sorted := by decide
  perUnit := 1

structure Series where
  buckets : List Nat
  count : Nat
  sum : Int
deriving DecidableEq, Repr

def Series.new (ladder : Ladder) : Series := { buckets := ladder.empty, count := 0, sum := 0 }

def Series.observe (ladder : Ladder) (series : Series) (value : Int) : Series :=
  { buckets := Histogram.observe ladder.bounds series.buckets value
    count := series.count + 1
    sum := series.sum + value }

abbrev Labels := List (List Char ×ₗ List Char)

/-- The series are in the order of their labels. -/
structure Family where
  name : List Char
  help : List Char
  ladder : Ladder
  series : List (Labels × Series)

def Family.new (name help : List Char) (ladder : Ladder) : Family :=
  { name, help, ladder, series := [] }

def Family.observe (family : Family) (labels : Labels) (value : Int) : Family :=
  { family with
    series := Gather.modify (Series.new family.ladder) labels
      (fun series => series.observe family.ladder value) family.series }

/-- `str::replace` of one character. -/
def replaceChar (c : Char) (by_ text : List Char) : List Char :=
  text.flatMap fun d => if d = c then by_ else [d]

def escape (value : List Char) : List Char :=
  replaceChar '\n' ['\\', 'n'] (replaceChar '"' ['\\', '"'] (replaceChar '\\' ['\\', '\\'] value))

/-- The digits behind the point. -/
def sixDigits (millionths : Nat) : List Char :=
  let digits := Nat.toDigits 10 millionths
  List.replicate (6 - digits.length) '0' ++ digits

/-- A number of the observed unit in the exposed one, with six digits behind the point. -/
def unitText (perUnit : Nat) (value : Int) : List Char :=
  let millionths := value.natAbs * 1000000 / perUnit
  (if value < 0 then ['-'] else []) ++ Nat.toDigits 10 (millionths / 1000000) ++
    '.' :: sixDigits (millionths % 1000000)

def withoutZeros (text : List Char) : List Char :=
  (text.rdropWhile (· == '0')).rdropWhile (· == '.')

def formatUnit (perUnit : Nat) (value : Int) : List Char :=
  if withoutZeros (unitText perUnit value) = [] ∨ withoutZeros (unitText perUnit value) = ['-'] then
    ['0']
  else withoutZeros (unitText perUnit value)

/-- Each label with a comma behind it. -/
def baseOf (labels : Labels) : List Char :=
  labels.flatMap fun label => (ofLex label).1 ++ ['=', '"'] ++ escape (ofLex label).2 ++ ['"', ',']

def bucketSuffix : List Char := "_bucket".toList
def sumSuffix : List Char := "_sum".toList
def countSuffix : List Char := "_count".toList

def renderBucket (name base le : List Char) (running : Nat) : List Char :=
  name ++ bucketSuffix ++ ['{'] ++ base ++ "le=\"".toList ++ le ++ ['"', '}', ' '] ++
    Nat.toDigits 10 running ++ ['\n']

/-- What the buckets of a series end at. -/
def lesOf (ladder : Ladder) : List (List Char) :=
  ladder.bounds.map (formatUnit ladder.perUnit) ++ [['+', 'I', 'n', 'f']]

def renderSeries (name : List Char) (ladder : Ladder) (labels : Labels) (series : Series) :
    List Char :=
  let base := baseOf labels
  let trimmed := base.rdropWhile (· == ',')
  let braces := if trimmed.isEmpty then [] else '{' :: trimmed ++ ['}']
  (List.zipWith (renderBucket name base) (lesOf ladder) (cumulative 0 series.buckets)).flatten ++
    (name ++ sumSuffix ++ braces ++ ' ' :: formatUnit ladder.perUnit series.sum ++ ['\n']) ++
    (name ++ countSuffix ++ braces ++ ' ' :: Nat.toDigits 10 series.count ++ ['\n'])

def renderHeader (name help : List Char) : List Char :=
  '#' :: " HELP ".toList ++ name ++ ' ' :: help ++ ['\n'] ++
    ('#' :: " TYPE ".toList ++ name ++ " histogram".toList ++ ['\n'])

def Family.render (family : Family) : List Char :=
  renderHeader family.name family.help ++
    family.series.flatMap fun entry => renderSeries family.name family.ladder entry.1 entry.2

/-! ### What a family says -/

def plainLabels (labels : Labels) : List (List Char × List Char) :=
  labels.map fun label => ((ofLex label).1, (ofLex label).2)

def bucketSample (name : List Char) (labels : Labels) (le : List Char) (count : Nat) : Sample where
  name := name ++ bucketSuffix
  labels := plainLabels labels ++ [(['l', 'e'], le)]
  value := Nat.toDigits 10 count

def sumSample (name : List Char) (ladder : Ladder) (labels : Labels) (sum : Int) : Sample where
  name := name ++ sumSuffix
  labels := plainLabels labels
  value := formatUnit ladder.perUnit sum

def countSample (name : List Char) (labels : Labels) (count : Nat) : Sample where
  name := name ++ countSuffix
  labels := plainLabels labels
  value := Nat.toDigits 10 count

/-- The samples of a series that has seen some values: of each bound how many are at most it, their sum
and their number. -/
def samplesOf (name : List Char) (ladder : Ladder) (labels : Labels) (values : List Int) :
    List Sample :=
  List.zipWith (bucketSample name labels) (lesOf ladder) (levels ladder.bounds values) ++
    [sumSample name ladder labels values.sum, countSample name labels values.length]

/-! ### The texts of the values -/

theorem escape_eq (value : List Char) : escape value = escaped value := by
  induction value with
  | nil => rfl
  | cons c value ih =>
      have split : escape (c :: value) = escape [c] ++ escape value := by
        simp [escape, replaceChar]
      have one : escape [c] = escapedChar c := by
        rw [escapedChar]
        split
        · rename_i same
          rw [same]
          rfl
        · rename_i plain
          split
          · rename_i same
            rw [same]
            rfl
          · rename_i open_
            split
            · rename_i same
              rw [same]
              rfl
            · rename_i feed
              simp [escape, replaceChar, plain, open_, feed]
      rw [split, one, ih]
      rfl

/-- What a number is written in. -/
def inNumber (c : Char) : Bool := c.isDigit || c == '-' || c == '.'

theorem inNumber_toDigits (n : Nat) : ∀ c ∈ Nat.toDigits 10 n, inNumber c = true := by
  intro c member
  have digit := Nat.isDigit_of_mem_toDigits (by decide) (by decide) member
  simp [inNumber, digit]

theorem inNumber_sixDigits (n : Nat) : ∀ c ∈ sixDigits n, inNumber c = true := by
  intro c member
  rcases List.mem_append.mp member with zero | digit
  · rw [List.eq_of_mem_replicate zero]
    rfl
  · exact inNumber_toDigits n c digit

theorem inNumber_unitText (perUnit : Nat) (value : Int) :
    ∀ c ∈ unitText perUnit value, inNumber c = true := by
  intro c member
  rcases List.mem_append.mp member with before | behind
  · rcases List.mem_append.mp before with sign | digit
    · split at sign
      · rw [List.mem_singleton.mp sign]
        rfl
      · cases sign
    · exact inNumber_toDigits _ c digit
  · rcases List.mem_cons.mp behind with point | digit
    · rw [point]
      rfl
    · exact inNumber_sixDigits _ c digit

theorem inNumber_formatUnit (perUnit : Nat) (value : Int) :
    ∀ c ∈ formatUnit perUnit value, inNumber c = true := by
  intro c member
  rw [formatUnit] at member
  split at member
  · rw [List.mem_singleton.mp member]
    rfl
  · have zeros := (List.rdropWhile_prefix _ _).subset member
    exact inNumber_unitText perUnit value c ((List.rdropWhile_prefix _ _).subset zeros)

theorem escaped_number {text : List Char} (number : ∀ c ∈ text, inNumber c = true) :
    escaped text = text := by
  induction text with
  | nil => rfl
  | cons c text ih =>
      rw [List.forall_mem_cons] at number
      have special (d : Char) (other : inNumber d = false) : c ≠ d := by
        intro same
        rw [same, other] at number
        exact absurd number.1 Bool.false_ne_true
      have one : escapedChar c = [c] := by
        rw [escapedChar, if_neg (special _ (by decide)), if_neg (special _ (by decide)),
          if_neg (special _ (by decide))]
      have split : escaped (c :: text) = escapedChar c ++ escaped text := List.flatMap_cons
      rw [split, one, ih number.2]
      rfl

theorem newline_not_mem_number {text : List Char} (number : ∀ c ∈ text, inNumber c = true) :
    '\n' ∉ text :=
  fun member => absurd (number _ member) (by decide)

/-! ### The labels -/

theorem baseOf_eq (labels : Labels) :
    baseOf labels = (plainLabels labels).flatMap fun label => writeLabel label ++ [','] := by
  rw [baseOf, plainLabels, List.flatMap_map]
  apply List.flatMap_congr
  intro label _
  simp [writeLabel, escape_eq]

theorem writeLabels_concat (labels : List (List Char × List Char)) (last : List Char × List Char) :
    writeLabels (labels ++ [last]) =
      (labels.flatMap fun label => writeLabel label ++ [',']) ++ writeLabel last := by
  induction labels with
  | nil => simp [writeLabels]
  | cons label labels ih =>
      rw [List.cons_append, List.flatMap_cons, List.append_assoc, ← ih]
      cases labels with
      | nil => simp [writeLabels, List.intercalate_cons_cons]
      | cons next labels => simp [writeLabels, List.intercalate_cons_cons]

/-- The comma behind the last label is trimmed off. -/
theorem trimmed_base (labels : Labels) :
    (baseOf labels).rdropWhile (· == ',') = writeLabels (plainLabels labels) := by
  rw [baseOf_eq]
  rcases List.eq_nil_or_concat' (plainLabels labels) with none_ | ⟨front, last, split⟩
  · rw [none_]
    rfl
  · have quote : writeLabel last = (last.1 ++ ['=', '"'] ++ escaped last.2) ++ ['"'] := rfl
    rw [split, writeLabels_concat, List.flatMap_append, List.flatMap_singleton, ← List.append_assoc,
      List.rdropWhile_concat_pos _ _ _ (by decide), quote, ← List.append_assoc,
      List.rdropWhile_concat_neg _ _ _ (by decide)]

/-! ### The text -/

theorem zipWith_flatten (lines : List (List Char)) (counts : List Nat)
    (render : List Char → Nat → List Char) (sample : List Char → Nat → Sample)
    (same : ∀ le ∈ lines, ∀ count, render le count = (sample le count).line ++ ['\n']) :
    (List.zipWith render lines counts).flatten =
      writeText ((List.zipWith sample lines counts).map .sample) := by
  induction lines generalizing counts with
  | nil => rfl
  | cons le lines ih =>
      cases counts with
      | nil => rfl
      | cons count counts =>
          rw [List.forall_mem_cons] at same
          rw [List.zipWith_cons_cons, List.flatten_cons, same.1, ih counts same.2]
          rfl

theorem lesOf_escaped {ladder : Ladder} {le : List Char} (member : le ∈ lesOf ladder) :
    escaped le = le := by
  rcases List.mem_append.mp member with bound | last
  · obtain ⟨value, -, rfl⟩ := List.mem_map.mp bound
    exact escaped_number (inNumber_formatUnit ladder.perUnit value)
  · rw [List.mem_singleton.mp last]
    decide

theorem renderBucket_eq (name : List Char) {ladder : Ladder} (labels : Labels) {le : List Char}
    (member : le ∈ lesOf ladder) (count : Nat) :
    renderBucket name (baseOf labels) le count = (bucketSample name labels le count).line ++ ['\n'] := by
  have written : baseOf labels ++ "le=\"".toList ++ le ++ ['"'] =
      writeLabels (plainLabels labels ++ [(['l', 'e'], le)]) := by
    rw [writeLabels_concat, baseOf_eq, writeLabel, lesOf_escaped member]
    simp
  rw [renderBucket, bucketSample, Sample.line, ← written]
  simp

theorem renderSeries_eq (name : List Char) (ladder : Ladder) (labels : Labels) {series : Series}
    {values : List Int} (buckets : series.buckets = ladder.observed values)
    (count : series.count = values.length) (sum : series.sum = values.sum) :
    renderSeries name ladder labels series =
      writeText ((samplesOf name ladder labels values).map .sample) := by
  have bucketLines := zipWith_flatten (lesOf ladder) (levels ladder.bounds values)
    (renderBucket name (baseOf labels)) (bucketSample name labels)
    fun le member count => renderBucket_eq name labels member count
  have sumLine : name ++ sumSuffix ++ (if (writeLabels (plainLabels labels)).isEmpty then []
      else '{' :: writeLabels (plainLabels labels) ++ ['}']) ++
        ' ' :: formatUnit ladder.perUnit series.sum ++ ['\n'] =
      writeText [.sample (sumSample name ladder labels values.sum)] := by
    rw [isEmpty_writeLabels, sum]
    simp [writeText, Line.text, Sample.line, sumSample]
  have countLine : name ++ countSuffix ++ (if (writeLabels (plainLabels labels)).isEmpty then []
      else '{' :: writeLabels (plainLabels labels) ++ ['}']) ++
        ' ' :: Nat.toDigits 10 series.count ++ ['\n'] =
      writeText [.sample (countSample name labels values.length)] := by
    rw [isEmpty_writeLabels, count]
    simp [writeText, Line.text, Sample.line, countSample]
  rw [renderSeries, trimmed_base, buckets, ladder.cumulative_observed, bucketLines, sumLine, countLine,
    ← writeText_append, ← writeText_append, samplesOf, List.map_append, List.append_assoc]
  rfl

theorem foldl_observe (ladder : Ladder) (values : List Int) :
    values.foldl (Series.observe ladder) (Series.new ladder) =
      { buckets := ladder.observed values, count := values.length, sum := values.sum } := by
  induction values using List.reverseRecOn with
  | nil => rfl
  | append_singleton values value ih =>
      rw [List.foldl_append, ih]
      simp [Series.observe, Histogram.Ladder.observed]

/-- The family after some observations. -/
def Family.run (family : Family) (observations : List (Labels × Int)) : Family :=
  observations.foldl (fun family observation => family.observe observation.1 observation.2) family

theorem run_eq (family : Family) (observations : List (Labels × Int)) :
    family.run observations =
      { family with
        series := observations.foldl (fun series observation =>
          Gather.modify (Series.new family.ladder) observation.1
            (fun one => one.observe family.ladder observation.2) series) family.series } := by
  induction observations generalizing family with
  | nil => rfl
  | cons observation observations ih => exact ih (family.observe observation.1 observation.2)

/-- The series of a family are those of the labels that have been observed, in their order, each of what
was observed under its labels alone. -/
theorem series_run (name help : List Char) (ladder : Ladder) (observations : List (Labels × Int)) :
    ((Family.new name help ladder).run observations).series =
      (Gather.keysOf observations).map fun labels =>
        (labels, (Gather.updatesAt labels observations).foldl (Series.observe ladder)
          (Series.new ladder)) := by
  rw [run_eq]
  exact Gather.gather_eq (Series.new ladder) (Series.observe ladder) observations

/-- The lines of a family. -/
def linesOfFamily (name help : List Char) (ladder : Ladder) (observations : List (Labels × Int)) :
    List Line :=
  .comment (" HELP ".toList ++ name ++ ' ' :: help) ::
    .comment (" TYPE ".toList ++ name ++ " histogram".toList) ::
    ((Gather.keysOf observations).flatMap fun labels =>
      samplesOf name ladder labels (Gather.updatesAt labels observations)).map .sample

theorem header_lines (name help : List Char) :
    renderHeader name help =
      writeText [.comment (" HELP ".toList ++ name ++ ' ' :: help),
        .comment (" TYPE ".toList ++ name ++ " histogram".toList)] := by
  simp only [renderHeader, writeText, List.flatMap_cons, List.flatMap_nil, Line.text, List.cons_append,
    List.append_assoc, List.append_nil, List.nil_append]

theorem body_lines (name : List Char) (ladder : Ladder) (observations : List (Labels × Int))
    (keys : List Labels) :
    ((keys.map fun labels => (labels, (Gather.updatesAt labels observations).foldl
        (Series.observe ladder) (Series.new ladder))).flatMap fun entry =>
      renderSeries name ladder entry.1 entry.2) =
      writeText ((keys.flatMap fun labels =>
        samplesOf name ladder labels (Gather.updatesAt labels observations)).map .sample) := by
  induction keys with
  | nil => rfl
  | cons labels keys ih =>
      have here := renderSeries_eq name ladder labels
        (congrArg Series.buckets (foldl_observe ladder (Gather.updatesAt labels observations)))
        (congrArg Series.count (foldl_observe ladder (Gather.updatesAt labels observations)))
        (congrArg Series.sum (foldl_observe ladder (Gather.updatesAt labels observations)))
      rw [List.map_cons, List.flatMap_cons, ih, List.flatMap_cons, List.map_append, writeText_append,
        ← here]

theorem render_run (name help : List Char) (ladder : Ladder) (observations : List (Labels × Int)) :
    ((Family.new name help ladder).run observations).render =
      writeText (linesOfFamily name help ladder observations) := by
  have series := series_run name help ladder observations
  have body := body_lines name ladder observations (Gather.keysOf observations)
  rw [← series] at body
  have kept := run_eq (Family.new name help ladder) observations
  generalize (Family.new name help ladder).run observations = family at body kept
  have named : family.name = name := by rw [kept]; rfl
  have helped : family.help = help := by rw [kept]; rfl
  have laddered : family.ladder = ladder := by rw [kept]; rfl
  rw [Family.render, named, helped, laddered, header_lines, body, ← writeText_append, linesOfFamily,
    List.cons_append, List.cons_append, List.nil_append]

/-- What a family of some name can be made of: names without the signs of the format, and labels whose
values may be anything. -/
structure NamesFit (name help : List Char) (observations : List (Labels × Int)) : Prop where
  named : name ≠ []
  hash : name.head? ≠ some '#'
  name : ∀ c ∈ name, inName c = true ∧ c ≠ '\n'
  help : '\n' ∉ help
  keys : ∀ observation ∈ observations, ∀ label ∈ plainLabels observation.1, ∀ c ∈ label.1,
    c ≠ '=' ∧ c ≠ '\n'

theorem NamesFit.suffix {name help suffix : List Char} {observations : List (Labels × Int)}
    (fits : NamesFit name help observations) (plain : ∀ c ∈ suffix, inName c = true ∧ c ≠ '\n')
    {labels : List (List Char × List Char)} (keys : ∀ label ∈ labels, ∀ c ∈ label.1, c ≠ '=' ∧ c ≠ '\n')
    {value : List Char} (number : ∀ c ∈ value, inNumber c = true) :
    Sample.Writable { name := name ++ suffix, labels, value } := by
  constructor
  · simp [fits.named]
  · have head : (name ++ suffix).head? = name.head? := List.head?_append_of_ne_nil _ fits.named
    rw [head]
    exact fits.hash
  · exact List.forall_mem_append.mpr ⟨fits.name, plain⟩
  · exact keys
  · exact newline_not_mem_number number

theorem zipWith_forall {bounds : List (List Char)} {counts : List Nat}
    {sample : List Char → Nat → Sample} {holds : Sample → Prop}
    (each : ∀ bound ∈ bounds, ∀ count, holds (sample bound count)) :
    ∀ one ∈ List.zipWith sample bounds counts, holds one := by
  induction bounds generalizing counts with
  | nil => exact fun one member => absurd member List.not_mem_nil
  | cons bound bounds ih =>
      cases counts with
      | nil => exact fun one member => absurd member List.not_mem_nil
      | cons count counts =>
          rw [List.forall_mem_cons] at each
          rw [List.zipWith_cons_cons, List.forall_mem_cons]
          exact ⟨each.1 count, ih each.2⟩

theorem samplesOf_writable {name help : List Char} (ladder : Ladder)
    {observations : List (Labels × Int)} (fits : NamesFit name help observations) {labels : Labels}
    (keys : ∀ label ∈ plainLabels labels, ∀ c ∈ label.1, c ≠ '=' ∧ c ≠ '\n') (values : List Int) :
    ∀ sample ∈ samplesOf name ladder labels values, sample.Writable := by
  have bucket : ∀ c ∈ "_bucket".toList, inName c = true ∧ c ≠ '\n' := by simp [inName]
  have sum : ∀ c ∈ "_sum".toList, inName c = true ∧ c ≠ '\n' := by simp [inName]
  have count : ∀ c ∈ "_count".toList, inName c = true ∧ c ≠ '\n' := by simp [inName]
  have bounded : ∀ label ∈ [(['l', 'e'], ([] : List Char))], ∀ c ∈ label.1, c ≠ '=' ∧ c ≠ '\n' := by
    simp
  rw [samplesOf, List.forall_mem_append]
  constructor
  · apply zipWith_forall
    intro le _ number
    have all : ∀ label ∈ plainLabels labels ++ [(['l', 'e'], le)], ∀ c ∈ label.1,
        c ≠ '=' ∧ c ≠ '\n' := by
      rw [List.forall_mem_append, List.forall_mem_singleton]
      exact ⟨keys, (List.forall_mem_singleton.mp bounded)⟩
    exact fits.suffix bucket all (inNumber_toDigits number)
  · rw [List.forall_mem_cons, List.forall_mem_singleton]
    exact ⟨fits.suffix sum keys (inNumber_formatUnit _ _), fits.suffix count keys (inNumber_toDigits _)⟩

theorem linesOfFamily_writable {name help : List Char} (ladder : Ladder)
    {observations : List (Labels × Int)} (fits : NamesFit name help observations) :
    ∀ line ∈ linesOfFamily name help ladder observations, line.Writable := by
  have word : '\n' ∉ " HELP ".toList ∧ '\n' ∉ " TYPE ".toList ∧ '\n' ∉ " histogram".toList := by
    decide
  have named : '\n' ∉ name := fun member => (fits.name _ member).2 rfl
  rw [linesOfFamily, List.forall_mem_cons, List.forall_mem_cons]
  refine ⟨?_, ?_, ?_⟩
  · simp only [Line.Writable, List.mem_append, List.mem_cons, not_or]
    exact ⟨⟨word.1, named⟩, by decide, fits.help⟩
  · simp only [Line.Writable, List.mem_append, not_or]
    exact ⟨⟨word.2.1, named⟩, word.2.2⟩
  · intro line member
    obtain ⟨sample, inside, rfl⟩ := List.mem_map.mp member
    obtain ⟨labels, observed, listed⟩ := List.mem_flatMap.mp inside
    rw [Gather.mem_keysOf] at observed
    have seen : ∃ observation ∈ observations, observation.1 = labels := by
      by_contra never
      push Not at never
      apply observed
      rw [Gather.updatesAt, List.filterMap_eq_nil_iff]
      exact fun observation member => if_neg (never observation member)
    obtain ⟨observation, given, rfl⟩ := seen
    exact samplesOf_writable ladder fits (fits.keys observation given) _ sample listed

/-- A route whose name would end its label and its line. -/
def quotedRoute : Labels := [toLex ("route".toList, "a\"\x7d 1\n".toList)]

end Lightweight.Router
