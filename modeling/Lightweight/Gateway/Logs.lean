import Mathlib.Data.List.Sort
import Lightweight.Framing
import Lightweight.Newest
import Lightweight.Utf8
import Lightweight.Catalog.Alias
import Lightweight.Router.Json

/-! The records the gateway has logged, read back from its newest files
(`lightweight-gateway/src/logs.rs`), and what is left of them where the last line of a file is only
half written. -/

namespace Lightweight.Gateway.Logs

open Lightweight.Router

def defaultLimit : Nat := 200
def maxLimit : Nat := 2000

/-- How many files are read. -/
def filesRead : Nat := 2

def logStem : List Char := "gateway.log".toList

inductive Level where
  | trace
  | debug
  | info
  | warn
  | error
deriving DecidableEq, Repr

namespace Level

def severity : Level → Nat
  | .trace => 0
  | .debug => 1
  | .info => 2
  | .warn => 3
  | .error => 4

def parse (value : List Char) : Option Level :=
  let word := value.map Char.toLower
  if word = "trace".toList then some .trace
  else if word = "debug".toList then some .debug
  else if word = "info".toList then some .info
  else if word = "warn".toList ∨ word = "warning".toList then some .warn
  else if word = "error".toList then some .error
  else none

end Level

/-- What a caller asks for. -/
structure LogQuery where
  level : Option (List Char)
  target : Option (List Char)
  search : Option (List Char)
  limit : Option Nat

structure LogRecord where
  timestamp : List Char
  level : List Char
  target : List Char
  message : List Char
  fields : Map

structure LogsBody where
  object : List Char
  data : List LogRecord
  truncated : Bool
  files : List (List UInt8)

structure Filter where
  minimum : Option Level
  target : Option (List Char)
  search : Option (List Char)
  limit : Nat
  limit_pos : 0 < limit
  limit_le : limit ≤ maxLimit

/-- A level that names none. -/
structure UnknownLevel where
  value : List Char

def UnknownLevel.param (_ : UnknownLevel) : List Char := "level".toList
def UnknownLevel.code (_ : UnknownLevel) : List Char := "invalid_request".toList

def contains (needle text : List Char) : Bool := (Framing.find needle text).isSome

section Filtering

variable [Catalog.Lowercase]

open Catalog.Lowercase (toLowercase)

/-- The filter of a request, as its handler builds it. -/
def Filter.ofQuery (query : LogQuery) : Except UnknownLevel Filter := do
  let minimum ← match query.level with
    | none => pure none
    | some value =>
        match Level.parse value with
        | some level => pure (some level)
        | none => .error ⟨value⟩
  pure { minimum, target := query.target, search := query.search.map toLowercase
         limit := max 1 (min (query.limit.getD defaultLimit) maxLimit)
         limit_pos := by omega
         limit_le := by simp [maxLimit] }

namespace Filter

def admitsLevel (filter : Filter) (record : LogRecord) : Bool :=
  match filter.minimum with
  | none => true
  | some minimum =>
      match Level.parse record.level with
      | none => false
      | some level => !decide (level.severity < minimum.severity)

def admits (filter : Filter) (record : LogRecord) : Bool :=
  filter.admitsLevel record &&
    filter.target.all (contains · record.target) &&
      filter.search.all (contains · (toLowercase record.message))

end Filter

end Filtering

/-- A file of the log directory, by its name; one that cannot be read has no contents. -/
structure LogFile where
  name : List UInt8
  contents : Option (List UInt8)
deriving DecidableEq

def LogFile.named (file : LogFile) : Bool :=
  match Utf8.fromUtf8 file.name with
  | none => false
  | some name => logStem.isPrefixOf name

/-- The newest files, the oldest of them first. A directory that cannot be listed has none. -/
def recentFiles (directory : Option (List LogFile)) : List LogFile :=
  let files := ((directory.getD []).filter LogFile.named).insertionSort fun a b => a.name ≤ b.name
  files.drop (files.length - filesRead)

/-- A log file that is passed over is no newer than any that is read. -/
theorem recentFiles_newest {directory : Option (List LogFile)} {file recent : LogFile}
    (member : file ∈ directory.getD []) (named : file.named)
    (passed : file ∉ recentFiles directory) (read : recent ∈ recentFiles directory) :
    file.name ≤ recent.name := by
  have total : Std.Total fun a b : LogFile => a.name ≤ b.name :=
    ⟨fun a b => List.le_total a.name b.name⟩
  have trans : IsTrans LogFile fun a b : LogFile => a.name ≤ b.name :=
    ⟨fun _ _ _ first second => List.le_trans first second⟩
  have sorted := List.pairwise_insertionSort (fun a b : LogFile => a.name ≤ b.name)
    ((directory.getD []).filter LogFile.named)
  have listed : file ∈ ((directory.getD []).filter LogFile.named).insertionSort
      fun a b => a.name ≤ b.name :=
    (List.mem_insertionSort _).mpr (List.mem_filter.mpr ⟨member, named⟩)
  unfold recentFiles at passed read
  generalize ((directory.getD []).filter LogFile.named).insertionSort
    (fun a b => a.name ≤ b.name) = files at *
  rw [← List.take_append_drop (files.length - filesRead) files] at sorted listed
  exact (List.pairwise_append.mp sorted).2.2 file
    ((List.mem_append.mp listed).resolve_right passed) recent read

/-- A text cut behind each line break. -/
def splitInclusive : List Char → List (List Char)
  | [] => []
  | c :: rest =>
      if c = '\n' then [c] :: splitInclusive rest
      else
        match splitInclusive rest with
        | [] => [[c]]
        | line :: lines => (c :: line) :: lines

/-- A line without the break at its end. -/
def withoutBreak (line : List Char) : List Char :=
  if line.getLast? = some '\n' then
    if line.dropLast.getLast? = some '\r' then line.dropLast.dropLast else line.dropLast
  else line

/-- `str::lines`. -/
def lines (text : List Char) : List (List Char) :=
  (splitInclusive text).map withoutBreak

def asObject : Value → Option Map
  | .object members => some members
  | _ => none

/-- The map without a key. -/
def removeKey (key : List Char) (map : Map) : Map :=
  map.filter fun entry => !(entry.1 == key)

section Reading

variable [Catalog.Lowercase] (serde : Serde)

/-- The text of a message, or the rendering of one that is not a text. -/
def messageText : Value → List Char
  | .string text => text
  | other => serde.toString other

def parseRecord (line : List Char) : Option LogRecord := do
  let value ← serde.fromStr line
  let object ← asObject value
  let fields := ((Map.get "fields".toList object).bind asObject).getD []
  let timestamp ← (Map.get "timestamp".toList object).bind asStr
  let level ← (Map.get "level".toList object).bind asStr
  pure { timestamp, level
         target := ((Map.get "target".toList object).bind asStr).getD []
         message := ((Map.get "message".toList fields).map (messageText serde)).getD []
         fields := removeKey "message".toList fields }

def readLine (filter : Filter) (kept : Ring LogRecord) (line : List Char) : Ring LogRecord :=
  match parseRecord serde line with
  | none => kept
  | some record => if filter.admits record then kept.push filter.limit record else kept

/-- A file that is not there any more, or is no text, is passed over. -/
def readFile (filter : Filter) (kept : Ring LogRecord) (file : LogFile) : Ring LogRecord :=
  match file.contents.bind Utf8.fromUtf8 with
  | none => kept
  | some contents => (lines contents).foldl (readLine serde filter) kept

def readLogs (directory : Option (List LogFile)) (filter : Filter) : LogsBody :=
  let files := recentFiles directory
  let kept := files.foldl (readFile serde filter) Ring.empty
  { object := "list".toList, data := kept.kept.reverse, truncated := kept.truncated
    files := files.map LogFile.name }

/-! ### What is read -/

/-- The records of a file's lines, in order. -/
def fileRecords (contents : Option (List UInt8)) : List LogRecord :=
  match contents.bind Utf8.fromUtf8 with
  | none => []
  | some text => (lines text).filterMap (parseRecord serde)

theorem foldl_readLine (filter : Filter) (kept : Ring LogRecord) (lines : List (List Char)) :
    lines.foldl (readLine serde filter) kept =
      ((lines.filterMap (parseRecord serde)).filter filter.admits).foldl
        (Ring.push filter.limit) kept := by
  induction lines generalizing kept with
  | nil => rfl
  | cons line lines ih =>
      rw [List.foldl_cons, ih, readLine]
      cases parsed : parseRecord serde line with
      | none => rw [List.filterMap_cons_none parsed]
      | some record =>
          rw [List.filterMap_cons_some parsed, List.filter_cons]
          cases admitted : filter.admits record <;> simp [admitted]

theorem readFile_eq (filter : Filter) (kept : Ring LogRecord) (file : LogFile) :
    readFile serde filter kept file =
      ((fileRecords serde file.contents).filter filter.admits).foldl
        (Ring.push filter.limit) kept := by
  rw [readFile, fileRecords]
  split
  · rfl
  · exact foldl_readLine serde filter kept _

theorem foldl_readFile (filter : Filter) (kept : Ring LogRecord) (files : List LogFile) :
    files.foldl (readFile serde filter) kept =
      ((files.map LogFile.contents).flatMap (fileRecords serde) |>.filter filter.admits).foldl
        (Ring.push filter.limit) kept := by
  induction files generalizing kept with
  | nil => rfl
  | cons file files ih =>
      rw [List.foldl_cons, ih, readFile_eq, List.map_cons, List.flatMap_cons, List.filter_append,
        List.foldl_append]

/-- The body holds the newest of these records, and says whether there are more of them. -/
structure LogsBody.Newest (body : LogsBody) (filter : Filter) (records : List LogRecord) :
    Prop where
  data : body.data = ((records.filter filter.admits).rtake filter.limit).reverse
  truncated : body.truncated = true ↔ filter.limit < (records.filter filter.admits).length

theorem readLogs_eq (directory : Option (List LogFile)) (filter : Filter) :
    let ring := Ring.ofRun filter.limit ((((recentFiles directory).map LogFile.contents).flatMap
      (fileRecords serde)).filter filter.admits)
    readLogs serde directory filter =
      { object := "list".toList, data := ring.kept.reverse, truncated := ring.truncated
        files := (recentFiles directory).map LogFile.name } := by
  rw [readLogs, foldl_readFile, Ring.foldl_push filter.limit_pos]

/-- What is read of the newest files stands for these records exactly where they leave the same
ring. -/
theorem readLogs_newest_iff (directory : Option (List LogFile)) (filter : Filter)
    (records : List LogRecord) :
    (readLogs serde directory filter).Newest filter records ↔
      Ring.ofRun filter.limit (records.filter filter.admits) =
        Ring.ofRun filter.limit ((((recentFiles directory).map LogFile.contents).flatMap
          (fileRecords serde)).filter filter.admits) := by
  rw [readLogs_eq, Ring.ofRun, Ring.ofRun, Ring.mk.injEq, decide_eq_decide]
  constructor
  · rintro ⟨data, truncated⟩
    exact ⟨(List.reverse_injective data).symm, (truncated.symm.trans decide_eq_true_iff)⟩
  · rintro ⟨same, more⟩
    exact ⟨congrArg List.reverse same.symm, decide_eq_true_iff.trans more.symm⟩

end Reading

/-! ### Lines -/

theorem splitInclusive_append {line : List Char} (unbroken : '\n' ∉ line) (rest : List Char) :
    splitInclusive (line ++ '\n' :: rest) = (line ++ ['\n']) :: splitInclusive rest := by
  induction line with
  | nil => simp [splitInclusive]
  | cons c line ih =>
      rw [List.mem_cons, not_or] at unbroken
      obtain ⟨here, later⟩ := unbroken
      rw [List.cons_append, splitInclusive, if_neg (Ne.symm here), ih later, List.cons_append]

theorem splitInclusive_unbroken {line : List Char} (unbroken : '\n' ∉ line) (some : line ≠ []) :
    splitInclusive line = [line] := by
  induction line with
  | nil => exact absurd rfl some
  | cons c line ih =>
      rw [List.mem_cons, not_or] at unbroken
      obtain ⟨here, later⟩ := unbroken
      rw [splitInclusive, if_neg (Ne.symm here)]
      by_cases last : line = []
      · rw [last, splitInclusive]
      · rw [ih later last]

theorem lines_append {line : List Char} (unbroken : '\n' ∉ line)
    (uncut : line.getLast? ≠ some '\r') (rest : List Char) :
    lines (line ++ '\n' :: rest) = line :: lines rest := by
  rw [lines, splitInclusive_append unbroken, List.map_cons, withoutBreak, List.getLast?_concat,
    if_pos rfl, List.dropLast_concat, if_neg uncut, lines]

theorem lines_unbroken {line : List Char} (unbroken : '\n' ∉ line) (some : line ≠ []) :
    lines line = [line] := by
  have inside : line.getLast? ≠ Option.some '\n' :=
    fun last => unbroken (List.mem_of_getLast? last)
  rw [lines, splitInclusive_unbroken unbroken some, List.map_singleton, withoutBreak,
    if_neg inside]

section Written

variable (serde : Serde)

/-- A line as it is logged: an object on one line, which ends with its brace. -/
structure RecordLine where
  text : List Char
  record : LogRecord
  unbroken : '\n' ∉ text
  closed : text.getLast? = some '\x7d'
  parsed : parseRecord serde text = some record

/-- A text that ends with the brace that closes its object is not read without that brace. -/
def ClosesLast : Prop :=
  ∀ front back members, serde.fromStr (front ++ back) = some (.object members) →
    (front ++ back).getLast? = some '\x7d' → back ≠ [] → serde.fromStr front = none

variable {serde}

namespace RecordLine

def whole (line : RecordLine serde) : List Char := line.text ++ ['\n']

def bytes (line : RecordLine serde) : List UInt8 := Utf8.encode line.whole

theorem text_ne_nil (line : RecordLine serde) : line.text ≠ [] := by
  intro empty
  have closed := line.closed
  rw [empty] at closed
  cases closed

theorem uncut (line : RecordLine serde) : line.text.getLast? ≠ some '\r' := by
  rw [line.closed]
  decide

theorem object (line : RecordLine serde) :
    ∃ members, serde.fromStr line.text = some (.object members) := by
  have parsed := line.parsed
  obtain ⟨value, read, rest⟩ := Option.bind_eq_some_iff.mp parsed
  obtain ⟨members, object, _⟩ := Option.bind_eq_some_iff.mp rest
  cases value <;> cases object
  exact ⟨members, read⟩

/-- A line that lacks its last character is no record. -/
theorem torn_unread (line : RecordLine serde) (closes : ClosesLast serde) {front back : List Char}
    (torn : line.text = front ++ back) (some : back ≠ []) : parseRecord serde front = none := by
  obtain ⟨members, object⟩ := line.object
  have closed := line.closed
  rw [torn] at object closed
  rw [parseRecord, closes front back members object closed some]
  rfl

end RecordLine

def bytesOf (lines : List (RecordLine serde)) : List UInt8 :=
  Utf8.encode (lines.flatMap RecordLine.whole)

theorem lines_whole (logged : List (RecordLine serde)) (rest : List Char) :
    lines (logged.flatMap RecordLine.whole ++ rest) = logged.map RecordLine.text ++ lines rest := by
  induction logged with
  | nil => rfl
  | cons line logged ih =>
      rw [List.flatMap_cons, RecordLine.whole, List.append_assoc, List.append_assoc,
        List.singleton_append, lines_append line.unbroken line.uncut, ih, List.map_cons,
        List.cons_append]

theorem filterMap_parseRecord (logged : List (RecordLine serde)) :
    (logged.map RecordLine.text).filterMap (parseRecord serde) =
      logged.map RecordLine.record := by
  induction logged with
  | nil => rfl
  | cons line logged ih =>
      rw [List.map_cons, List.filterMap_cons_some line.parsed, ih, List.map_cons]

variable (serde)

/-- The beginning of a line that is still being written. -/
structure TornLine where
  line : RecordLine serde
  length : Nat
  short : length < line.bytes.length

variable {serde}

namespace TornLine

def bytes (torn : TornLine serde) : List UInt8 := torn.line.bytes.take torn.length

/-- No character is cut in two. -/
def BetweenCharacters (torn : TornLine serde) : Prop := ∃ read, torn.bytes = Utf8.encode read

/-- The record, where nothing but the line break is missing. -/
def completed (torn : TornLine serde) : List (RecordLine serde) :=
  if torn.length + 1 = torn.line.bytes.length then [torn.line] else []

/-- A line torn between characters is a beginning of the record's text, and all of it only where the
line break alone is missing. -/
theorem read_prefix (torn : TornLine serde) {read : List Char}
    (between : torn.bytes = Utf8.encode read) :
    ∃ rest, torn.line.text = read ++ rest ∧
      (rest = [] ↔ torn.length + 1 = torn.line.bytes.length) := by
  have halves : Utf8.encode read ++ torn.line.bytes.drop torn.length =
      Utf8.encode torn.line.whole := by
    rw [← between]
    exact List.take_append_drop torn.length torn.line.bytes
  obtain ⟨rest, whole, encoded⟩ := Utf8.encode_append_eq halves
  have missing := congrArg List.length encoded
  rw [List.length_drop] at missing
  have short := torn.short
  rcases List.eq_nil_or_concat rest with rfl | ⟨front, last, rfl⟩
  · rw [Utf8.encode_nil, List.length_nil] at missing
    omega
  · rw [List.concat_eq_append] at whole missing
    rw [← List.append_assoc] at whole
    obtain ⟨text, newline⟩ := List.append_inj' whole rfl
    refine ⟨front, text, ?_⟩
    cases newline
    have one : (Utf8.encode ['\n']).length = 1 := rfl
    rw [Utf8.encode_append, List.length_append, one] at missing
    rw [← Utf8.encode_eq_nil_iff, ← List.length_eq_zero_iff]
    omega

/-- What is read of a torn line is its record or nothing. -/
theorem filterMap_read (torn : TornLine serde) (closes : ClosesLast serde) {read : List Char}
    (between : torn.bytes = Utf8.encode read) :
    (lines read).filterMap (parseRecord serde) = torn.completed.map RecordLine.record := by
  obtain ⟨rest, text, complete⟩ := torn.read_prefix between
  have unbroken : '\n' ∉ read := by
    intro broken
    apply torn.line.unbroken
    rw [text]
    exact List.mem_append_left rest broken
  by_cases all : rest = []
  · rw [all, List.append_nil] at text
    rw [completed, if_pos (complete.mp all), ← text, lines_unbroken torn.line.unbroken
      torn.line.text_ne_nil]
    exact filterMap_parseRecord [torn.line]
  · rw [completed, if_neg (fun missing => all (complete.mpr missing)), List.map_nil]
    by_cases nothing : read = []
    · rw [nothing]
      rfl
    · rw [lines_unbroken unbroken nothing,
        List.filterMap_cons_none (torn.line.torn_unread closes text all)]
      rfl

end TornLine

/-- The bytes of the newest file after its whole lines. -/
def tailBytes (torn : Option (TornLine serde)) : List UInt8 :=
  (torn.map TornLine.bytes).getD []

def tailRecords (torn : Option (TornLine serde)) : List (RecordLine serde) :=
  (torn.map TornLine.completed).getD []

/-- The files of these lines, the last of them with a torn line behind its own. -/
def contentsOf (written : List (List (RecordLine serde))) (torn : Option (TornLine serde)) :
    List (Option (List UInt8)) :=
  written.dropLast.map (fun lines => some (bytesOf lines)) ++
    written.getLast?.toList.map fun lines => some (bytesOf lines ++ tailBytes torn)

/-- The records of all files but the newest. -/
def olderRecords (written : List (List (RecordLine serde))) : List LogRecord :=
  written.dropLast.flatMap fun lines => lines.map RecordLine.record

/-- The complete records of the newest file. -/
def newestRecords (written : List (List (RecordLine serde))) (torn : Option (TornLine serde)) :
    List LogRecord :=
  written.getLast?.toList.flatMap fun lines => (lines ++ tailRecords torn).map RecordLine.record

theorem fileRecords_bytesOf (logged : List (RecordLine serde)) {rest : List UInt8}
    {read : List Char} (encoded : rest = Utf8.encode read) :
    fileRecords serde (some (bytesOf logged ++ rest)) =
      logged.map RecordLine.record ++ (lines read).filterMap (parseRecord serde) := by
  rw [encoded, bytesOf, ← Utf8.encode_append, fileRecords, Option.bind_some, Utf8.fromUtf8_encode]
  simp only
  rw [lines_whole, List.filterMap_append, filterMap_parseRecord]

/-- Nothing is read of a file that ends inside a character. -/
theorem fileRecords_cut (logged : List (RecordLine serde)) {rest : List UInt8}
    (cut : ¬ ∃ read, rest = Utf8.encode read) :
    fileRecords serde (some (bytesOf logged ++ rest)) = [] := by
  rw [fileRecords, Option.bind_some]
  cases valid : Utf8.fromUtf8 (bytesOf logged ++ rest) with
  | none => rfl
  | some text =>
      obtain ⟨read, _, encoded⟩ := Utf8.encode_append_eq (Utf8.fromUtf8_eq_some.mp valid)
      exact absurd ⟨read, encoded⟩ cut

theorem fileRecords_whole (logged : List (RecordLine serde)) :
    fileRecords serde (some (bytesOf logged)) = logged.map RecordLine.record := by
  have empty := fileRecords_bytesOf logged Utf8.encode_nil.symm
  have none_ : (lines []).filterMap (parseRecord serde) = [] := rfl
  rwa [List.append_nil, none_, List.append_nil] at empty

theorem flatMap_fileRecords (written : List (List (RecordLine serde)))
    (torn : Option (TornLine serde)) {records : List (RecordLine serde) → List LogRecord}
    (newest : ∀ logged, fileRecords serde (some (bytesOf logged ++ tailBytes torn)) =
      records logged) :
    (contentsOf written torn).flatMap (fileRecords serde) =
      olderRecords written ++ written.getLast?.toList.flatMap records := by
  rw [contentsOf, List.flatMap_append, List.flatMap_map, List.flatMap_map, olderRecords]
  simp only [fileRecords_whole, newest]

theorem records_between (closes : ClosesLast serde) (written : List (List (RecordLine serde)))
    {torn : Option (TornLine serde)} (between : ∀ line ∈ torn, line.BetweenCharacters) :
    (contentsOf written torn).flatMap (fileRecords serde) =
      olderRecords written ++ newestRecords written torn := by
  apply flatMap_fileRecords
  intro logged
  rw [List.map_append]
  cases torn with
  | none => exact fileRecords_bytesOf logged Utf8.encode_nil.symm
  | some line =>
      obtain ⟨read, encoded⟩ := between line rfl
      rw [tailBytes, Option.map_some, Option.getD_some, fileRecords_bytesOf logged encoded,
        line.filterMap_read closes encoded]
      rfl

theorem records_cut (written : List (List (RecordLine serde))) {torn : Option (TornLine serde)}
    (cut : ¬ ∀ line ∈ torn, line.BetweenCharacters) :
    (contentsOf written torn).flatMap (fileRecords serde) = olderRecords written := by
  have nothing : (contentsOf written torn).flatMap (fileRecords serde) =
      olderRecords written ++ written.getLast?.toList.flatMap fun _ => [] := by
    apply flatMap_fileRecords
    intro logged
    apply fileRecords_cut
    rintro ⟨read, encoded⟩
    apply cut
    rintro line rfl
    exact ⟨read, encoded⟩
  rw [nothing, List.flatMap_eq_nil_iff.mpr fun _ _ => rfl, List.append_nil]

/-- A torn line costs only itself exactly where no character is cut, or the newest file has nothing
to show, or nothing that the older one does not show as well. -/
theorem readLogs_torn [Catalog.Lowercase] (closes : ClosesLast serde)
    (directory : Option (List LogFile)) (filter : Filter)
    (written : List (List (RecordLine serde))) (torn : Option (TornLine serde))
    (holds : (recentFiles directory).map LogFile.contents = contentsOf written torn) :
    (readLogs serde directory filter).Newest filter
        (olderRecords written ++ newestRecords written torn) ↔
      (∀ line ∈ torn, line.BetweenCharacters) ∨
      (newestRecords written torn).filter filter.admits = [] ∨
      (filter.limit < ((olderRecords written).filter filter.admits).length ∧
        ((olderRecords written ++ newestRecords written torn).filter filter.admits).rtake
            filter.limit =
          ((olderRecords written).filter filter.admits).rtake filter.limit) := by
  rw [readLogs_newest_iff, holds]
  by_cases between : ∀ line ∈ torn, line.BetweenCharacters
  · rw [records_between closes written between]
    exact iff_of_true rfl (.inl between)
  · rw [records_cut written between, List.filter_append, Ring.ofRun_append_eq_iff, or_iff_right between]

end Written

/-! A record whose message has a character of two bytes, torn inside it. -/

section Sample

attribute [local instance] Catalog.asciiLowercase

def sampleText : List Char :=
  "\x7b\"timestamp\":\"t\",\"level\":\"INFO\",\"fields\":\x7b\"message\":\"é\"\x7d,\"target\":\"a\"\x7d".toList

def sampleObject : Map :=
  [("fields".toList, .object [("message".toList, .string ['é'])]), ("level".toList, .string "INFO".toList),
    ("target".toList, .string "a".toList), ("timestamp".toList, .string "t".toList)]

def sampleSerde : Serde where
  fromStr text := if text = sampleText then some (.object sampleObject) else none
  toString _ := []

theorem sampleSerde_closesLast : ClosesLast sampleSerde := by
  intro front back members read _ some
  have whole : front ++ back = sampleText := by
    by_contra other
    simp [sampleSerde, other] at read
  have shorter : front ≠ sampleText := by
    rintro rfl
    exact some (List.append_right_eq_self.mp whole)
  exact if_neg shorter

def sampleLine : RecordLine sampleSerde where
  text := sampleText
  record := ⟨"t".toList, "INFO".toList, "a".toList, ['é'], []⟩
  unbroken := by decide
  closed := rfl
  parsed := rfl

/-- Torn inside the message's character. -/
def sampleCut : TornLine sampleSerde where
  line := sampleLine
  length := 54
  short := by decide +kernel

/-- Torn behind that character. -/
def sampleTorn : TornLine sampleSerde where
  line := sampleLine
  length := 55
  short := by decide +kernel

/-- A file of one whole line. -/
def sampleFile (torn : Option (TornLine sampleSerde)) : LogFile where
  name := Utf8.encode "gateway.log.2026-08-24".toList
  contents := some (bytesOf [sampleLine] ++ tailBytes torn)

def sampleFilter : Filter where
  minimum := none
  target := none
  search := none
  limit := defaultLimit
  limit_pos := by decide
  limit_le := by decide

theorem sampleFile_recent (torn : Option (TornLine sampleSerde)) :
    (recentFiles (some [sampleFile torn])).map LogFile.contents =
      contentsOf [[sampleLine]] torn := by
  have named : (sampleFile torn).named = true := by
    rw [LogFile.named, sampleFile, Utf8.fromUtf8_encode]
    rfl
  rw [recentFiles, Option.getD_some, List.filter_cons, if_pos named]
  rfl

theorem sampleCut_cut : ¬ sampleCut.BetweenCharacters := by
  rintro ⟨read, encoded⟩
  have valid := Utf8.fromUtf8_eq_some.mpr encoded
  have invalid : Utf8.fromUtf8 sampleCut.bytes = none := by decide +kernel
  rw [invalid] at valid
  cases valid

/-- The whole line in front of a character cut in two is not shown. -/
theorem sampleCut_hides :
    ClosesLast sampleSerde ∧
      (recentFiles (some [sampleFile (some sampleCut)])).map LogFile.contents =
        contentsOf [[sampleLine]] (some sampleCut) ∧
      ¬ (readLogs sampleSerde (some [sampleFile (some sampleCut)]) sampleFilter).Newest sampleFilter
        (olderRecords [[sampleLine]] ++ newestRecords [[sampleLine]] (some sampleCut)) := by
  refine ⟨sampleSerde_closesLast, sampleFile_recent (some sampleCut), ?_⟩
  rw [readLogs_newest_iff, sampleFile_recent,
    records_cut _ (fun between => sampleCut_cut (between sampleCut rfl)), List.filter_append,
    Ring.ofRun_append_eq_iff]
  have shown : sampleLine.record ∈
      (newestRecords [[sampleLine]] (some sampleCut)).filter sampleFilter.admits :=
    List.mem_filter.mpr ⟨List.mem_cons_self, rfl⟩
  rintro (nothing | ⟨full, _⟩)
  · exact List.ne_nil_of_mem shown nothing
  · cases full

theorem sampleTorn_costs_itself :
    ClosesLast sampleSerde ∧
      (recentFiles (some [sampleFile (some sampleTorn)])).map LogFile.contents =
        contentsOf [[sampleLine]] (some sampleTorn) ∧
      ((readLogs sampleSerde (some [sampleFile (some sampleTorn)]) sampleFilter).Newest sampleFilter
          (olderRecords [[sampleLine]] ++ newestRecords [[sampleLine]] (some sampleTorn)) ↔
        (∀ line ∈ some sampleTorn, line.BetweenCharacters) ∨
        (newestRecords [[sampleLine]] (some sampleTorn)).filter sampleFilter.admits = [] ∨
        (sampleFilter.limit <
            ((olderRecords [[sampleLine]]).filter sampleFilter.admits).length ∧
          ((olderRecords [[sampleLine]] ++
              newestRecords [[sampleLine]] (some sampleTorn)).filter sampleFilter.admits).rtake
                sampleFilter.limit =
            ((olderRecords [[sampleLine]]).filter sampleFilter.admits).rtake sampleFilter.limit)) :=
  ⟨sampleSerde_closesLast, sampleFile_recent _, readLogs_torn sampleSerde_closesLast _ _ _ _
    (sampleFile_recent _)⟩

end Sample

end Lightweight.Gateway.Logs
