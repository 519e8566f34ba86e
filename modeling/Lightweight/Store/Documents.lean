import Lightweight.Core.ModelId
import Lightweight.Filesystem
import Lightweight.SelectionSort
import Lightweight.Utf8
import Mathlib.Data.List.Nodup
import Mathlib.Logic.Function.Basic

/-! Documents in a directory, one file each, under ids that become file names. Conversations and
benchmark runs are kept like this. -/

namespace Lightweight.Store

open Core

/-- A file: what reading it gives, where that can be done, and when it was written, where that is
told. -/
structure Filed where
  contents : Option (List UInt8)
  modified : Option Nat
deriving DecidableEq, Repr

/-- What the names in the directory lead to. -/
abbrev Folder := List Char → Option Filed

/-- What `read_dir` goes through, in an order of its own. -/
structure Reads (folder : Folder) (entries : List (List Char × Filed)) : Prop where
  once : (entries.map Prod.fst).Nodup
  all : ∀ name file, (name, file) ∈ entries ↔ folder name = some file

/-- How a store writes a kind of documents. A parser that refuses says why. -/
structure Format (α : Type) where
  idLength : Nat
  idLength_pos : 0 < idLength
  id : α → List Char
  encode : α → List UInt8
  parse : List UInt8 → Except (List Char) α

/-- The system call a document could not be handled for. -/
inductive StoreStep where
  | read
  | directory
  | create
  | write
  | replace
  | delete
deriving DecidableEq, Repr

inductive DocumentError where
  | malformedId (id : List Char)
  | noSuch (id : List Char)
  | io (step : StoreStep)
  | unreadable (name reason : List Char)
deriving DecidableEq, Repr

/-- `u8::is_ascii_hexdigit`. -/
def isAsciiHexdigit (byte : UInt8) : Bool :=
  (48 ≤ byte && byte ≤ 57) || (65 ≤ byte && byte ≤ 70) || (97 ≤ byte && byte ≤ 102)

def isWellFormed (idLength : Nat) (id : List Char) : Bool :=
  (Utf8.encode id).length = idLength && (Utf8.encode id).all isAsciiHexdigit

def fileName (id : List Char) : List Char := id ++ ['.', 'j', 's', 'o', 'n']

/-- The name a document is written under before it takes its own. -/
def temporaryName (id : List Char) : List Char := fileName id ++ ['.', 't', 'm', 'p']

/-- `Path::file_stem` and `Path::extension` of a name. -/
def stemAndExtension (name : List Char) : List Char × Option (List Char) :=
  if name = ['.', '.'] then (name, none)
  else match rsplitOnce '.' name with
    | none => (name, none)
    | some (before, after) => if before = [] then (name, none) else (before, some after)

/-- Whether a listing takes a file into account. -/
def isDocument (idLength : Nat) (name : List Char) : Bool :=
  (stemAndExtension name).2 = some ['j', 's', 'o', 'n'] &&
    isWellFormed idLength (stemAndExtension name).1

/-- Documents a single listing opens. -/
def listLimit : Nat := 200

/-- How a call of `save` ends that gets to writing: where it is stopped, after how many bytes, and
whether the temporary file could be removed. A call that is killed leaves what one that fails
may. -/
inductive SaveEnd where
  | noDirectory
  | noTemporary
  | torn (written : Nat)
  | notReplaced (removed : Bool)
  | saved
deriving DecidableEq, Repr

namespace Folder

def empty : Folder := fun _ => none

def put (folder : Folder) (name : List Char) (held : Option Filed) : Folder :=
  Function.update folder name held

end Folder

namespace Format

variable {α : Type} (format : Format α)

def get (folder : Folder) (id : List Char) : Except DocumentError α :=
  if isWellFormed format.idLength id then
    match folder (fileName id) with
    | none => .error (.noSuch id)
    | some file =>
        match file.contents with
        | none => .error (.io .read)
        | some bytes => (format.parse bytes).mapError (.unreadable (fileName id))
  else .error (.malformedId id)

def save (folder : Folder) (document : α) (ending : SaveEnd) (now : Option Nat) :
    Folder × Except DocumentError Unit :=
  let id := format.id document
  if isWellFormed format.idLength id then
    match ending with
    | .noDirectory => (folder, .error (.io .directory))
    | .noTemporary => (folder, .error (.io .create))
    | .torn written =>
        (folder.put (temporaryName id) (some ⟨some ((format.encode document).take written), now⟩),
          .error (.io .write))
    | .notReplaced removed =>
        (folder.put (temporaryName id)
            (if removed then none else some ⟨some (format.encode document), now⟩),
          .error (.io .replace))
    | .saved =>
        ((folder.put (temporaryName id) none).put (fileName id)
            (some ⟨some (format.encode document), now⟩),
          .ok ())
  else (folder, .error (.malformedId id))

def delete (folder : Folder) (id : List Char) (refused : Bool) :
    Folder × Except DocumentError Unit :=
  if isWellFormed format.idLength id then
    if folder (fileName id) = none then (folder, .error (.noSuch id))
    else if refused then (folder, .error (.io .delete))
    else (folder.put (fileName id) none, .ok ())
  else (folder, .error (.malformedId id))

/-- The files a listing opens: the last ones written, newest first. -/
def candidates (entries : List (List Char × Filed)) : List (List Char × Filed) :=
  (sortByKey (fun entry => OrderDual.toDual (entry.2.modified.getD 0))
    (entries.filter fun entry => isDocument format.idLength entry.1)).take listLimit

/-- The document in a file that can be read. -/
def document? (entry : List Char × Filed) : Option α :=
  entry.2.contents.bind fun bytes => (format.parse bytes).toOption

def list (entries : List (List Char × Filed)) : List α :=
  (format.candidates entries).filterMap format.document?

end Format

/-- What may happen in the directory: the calls that write, and another program's files. -/
inductive StoreEvent (α : Type) where
  | save (document : α) (ending : SaveEnd) (now : Option Nat)
  | delete (id : List Char) (refused : Bool)
  | stray (name : List Char) (held : Option Filed)

def Format.apply {α : Type} (format : Format α) (folder : Folder) : StoreEvent α → Folder
  | .save document ending now => (format.save folder document ending now).1
  | .delete id refused => (format.delete folder id refused).1
  | .stray name held =>
      if isDocument format.idLength name then folder else folder.put name held

def Format.run {α : Type} (format : Format α) (folder : Folder) (events : List (StoreEvent α)) :
    Folder :=
  events.foldl format.apply folder

/-- What a store is for: under an id, the document that was saved last, and when. -/
abbrev Holdings (α : Type) := List Char → Option (α × Option Nat)

def Holdings.apply {α : Type} (format : Format α) (holdings : Holdings α) :
    StoreEvent α → Holdings α
  | .save document .saved now =>
      if isWellFormed format.idLength (format.id document) then
        Function.update holdings (format.id document) (some (document, now))
      else holdings
  | .delete id false => Function.update holdings id none
  | _ => holdings

def Holdings.run {α : Type} (format : Format α) (holdings : Holdings α)
    (events : List (StoreEvent α)) : Holdings α :=
  events.foldl (Holdings.apply format) holdings

/-- The answer to a request for a document. -/
def Holdings.answer {α : Type} (format : Format α) (holdings : Holdings α) (id : List Char) :
    Except DocumentError α :=
  if isWellFormed format.idLength id then
    match holdings id with
    | none => .error (.noSuch id)
    | some (document, _) => .ok document
  else .error (.malformedId id)

/-! ### The names of the files -/

theorem isWellFormed_absent {idLength : Nat} {id : List Char} {c : Char} (byte : UInt8)
    (encoded : String.utf8EncodeChar c = [byte]) (other : isAsciiHexdigit byte = false)
    (formed : isWellFormed idLength id = true) : c ∉ id := by
  intro member
  rw [isWellFormed, Bool.and_eq_true, List.all_eq_true] at formed
  have among : byte ∈ Utf8.encode id := by
    rw [Utf8.encode]
    refine List.mem_flatMap.mpr ⟨c, member, ?_⟩
    rw [encoded]
    exact List.mem_singleton_self byte
  have digit : isAsciiHexdigit byte = true := formed.2 byte among
  rw [other] at digit
  exact Bool.false_ne_true digit

theorem isWellFormed_nonempty {idLength : Nat} (positive : 0 < idLength) {id : List Char}
    (formed : isWellFormed idLength id = true) : id ≠ [] := by
  intro empty
  rw [empty, isWellFormed, Bool.and_eq_true, decide_eq_true_iff] at formed
  have length : 0 = idLength := formed.1
  omega

theorem rsplitOnce_eq_some {mark : Char} {text before after : List Char}
    (split : rsplitOnce mark text = some (before, after)) : text = before ++ mark :: after := by
  have member : mark ∈ text := by
    by_contra none_
    rw [rsplitOnce, if_neg none_] at split
    cases split
  obtain ⟨back, front, reversed, absent⟩ :=
    List.eq_append_cons_of_mem (List.mem_reverse.mpr member)
  have whole : text = front.reverse ++ mark :: back.reverse := by
    have turned := congrArg List.reverse reversed
    simpa using turned
  have last : mark ∉ back.reverse := fun there => absent (List.mem_reverse.mp there)
  rw [whole, rsplitOnce_append last] at split
  cases split
  exact whole

theorem stemAndExtension_append {stem extension : List Char} (named : stem ≠ [])
    (undotted : '.' ∉ extension) (long : 2 ≤ extension.length) :
    stemAndExtension (stem ++ '.' :: extension) = (stem, some extension) := by
  have other : stem ++ '.' :: extension ≠ ['.', '.'] := by
    intro same
    have lengths : stem.length + (extension.length + 1) = 2 := by
      simpa using congrArg List.length same
    omega
  rw [stemAndExtension, if_neg other, rsplitOnce_append undotted]
  exact if_neg named

theorem isDocument_fileName {idLength : Nat} (positive : 0 < idLength) {id : List Char}
    (formed : isWellFormed idLength id = true) : isDocument idLength (fileName id) = true := by
  have split : stemAndExtension (fileName id) = (id, some ['j', 's', 'o', 'n']) :=
    stemAndExtension_append (isWellFormed_nonempty positive formed) (by simp) (by simp)
  rw [isDocument, split]
  simpa using formed

theorem isDocument_temporaryName (idLength : Nat) (id : List Char) :
    isDocument idLength (temporaryName id) = false := by
  have named : fileName id ≠ [] := by simp [fileName]
  have split : stemAndExtension (temporaryName id) = (fileName id, some ['t', 'm', 'p']) :=
    stemAndExtension_append named (by simp) (by simp)
  rw [isDocument, split]
  rfl

/-- A listing takes a file into account only where a document of the store has its name. -/
theorem isDocument_iff {idLength : Nat} (positive : 0 < idLength) {name : List Char} :
    isDocument idLength name = true ↔
      ∃ id, isWellFormed idLength id = true ∧ name = fileName id := by
  constructor
  · intro document
    rw [isDocument, Bool.and_eq_true, decide_eq_true_iff] at document
    refine ⟨(stemAndExtension name).1, document.2, ?_⟩
    have extension := document.1
    unfold stemAndExtension at extension ⊢
    split at extension
    · cases extension
    · rename_i other
      rw [if_neg other]
      cases split : rsplitOnce '.' name with
      | none =>
          rw [split] at extension
          cases extension
      | some parts =>
          obtain ⟨before, after⟩ := parts
          rw [split] at extension
          dsimp only at extension ⊢
          split at extension
          · cases extension
          · rename_i named
            rw [if_neg named]
            cases extension
            exact rsplitOnce_eq_some split
  · intro shaped
    obtain ⟨id, formed, rfl⟩ := shaped
    exact isDocument_fileName positive formed

theorem fileName_injective {first second : List Char} (same : fileName first = fileName second) :
    first = second :=
  List.append_cancel_right same

theorem fileName_ne_temporaryName {idLength : Nat} (positive : 0 < idLength) {id other : List Char}
    (formed : isWellFormed idLength id = true) : fileName id ≠ temporaryName other := by
  intro same
  have document := isDocument_fileName positive formed
  rw [same, isDocument_temporaryName] at document
  cases document

/-- A name that a call touches is one plain name in the directory. -/
theorem components_fileName {idLength : Nat} {id : List Char} (suffix : List Char)
    (formed : isWellFormed idLength id = true) (plain : '/' ∉ suffix) :
    components (String.ofList (fileName id ++ suffix)) =
      [.normal (String.ofList (fileName id ++ suffix))] := by
  have absent : '/' ∉ fileName id ++ suffix := by
    have inside : '/' ∉ id := isWellFormed_absent 47 rfl rfl formed
    simp [fileName, inside, plain]
  have long : 4 ≤ (fileName id ++ suffix).length := by
    rw [fileName, List.length_append, List.length_append]
    simp only [List.length_cons, List.length_nil]
    omega
  generalize fileName id ++ suffix = name at absent long ⊢
  have one : name.splitOn '/' = [name] := List.splitOn_eq_singleton absent
  have first : name.head? ≠ some '/' := fun leads => absent (List.mem_of_mem_head? leads)
  have undotted : name ≠ ['.'] := by
    intro same
    rw [same] at long
    exact absurd long (by decide)
  have part : component name = some (.normal (String.ofList name)) := by
    unfold component
    split
    · simp at long
    · simp at long
    · simp at long
    · rfl
  rw [components, String.toList_ofList, one, if_neg first, if_neg (by simpa using undotted)]
  simp [part]

/-- A name that a document of the store is written under. -/
def OwnName (idLength : Nat) (name : List Char) : Prop :=
  ∃ id, isWellFormed idLength id = true ∧ (name = fileName id ∨ name = temporaryName id)

theorem OwnName.components_eq {idLength : Nat} {name : List Char} (own : OwnName idLength name) :
    components (String.ofList name) = [.normal (String.ofList name)] := by
  obtain ⟨id, formed, rfl | rfl⟩ := own
  · have plain := components_fileName [] formed (by simp)
    rwa [List.append_nil] at plain
  · exact components_fileName _ formed (by simp)

/-- A call changes files under names of its own alone. -/
theorem apply_own {α : Type} (format : Format α) (folder : Folder) (event : StoreEvent α)
    (name : List Char) :
    format.apply folder event name = folder name ∨ OwnName format.idLength name ∨
      ∃ held, event = .stray name held := by
  have put (other : List Char) (held : Option Filed) (different : name ≠ other) :
      folder.put other held name = folder name := Function.update_of_ne different _ _
  cases event with
  | save document ending now =>
      by_cases formed : isWellFormed format.idLength (format.id document) = true
      · by_cases own : name = fileName (format.id document) ∨ name = temporaryName (format.id document)
        · exact Or.inr (Or.inl ⟨_, formed, own⟩)
        · have final : name ≠ fileName (format.id document) := fun same => own (Or.inl same)
          have temporary : name ≠ temporaryName (format.id document) := fun same => own (Or.inr same)
          left
          cases ending with
          | noDirectory => simp [Format.apply, Format.save, formed]
          | noTemporary => simp [Format.apply, Format.save, formed]
          | torn written => simp [Format.apply, Format.save, formed, put _ _ temporary]
          | notReplaced removed => simp [Format.apply, Format.save, formed, put _ _ temporary]
          | saved =>
              simp only [Format.apply, Format.save, formed, if_true]
              rw [Folder.put, Function.update_of_ne final]
              exact put _ _ temporary
      · left
        simp [Format.apply, Format.save, formed]
  | delete id refused =>
      rw [Format.apply, Format.delete]
      split
      · rename_i formed
        by_cases own : name = fileName id
        · exact Or.inr (Or.inl ⟨id, formed, Or.inl own⟩)
        · left
          split
          · rfl
          · split
            · rfl
            · exact put _ _ own
      · exact Or.inl rfl
  | stray other held =>
      rw [Format.apply]
      split
      · exact Or.inl rfl
      · by_cases same : name = other
        · exact Or.inr (Or.inr ⟨held, by rw [same]⟩)
        · exact Or.inl (put _ _ same)

/-! ### The directory and the holdings -/

variable {α : Type} {format : Format α} {folder : Folder} {holdings : Holdings α}

/-- The directory holds them. -/
structure Stocked (format : Format α) (folder : Folder) (holdings : Holdings α) : Prop where
  held : ∀ id document modified, holdings id = some (document, modified) →
    isWellFormed format.idLength id = true ∧ format.id document = id ∧
      ∃ bytes, folder (fileName id) = some ⟨some bytes, modified⟩ ∧ format.parse bytes = .ok document
  absent : ∀ id, isWellFormed format.idLength id = true → holdings id = none →
    folder (fileName id) = none

theorem stocked_empty (format : Format α) : Stocked format Folder.empty fun _ => none where
  held _ _ _ none_ := nomatch none_
  absent _ _ _ := rfl

/-- A name that no document has may come to lead anywhere. -/
theorem Stocked.put (stocked : Stocked format folder holdings)
    {name : List Char} (other : isDocument format.idLength name = false) (held : Option Filed) :
    Stocked format (folder.put name held) holdings := by
  have kept {id : List Char} (formed : isWellFormed format.idLength id = true) :
      folder.put name held (fileName id) = folder (fileName id) := by
    rw [Folder.put, Function.update_of_ne]
    intro same
    rw [← same, isDocument_fileName format.idLength_pos formed] at other
    cases other
  constructor
  · intro id document modified there
    have found := stocked.held id document modified there
    rw [kept found.1]
    exact found
  · intro id formed gone
    rw [kept formed]
    exact stocked.absent id formed gone

/-- A file and its place in the holdings change together. -/
theorem Stocked.replace (stocked : Stocked format folder holdings)
    {id : List Char} {file : Option Filed} {entry : Option (α × Option Nat)}
    (matches_ : ∀ document modified, entry = some (document, modified) →
      isWellFormed format.idLength id = true ∧ format.id document = id ∧
        ∃ bytes, file = some ⟨some bytes, modified⟩ ∧ format.parse bytes = .ok document)
    (gone : entry = none → file = none) :
    Stocked format (folder.put (fileName id) file) (Function.update holdings id entry) := by
  constructor
  · intro other document modified there
    by_cases same : other = id
    · rw [same, Function.update_self] at there
      rw [same, Folder.put, Function.update_self]
      exact matches_ document modified there
    · rw [Function.update_of_ne same] at there
      rw [Folder.put, Function.update_of_ne fun names => same (fileName_injective names)]
      exact stocked.held other document modified there
  · intro other formed there
    by_cases same : other = id
    · rw [same, Function.update_self] at there
      rw [same, Folder.put, Function.update_self]
      exact gone there
    · rw [Function.update_of_ne same] at there
      rw [Folder.put, Function.update_of_ne fun names => same (fileName_injective names)]
      exact stocked.absent other formed there

theorem Stocked.save (stocked : Stocked format folder holdings)
    {document : α} (parsed : format.parse (format.encode document) = .ok document)
    (ending : SaveEnd) (now : Option Nat) :
    Stocked format (format.save folder document ending now).1
      (holdings.apply format (.save document ending now)) := by
  by_cases formed : isWellFormed format.idLength (format.id document) = true
  · have temporary := isDocument_temporaryName format.idLength (format.id document)
    cases ending with
    | noDirectory => simpa [Format.save, formed, Holdings.apply] using stocked
    | noTemporary => simpa [Format.save, formed, Holdings.apply] using stocked
    | torn written =>
        simp only [Format.save, formed, if_true, Holdings.apply]
        exact stocked.put temporary _
    | notReplaced removed =>
        simp only [Format.save, formed, if_true, Holdings.apply]
        exact stocked.put temporary _
    | saved =>
        simp only [Format.save, formed, if_true, Holdings.apply]
        refine (stocked.put temporary none).replace ?_ (fun none_ => nomatch none_)
        intro saved modified same
        cases same
        exact ⟨formed, rfl, format.encode document, rfl, parsed⟩
  · have kept : holdings.apply format (.save document ending now) = holdings := by
      cases ending <;> simp [Holdings.apply, formed]
    rw [kept]
    simpa [Format.save, formed] using stocked

theorem Stocked.delete (stocked : Stocked format folder holdings)
    (id : List Char) (refused : Bool) :
    Stocked format (format.delete folder id refused).1 (holdings.apply format (.delete id refused)) := by
  have unstocked (gone : holdings id = none) : Function.update holdings id none = holdings := by
    rw [← gone]
    exact Function.update_eq_self id holdings
  by_cases formed : isWellFormed format.idLength id = true
  · rw [Format.delete, if_pos formed]
    by_cases missing : folder (fileName id) = none
    · have gone : holdings id = none := by
        cases there : holdings id with
        | none => rfl
        | some entry =>
            obtain ⟨-, -, bytes, found, -⟩ := stocked.held id entry.1 entry.2 there
            rw [missing] at found
            cases found
      rw [if_pos missing]
      cases refused with
      | true => exact stocked
      | false =>
          rw [Holdings.apply, unstocked gone]
          exact stocked
    · rw [if_neg missing]
      cases refused with
      | true => exact stocked
      | false => exact stocked.replace (fun _ _ none_ => nomatch none_) fun _ => rfl
  · have gone : holdings id = none := by
      cases there : holdings id with
      | none => rfl
      | some entry => exact absurd (stocked.held id entry.1 entry.2 there).1 formed
    rw [Format.delete, if_neg formed]
    cases refused with
    | true => exact stocked
    | false =>
        rw [Holdings.apply, unstocked gone]
        exact stocked

theorem Stocked.run (stocked : Stocked format folder holdings)
    {events : List (StoreEvent α)}
    (parsed : ∀ document ending now, .save document ending now ∈ events →
      format.parse (format.encode document) = .ok document) :
    Stocked format (format.run folder events) (holdings.run format events) := by
  induction events generalizing folder holdings with
  | nil => exact stocked
  | cons event events ih =>
      have next : Stocked format (format.apply folder event) (holdings.apply format event) := by
        cases event with
        | save document ending now =>
            exact stocked.save (parsed document ending now List.mem_cons_self) ending now
        | delete id refused => exact stocked.delete id refused
        | stray name held =>
            rw [Format.apply]
            split
            · exact stocked
            · rename_i other
              exact stocked.put (Bool.eq_false_iff.mpr other) held
      exact ih next fun document ending now later =>
        parsed document ending now (List.mem_cons_of_mem _ later)

theorem Stocked.get (stocked : Stocked format folder holdings)
    (id : List Char) : format.get folder id = holdings.answer format id := by
  by_cases formed : isWellFormed format.idLength id = true
  · rw [Format.get, Holdings.answer, if_pos formed, if_pos formed]
    cases there : holdings id with
    | none => rw [stocked.absent id formed there]
    | some entry =>
        obtain ⟨-, -, bytes, found, parsed⟩ := stocked.held id entry.1 entry.2 there
        simp only [found, parsed]
        rfl
  · rw [Format.get, Holdings.answer, if_neg formed, if_neg formed]

/-! ### Listings -/

/-- A file that a listing takes into account holds the document of its name. -/
theorem Stocked.listed (stocked : Stocked format folder holdings)
    {entry : List Char × Filed} (there : folder entry.1 = some entry.2)
    (document : isDocument format.idLength entry.1 = true) :
    ∃ found, format.document? entry = some found ∧ entry.1 = fileName (format.id found) ∧
      holdings (format.id found) = some (found, entry.2.modified) := by
  obtain ⟨id, formed, name⟩ := (isDocument_iff format.idLength_pos).mp document
  rw [name] at there
  cases kept : holdings id with
  | none =>
      rw [stocked.absent id formed kept] at there
      cases there
  | some saved =>
      obtain ⟨found, modified⟩ := saved
      obtain ⟨-, same, bytes, file, parsed⟩ := stocked.held id found modified kept
      rw [there] at file
      have contents : entry.2 = ⟨some bytes, modified⟩ := Option.some.inj file
      refine ⟨found, ?_, ?_, ?_⟩
      · rw [Format.document?, contents, Option.bind_some, parsed]
        rfl
      · rw [same, name]
      · rw [same, kept, contents]

theorem candidates_spec (format : Format α) (entries : List (List Char × Filed)) :
    ∃ sorted : List (List Char × Filed),
      sorted.Perm (entries.filter fun entry => isDocument format.idLength entry.1) ∧
      (sorted.Pairwise fun a b => b.2.modified.getD 0 ≤ a.2.modified.getD 0) ∧
      format.candidates entries = sorted.take listLimit := by
  refine ⟨_, sortByKey_perm _ _, ?_, rfl⟩
  exact (sortByKey_sorted (fun entry : List Char × Filed =>
    OrderDual.toDual (entry.2.modified.getD 0)) _).imp fun below => below

theorem mem_candidates {entries : List (List Char × Filed)} {entry : List Char × Filed}
    (candidate : entry ∈ format.candidates entries) :
    entry ∈ entries ∧ isDocument format.idLength entry.1 = true := by
  obtain ⟨sorted, perm, -, same⟩ := candidates_spec format entries
  rw [same] at candidate
  exact List.mem_filter.mp (perm.mem_iff.mp (List.mem_of_mem_take candidate))

/-- One document for each file that is opened, each under the name of its file. -/
theorem Stocked.list_names (stocked : Stocked format folder holdings)
    {entries : List (List Char × Filed)} (reads : Reads folder entries) :
    (format.list entries).map (fun document => fileName (format.id document)) =
      (format.candidates entries).map Prod.fst := by
  have each : ∀ entry ∈ format.candidates entries, ∃ found,
      format.document? entry = some found ∧ entry.1 = fileName (format.id found) := by
    intro entry candidate
    have listed := mem_candidates candidate
    obtain ⟨found, read, name, -⟩ :=
      stocked.listed ((reads.all entry.1 entry.2).mp listed.1) listed.2
    exact ⟨found, read, name⟩
  rw [Format.list]
  generalize format.candidates entries = opened at each
  induction opened with
  | nil => rfl
  | cons entry opened ih =>
      rw [List.forall_mem_cons] at each
      obtain ⟨found, read, name⟩ := each.1
      rw [List.filterMap_cons_some read, List.map_cons, ih each.2, ← name, List.map_cons]

/-- What a listing gives of the holdings: no document twice, each as it is, and one is left out only
behind as many as are opened, none of which was saved before it. -/
structure Stocked.Listing (format : Format α) (holdings : Holdings α) (documents : List α) : Prop where
  once : (documents.map format.id).Nodup
  kept : ∀ document ∈ documents, ∃ modified,
    holdings (format.id document) = some (document, modified)
  newest : ∀ id document modified, holdings id = some (document, modified) →
    document ∈ documents ∨ documents.length = listLimit ∧ ∀ other ∈ documents, ∃ later,
      holdings (format.id other) = some (other, later) ∧ modified.getD 0 ≤ later.getD 0

theorem Stocked.list (stocked : Stocked format folder holdings)
    {entries : List (List Char × Filed)} (reads : Reads folder entries) :
    Stocked.Listing format holdings (format.list entries) := by
  obtain ⟨sorted, perm, descending, cut⟩ := candidates_spec format entries
  have names := stocked.list_names reads
  have found : ∀ document ∈ format.list entries, ∃ entry ∈ format.candidates entries,
      holdings (format.id document) = some (document, entry.2.modified) := by
    intro document member
    obtain ⟨entry, candidate, read⟩ := List.mem_filterMap.mp member
    have listed := mem_candidates candidate
    obtain ⟨same, read_, -, there⟩ :=
      stocked.listed ((reads.all entry.1 entry.2).mp listed.1) listed.2
    rw [read] at read_
    cases read_
    exact ⟨entry, candidate, there⟩
  constructor
  · have opened : ((format.candidates entries).map Prod.fst).Nodup := by
      rw [cut]
      have all : (sorted.map Prod.fst).Nodup := by
        refine (perm.map Prod.fst).nodup_iff.mpr ?_
        exact reads.once.sublist (List.filter_sublist.map Prod.fst)
      exact all.sublist ((List.take_sublist _ _).map Prod.fst)
    rw [← names, ← Function.comp_def fileName format.id, ← List.map_map] at opened
    exact List.Nodup.of_map _ opened
  · intro document member
    obtain ⟨entry, -, there⟩ := found document member
    exact ⟨entry.2.modified, there⟩
  · intro id document modified there
    obtain ⟨formed, same, bytes, file, parsed⟩ := stocked.held id document modified there
    have entry : (fileName id, (⟨some bytes, modified⟩ : Filed)) ∈ sorted := by
      refine perm.mem_iff.mpr (List.mem_filter.mpr ⟨(reads.all _ _).mpr file, ?_⟩)
      exact isDocument_fileName format.idLength_pos formed
    have read : format.document? (fileName id, ⟨some bytes, modified⟩) = some document := by
      rw [Format.document?, Option.bind_some, parsed]
      rfl
    rw [← List.take_append_drop listLimit sorted] at entry descending
    rcases List.mem_append.mp entry with opened | behind
    · left
      rw [Format.list, cut]
      exact List.mem_filterMap.mpr ⟨_, opened, read⟩
    · right
      constructor
      · have long : 0 < (sorted.drop listLimit).length := List.length_pos_of_mem behind
        have length := congrArg List.length names
        rw [List.length_map, List.length_map, cut, List.length_take] at length
        rw [List.length_drop] at long
        omega
      · intro other member
        obtain ⟨candidate, opened, later⟩ := found other member
        rw [cut] at opened
        exact ⟨_, later, (List.pairwise_append.mp descending).2.2 _ opened _ behind⟩

/-- One of the files with something else in it, or nothing that can be read. -/
def spoiled (name : List Char) (contents : Option (List UInt8)) (entry : List Char × Filed) :
    List Char × Filed :=
  if entry.1 = name then (entry.1, { entry.2 with contents }) else entry

theorem candidates_spoiled (format : Format α) (name : List Char) (contents : Option (List UInt8))
    (entries : List (List Char × Filed)) :
    format.candidates (entries.map (spoiled name contents)) =
      (format.candidates entries).map (spoiled name contents) := by
  have named (entry : List Char × Filed) : (spoiled name contents entry).1 = entry.1 := by
    rw [spoiled]
    split <;> rfl
  have dated (entry : List Char × Filed) :
      (spoiled name contents entry).2.modified = entry.2.modified := by
    rw [spoiled]
    split <;> rfl
  rw [Format.candidates, Format.candidates, List.filter_map, List.map_take]
  congr 1
  simp only [Function.comp_def, named]
  rw [sortByKey, sortByKey]
  refine (List.map_insertionSort _ _ _ _ ?_).symm
  intro first _ second _
  rw [dated, dated]

/-- A file that cannot be read any more, or holds no document, costs a listing that document. -/
theorem list_spoiled (format : Format α) {entries : List (List Char × Filed)}
    (once : (entries.map Prod.fst).Nodup) (name : List Char) {contents : Option (List UInt8)}
    (damaged : (contents.bind fun bytes => (format.parse bytes).toOption) = none) :
    ∃ lost : List α, lost.length ≤ 1 ∧
      (∀ document ∈ lost, ∃ entry ∈ entries, entry.1 = name ∧
        format.document? entry = some document) ∧
      (format.list entries).Perm (lost ++ format.list (entries.map (spoiled name contents))) := by
  have opened : ((format.candidates entries).map Prod.fst).Nodup := by
    obtain ⟨sorted, perm, -, cut⟩ := candidates_spec format entries
    rw [cut]
    have all : (sorted.map Prod.fst).Nodup := by
      refine (perm.map Prod.fst).nodup_iff.mpr ?_
      exact once.sublist (List.filter_sublist.map Prod.fst)
    exact all.sublist ((List.take_sublist _ _).map Prod.fst)
  refine ⟨((format.candidates entries).filter fun entry => entry.1 = name).filterMap
    format.document?, ?_, ?_, ?_⟩
  · have one : ((format.candidates entries).filter fun entry => entry.1 = name).length ≤ 1 := by
      have counted := List.nodup_iff_count_le_one.mp opened name
      rw [List.count, List.countP_map, List.countP_eq_length_filter] at counted
      have same : ∀ entry ∈ format.candidates entries,
          decide (entry.1 = name) = ((· == name) ∘ Prod.fst) entry :=
        fun entry _ => (beq_eq_decide entry.1 name).symm
      rw [List.filter_congr same]
      exact counted
    exact (List.length_filterMap_le _ _).trans one
  · intro document member
    obtain ⟨entry, there, read⟩ := List.mem_filterMap.mp member
    have held := List.mem_filter.mp there
    exact ⟨entry, (mem_candidates held.1).1, by simpa using held.2, read⟩
  · have rest : format.list (entries.map (spoiled name contents)) =
        ((format.candidates entries).filter fun entry => !decide (entry.1 = name)).filterMap
          format.document? := by
      rw [Format.list, candidates_spoiled, List.filterMap_map]
      generalize format.candidates entries = files
      induction files with
      | nil => rfl
      | cons entry files ih =>
          by_cases here : entry.1 = name
          · have nothing : format.document? (spoiled name contents entry) = none := by
              rw [spoiled, if_pos here]
              exact damaged
            rw [List.filter_cons_of_neg (by simpa using here),
              List.filterMap_cons_none (by exact nothing), ih]
          · have same : spoiled name contents entry = entry := by rw [spoiled, if_neg here]
            rw [List.filter_cons_of_pos (by simpa using here), List.filterMap_cons,
              List.filterMap_cons, Function.comp_apply, same, ih]
    rw [rest, Format.list, ← List.filterMap_append]
    exact ((List.filter_append_perm _ _).symm).filterMap _

end Lightweight.Store
