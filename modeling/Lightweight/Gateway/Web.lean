import Mathlib.Data.List.Induction
import Lightweight.Filesystem
import Lightweight.Store.Documents

/-! The panel's own files as a gateway and a router serve them: which of the files below the web
root a request path names, what a path without a file is answered with, and that nothing outside
the web root plays a part. -/

namespace Lightweight.Gateway.Web

open Lightweight (Component Location Node Filesystem component components)
open Lightweight.Store (stemAndExtension)

/-- The document served for a route the client renders itself. -/
def index : String := "index.html"

/-- A path as it is opened: its parts, and whether it is written so that only a directory can be
meant, with a separator or a dot at its end. -/
structure PathBuf where
  parts : List Component
  directory : Bool
deriving DecidableEq, Repr

/-- What a client gets. -/
inductive Response where
  | notFound
  | ok (body : List UInt8) (contentType cacheControl : String)
deriving DecidableEq, Repr

def joinIndex (root : List Component) : PathBuf := ⟨root ++ [.normal index], false⟩

def isNormal : Component → Bool
  | .normal _ => true
  | _ => false

/-- Whether the last piece of a text is one that `components` leaves out. -/
def endsAsDirectory (text : String) : Bool :=
  match (text.toList.splitOn '/').getLast? with
  | some [] | some ['.'] => true
  | _ => false

/-- Turn a request path into a path under `root`, or nothing. -/
def resolve (root : List Component) (requested : String) : Option PathBuf :=
  let trimmed := String.ofList (requested.toList.dropWhile (· = '/'))
  if trimmed.toList = [] then some (joinIndex root)
  else if trimmed.toList.contains '\x00' then none
  else if (components trimmed).any fun part => !isNormal part then none
  else some ⟨root ++ components trimmed, endsAsDirectory trimmed⟩

/-- Whether a path with no file behind it should be answered with the document. -/
def looksLikeARoute (requested : String) : Bool :=
  match (requested.toList.splitOn '/').getLast? with
  | none => true
  | some last => !last.contains '.'

/-- The content types of the extensions that a bundler emits. -/
def contentTypes : List (List String × String) :=
  [(["html"], "text/html; charset=utf-8"),
   (["js", "mjs"], "text/javascript; charset=utf-8"),
   (["css"], "text/css; charset=utf-8"),
   (["json", "map"], "application/json; charset=utf-8"),
   (["svg"], "image/svg+xml"),
   (["png"], "image/png"),
   (["jpg", "jpeg"], "image/jpeg"),
   (["webp"], "image/webp"),
   (["avif"], "image/avif"),
   (["gif"], "image/gif"),
   (["ico"], "image/x-icon"),
   (["woff2"], "font/woff2"),
   (["woff"], "font/woff"),
   (["ttf"], "font/ttf"),
   (["wasm"], "application/wasm"),
   (["txt"], "text/plain; charset=utf-8"),
   (["webmanifest"], "application/manifest+json")]

/-- `Path::file_name`. -/
def PathBuf.fileName (path : PathBuf) : Option String :=
  match path.parts.getLast? with
  | some (.normal name) => some name
  | _ => none

/-- The content type for a file, by extension. -/
def contentType (fileName : Option String) : String :=
  let extension := (fileName.bind fun name => (stemAndExtension name.toList).2).getD []
  let lowered := String.ofList (extension.map Char.toLower)
  match contentTypes.find? fun row => row.1.contains lowered with
  | some row => row.2
  | none => "application/octet-stream"

/-- The document names the hashed assets and is never cached. -/
def cacheControl (fileName : Option String) : String :=
  if fileName = some index then "no-cache" else "public, max-age=31536000, immutable"

/-- What the file at a place holds. -/
def contentsAt (fs : Filesystem) (place : Location) : Option (List UInt8) :=
  match fs.node place with
  | some (.file contents _) => some contents
  | _ => none

/-- What the file holds that a path leads to. -/
def PathBuf.contents (path : PathBuf) (fs : Filesystem) (cwd : Location) : Option (List UInt8) :=
  if path.directory then none else (fs.fileAt cwd path.parts).bind (contentsAt fs)

/-- Read a file and answer with it. -/
def send (fs : Filesystem) (cwd : Location) (path : PathBuf) : Response :=
  match path.contents fs cwd with
  | some bytes => .ok bytes (contentType path.fileName) (cacheControl path.fileName)
  | none => .notFound

/-- Serve a file from `root`. -/
def serveRoot (fs : Filesystem) (cwd : Location) (root : List Component) (requested : String) :
    Response :=
  let document := if looksLikeARoute requested then send fs cwd (joinIndex root) else .notFound
  match resolve root requested with
  | some path => if (path.contents fs cwd).isSome then send fs cwd path else document
  | none => document

/-- Serve a file from the configured web root. -/
def serve (fs : Filesystem) (cwd : Location) (webRoot : Option (List Component))
    (requested : String) : Response :=
  match webRoot with
  | none => .notFound
  | some root => serveRoot fs cwd root requested

/-- A path that belongs to a router's API surface. -/
def isApiPath (path : String) : Bool :=
  ["/api", "/v1"].any fun head =>
    path.toList = head.toList || (head.toList ++ ['/']).isPrefixOf path.toList

/-- What a router answers that has no endpoint for a path: an answer of the panel, or its own JSON
`not_found`. -/
def fallback (fs : Filesystem) (cwd : Location) (webRoot : Option (List Component))
    (requested : String) : Option Response :=
  match webRoot with
  | some root => if isApiPath requested then none else some (serveRoot fs cwd root requested)
  | none => none

/-! The web root as what it is for: a site of files under names. -/

/-- What each file of a site holds, by the names that lead to it. -/
abbrev Site := List String → Option (List UInt8)

/-- The files below a directory. -/
def site (fs : Filesystem) (dir : Location) : Site := fun names => contentsAt fs (dir ++ names)

/-- There are no links below a directory. -/
def Unlinked (fs : Filesystem) (dir : Location) : Prop :=
  ∀ names aim, fs.node (dir ++ names) ≠ some (.link aim)

/-- The names that a request path is made of, where it names a file of the site at all. -/
def namesOf (requested : String) : Option (List String) :=
  (resolve [] requested).bind fun path =>
    if path.directory then none
    else some (path.parts.filterMap fun part => match part with | .normal name => some name | _ => none)

/-- A file of a site under its own type. -/
def Site.file (site : Site) (names : List String) : Option Response :=
  (site names).map fun bytes =>
    .ok bytes (contentType names.getLast?) (cacheControl names.getLast?)

/-- The file that a path names, else the document where the path may be a route. -/
def Site.answer (site : Site) (requested : String) : Response :=
  (((namesOf requested).bind site.file).or
    (if looksLikeARoute requested then site.file [index] else none)).getD .notFound

section Below

variable {fs : Filesystem} {cwd dir : Location} {root : List Component} {names : List String}

/-- A walk along names that are no links gets to the last of them, where it gets anywhere. -/
theorem walk_names (unlinked : Unlinked fs dir) (names : List String) :
    fs.walk dir (names.map .normal) = .missing ∨ fs.walk dir (names.map .normal) = .blocked ∨
      fs.walk dir (names.map .normal) = .arrived (dir ++ names) := by
  induction names generalizing dir with
  | nil => simp [Filesystem.walk]
  | cons name rest ih =>
      have deeper : Unlinked fs (dir ++ [name]) := by
        intro more aim
        simpa using unlinked (name :: more) aim
      have onward := ih deeper
      rw [List.append_assoc, List.singleton_append] at onward
      rw [List.map_cons, Filesystem.walk]
      by_cases isDir : fs.node dir = some .directory
      · rw [if_pos isDir]
        cases found : fs.node (dir ++ [name]) with
        | none => simp only [true_or]
        | some node =>
            cases node with
            | directory => simpa only [found] using onward
            | file contents mode => simpa only [found] using onward
            | link aim => exact absurd found (by simpa using unlinked [name] aim)
      · rw [if_neg isDir]
        exact .inr (.inl rfl)

/-- Everything on the way down to a file is a directory. -/
theorem directory_above {names more : List String}
    (there : fs.node (dir ++ names ++ more) ≠ none) (deeper : more ≠ []) :
    fs.node (dir ++ names) = some .directory := by
  induction more using List.reverseRecOn with
  | nil => exact absurd rfl deeper
  | append_singleton front last ih =>
      have here : fs.node (dir ++ names ++ front ++ [last]) ≠ none := by
        simpa only [List.append_assoc] using there
      have above := fs.inside _ _ here
      by_cases flat : front = []
      · simpa [flat] using above
      · exact ih (by rw [above]; simp) flat

/-- A walk along the names of something that is there arrives. -/
theorem walk_names_arrives (unlinked : Unlinked fs dir) (below : names ≠ [])
    (there : fs.node (dir ++ names) ≠ none) :
    fs.walk dir (names.map .normal) = .arrived (dir ++ names) := by
  induction names generalizing dir with
  | nil => exact absurd rfl below
  | cons name rest ih =>
      have deeper : Unlinked fs (dir ++ [name]) := by
        intro more aim
        simpa using unlinked (name :: more) aim
      have inner : fs.node (dir ++ [name] ++ rest) ≠ none := by simpa using there
      have isDir : fs.node dir = some .directory := by
        have above : fs.node (dir ++ [] ++ (name :: rest)) ≠ none := by simpa using there
        simpa using directory_above above (by simp)
      have onward : fs.walk (dir ++ [name]) (rest.map .normal) = .arrived (dir ++ name :: rest) := by
        by_cases last : rest = []
        · simp [last, Filesystem.walk]
        · simpa using ih deeper last inner
      rw [List.map_cons, Filesystem.walk, if_pos isDir]
      cases found : fs.node (dir ++ [name]) with
      | none =>
          by_cases last : rest = []
          · exact absurd found (by simpa [last] using inner)
          · rw [directory_above inner last] at found
            cases found
      | some node =>
          cases node with
          | directory => simpa only [found] using onward
          | file contents mode => simpa only [found] using onward
          | link aim => exact absurd found (by simpa using unlinked [name] aim)

theorem resolve_names (unlinked : Unlinked fs dir) (names : List String) (links : Nat) :
    fs.resolve links dir (names.map .normal) = .ok (dir ++ names) ∧
        fs.walk dir (names.map .normal) = .arrived (dir ++ names) ∨
      ∃ refusal, fs.resolve links dir (names.map .normal) = .error refusal ∧
        fs.walk dir (names.map .normal) ≠ .arrived (dir ++ names) := by
  rcases walk_names unlinked names with missing | blocked | arrived
  · have refused : fs.resolve links dir (names.map .normal) = .error .notFound := by
      cases links <;> simp only [Filesystem.resolve, missing]
    exact .inr ⟨.notFound, refused, by simp [missing]⟩
  · have refused : fs.resolve links dir (names.map .normal) = .error .notADirectory := by
      cases links <;> simp only [Filesystem.resolve, blocked]
    exact .inr ⟨.notADirectory, refused, by simp [blocked]⟩
  · have reached : fs.resolve links dir (names.map .normal) = .ok (dir ++ names) := by
      cases links <;> simp only [Filesystem.resolve, arrived]
    exact .inl ⟨reached, arrived⟩

/-- A path into the web root opens exactly the file of the site that its names lead to. -/
theorem contents_names (opened : fs.directoryAt cwd root = some dir)
    (unlinked : Unlinked fs dir) :
    (fs.fileAt cwd (root ++ names.map .normal)).bind (contentsAt fs) = site fs dir names := by
  have rooted := Filesystem.directoryAt_iff.mp opened
  rcases Filesystem.resolve_append rooted.1 (names.map .normal) with ⟨left, onward⟩
  rcases resolve_names unlinked names left with ⟨reached, arrived⟩ | ⟨refusal, stopped, lost⟩
  · by_cases isDir : fs.node (dir ++ names) = some .directory
    · simp [Filesystem.fileAt, onward, reached, isDir, site, contentsAt]
    · simp [Filesystem.fileAt, onward, reached, isDir, site]
  · have nothing : fs.node (dir ++ names) = none := by
      by_contra there
      by_cases top : names = []
      · exact lost (by simp [top, Filesystem.walk])
      · exact lost (walk_names_arrives unlinked top there)
    simp [Filesystem.fileAt, onward, stopped, site, contentsAt, nothing]

/-- What a path of names below the web root is answered with. -/
theorem send_names (opened : fs.directoryAt cwd root = some dir) (unlinked : Unlinked fs dir)
    (below : names ≠ []) (directory : Bool) :
    send fs cwd ⟨root ++ names.map .normal, directory⟩ =
        (if directory then none else (site fs dir).file names).getD .notFound ∧
      (PathBuf.contents ⟨root ++ names.map .normal, directory⟩ fs cwd).isSome =
        (if directory then none else (site fs dir).file names).isSome := by
  have named : PathBuf.fileName ⟨root ++ names.map .normal, directory⟩ = names.getLast? := by
    rcases List.eq_nil_or_concat names with empty | ⟨front, last, concat⟩
    · exact absurd empty below
    · simp [concat, PathBuf.fileName, ← List.append_assoc]
  have held : PathBuf.contents ⟨root ++ names.map .normal, directory⟩ fs cwd =
      if directory then none else site fs dir names := by
    rw [PathBuf.contents, ← contents_names opened unlinked]
  rw [send, named, held]
  cases directory with
  | true => exact ⟨rfl, rfl⟩
  | false =>
      cases found : site fs dir names with
      | none => simp [Site.file, found]
      | some bytes => simp [Site.file, found]

end Below

/-! Which names a request path is made of. -/

section Paths

theorem resolve_root (root : List Component) (requested : String) :
    resolve root requested =
      (resolve [] requested).map fun path => ⟨root ++ path.parts, path.directory⟩ := by
  simp only [resolve]
  split_ifs
  · rw [Option.map_some, joinIndex, joinIndex, List.nil_append]
  · rw [Option.map_none]
  · rw [Option.map_none]
  · rw [Option.map_some, List.nil_append]

theorem eq_map_normal {parts : List Component} (normal : ∀ part ∈ parts, isNormal part = true) :
    ∃ names : List String, parts = names.map .normal := by
  induction parts with
  | nil => exact ⟨[], rfl⟩
  | cons part rest ih =>
      rcases ih fun other member => normal other (List.mem_cons_of_mem part member)
        with ⟨names, rest_eq⟩
      cases part with
      | normal name => exact ⟨name :: names, by rw [rest_eq, List.map_cons]⟩
      | rootDir => cases normal .rootDir List.mem_cons_self
      | curDir => cases normal .curDir List.mem_cons_self
      | parentDir => cases normal .parentDir List.mem_cons_self

/-- Only the empty path and separators alone have no parts. -/
theorem components_ne_nil {text : String} (written : text.toList ≠ [])
    (relative : text.toList.head? ≠ some '/') : components text ≠ [] := by
  intro none
  have joined : List.intercalate ['/'] (text.toList.splitOn '/') = text.toList :=
    List.intercalate_splitOn '/'
  rw [components, if_neg relative] at none
  cases pieces : text.toList.splitOn '/' with
  | nil =>
      rw [pieces] at joined
      exact written joined.symm
  | cons piece rest =>
      rw [pieces] at joined none
      have skipped := (List.append_eq_nil_iff.mp none).2
      have undotted : piece ≠ ['.'] := by
        intro dot
        simp [dot] at none
      have unwritten : piece = [] := by
        by_contra named
        rw [List.filterMap_cons] at skipped
        cases said : component piece with
        | some part => simp [said] at skipped
        | none =>
            unfold component at said
            split at said
            · exact named rfl
            · exact undotted rfl
            · cases said
            · cases said
      subst unwritten
      cases rest with
      | nil => exact written (by simpa using joined.symm)
      | cons next more =>
          have headed : text.toList.head? = some '/' := by
            rw [← joined]
            simp [List.intercalate, List.intersperse]
          exact relative headed

/-- A path that resolves is made of names, and of one at least. -/
theorem resolve_normal {requested : String} {path : PathBuf}
    (resolved : resolve [] requested = some path) :
    ∃ names : List String, names ≠ [] ∧ path.parts = names.map .normal := by
  simp only [resolve, List.nil_append] at resolved
  split_ifs at resolved with empty nul odd
  · cases resolved
    exact ⟨[index], by simp, rfl⟩
  · cases resolved
    have normal : ∀ part ∈ components (String.ofList (requested.toList.dropWhile (· = '/'))),
        isNormal part = true := by
      intro part member
      by_contra other
      exact odd (List.any_eq_true.mpr ⟨part, member, by simpa using other⟩)
    rcases eq_map_normal normal with ⟨names, parts⟩
    have some : components (String.ofList (requested.toList.dropWhile (· = '/'))) ≠ [] := by
      apply components_ne_nil empty
      rw [String.toList_ofList]
      intro headed
      have stops := List.head?_dropWhile_not (· = '/') requested.toList
      simp [headed] at stops
    rw [parts] at some
    exact ⟨names, fun top => some (by simp [top]), parts⟩

/-- A request path of some names resolves to their path, and to no other. -/
theorem namesOf_eq (requested : String) :
    resolve [] requested = none ∧ namesOf requested = none ∨
      ∃ names directory, names ≠ [] ∧
        resolve [] requested = some ⟨names.map .normal, directory⟩ ∧
        namesOf requested = if directory then none else some names := by
  cases resolved : resolve [] requested with
  | none => exact .inl ⟨rfl, by rw [namesOf, resolved]; rfl⟩
  | some path =>
      rcases resolve_normal resolved with ⟨names, some, parts⟩
      have same : path = ⟨names.map .normal, path.directory⟩ := by rw [← parts]
      have back : (names.map Component.normal).filterMap (fun part =>
          match part with | .normal name => Option.some name | _ => none) = names := by
        rw [List.filterMap_map]
        exact List.filterMap_some
      refine .inr ⟨names, path.directory, some, congrArg Option.some same, ?_⟩
      rw [namesOf, resolved, Option.bind_some, parts, back]

/-- A name that a directory can hold. -/
def Plain (name : String) : Prop :=
  name ≠ "" ∧ name ≠ "." ∧ name ≠ ".." ∧ '/' ∉ name.toList ∧ '\x00' ∉ name.toList

instance (name : String) : Decidable (Plain name) :=
  inferInstanceAs (Decidable (name ≠ "" ∧ name ≠ "." ∧ name ≠ ".." ∧ '/' ∉ name.toList ∧
    '\x00' ∉ name.toList))

/-- The path under which a page asks for a file of its site. -/
def pathOf (names : List String) : String :=
  String.ofList ('/' :: List.intercalate ['/'] (names.map String.toList))

theorem component_plain {name : String} (plain : Plain name) :
    component name.toList = some (.normal name) := by
  rcases plain with ⟨written, undotted, below, _, _⟩
  have empty : name.toList ≠ [] := by simpa using written
  have dot : name.toList ≠ ['.'] := by
    intro same
    exact undotted (String.toList_injective same)
  have dots : name.toList ≠ ['.', '.'] := by
    intro same
    exact below (String.toList_injective same)
  unfold component
  split
  · rename_i same
    exact absurd same empty
  · rename_i same
    exact absurd same dot
  · rename_i same
    exact absurd same dots
  · rw [String.ofList_toList]

theorem filterMap_component {names : List String} (plain : ∀ name ∈ names, Plain name) :
    (names.map String.toList).filterMap component = names.map .normal := by
  induction names with
  | nil => rfl
  | cons name rest ih =>
      have onward := ih fun other member => plain other (List.mem_cons_of_mem name member)
      rw [List.map_cons, List.filterMap_cons, component_plain (plain name List.mem_cons_self),
        onward, List.map_cons]

theorem not_mem_intercalate {c : Char} (other : c ≠ '/') {pieces : List (List Char)}
    (absent : ∀ piece ∈ pieces, c ∉ piece) : c ∉ List.intercalate ['/'] pieces := by
  induction pieces with
  | nil => simp
  | cons piece rest ih =>
      have here := absent piece List.mem_cons_self
      have onward := ih fun later member => absent later (List.mem_cons_of_mem piece member)
      by_cases last : rest = []
      · simpa [last] using here
      · rw [List.intercalate_cons_of_ne_nil last]
        simp [here, other, onward]

/-- Names in a row with separators between are read back as they are. -/
theorem components_intercalate {names : List String} (below : names ≠ [])
    (plain : ∀ name ∈ names, Plain name) {text : List Char}
    (written : text = List.intercalate ['/'] (names.map String.toList)) :
    components (String.ofList text) = names.map .normal ∧
      endsAsDirectory (String.ofList text) = false ∧ text.head? ≠ some '/' ∧ text ≠ [] := by
  have pieces : text.splitOn '/' = names.map String.toList := by
    rw [written]
    apply List.splitOn_intercalate '/'
    · intro piece member
      rcases List.mem_map.mp member with ⟨name, named, rfl⟩
      exact (plain name named).2.2.2.1
    · simpa using below
  have parts := filterMap_component plain
  have relative : text.head? ≠ some '/' ∧ text ≠ [] := by
    rcases names with _ | ⟨name, rest⟩
    · exact absurd rfl below
    have first := plain name List.mem_cons_self
    cases spelled : name.toList with
    | nil => exact absurd (by simpa using spelled) first.1
    | cons c more =>
        rw [List.map_cons, spelled, List.intercalate_cons_cons_left] at written
        have other : c ≠ '/' := by
          intro same
          exact first.2.2.2.1 (by rw [spelled, same]; exact List.mem_cons_self)
        rw [written]
        exact ⟨by simpa using other, by simp⟩
  have undotted : (names.map String.toList).head? ≠ some ['.'] := by
    intro dotted
    rw [List.head?_map, Option.map_eq_some_iff] at dotted
    rcases dotted with ⟨name, head, dot⟩
    exact (plain name (List.mem_of_mem_head? head)).2.1 (String.toList_injective dot)
  have ended : endsAsDirectory (String.ofList text) = false := by
    rw [endsAsDirectory, String.toList_ofList, pieces, List.getLast?_map]
    cases last : names.getLast? with
    | none => rfl
    | some name =>
        have named := plain name (List.mem_of_getLast? last)
        simp only [Option.map_some]
        split
        · rename_i empty
          exact absurd (by simpa using empty) named.1
        · rename_i dot
          exact absurd (String.toList_injective (Option.some.inj dot)) named.2.1
        · rfl
  refine ⟨?_, ended, relative⟩
  rw [components, String.toList_ofList, pieces, parts, if_neg relative.1, if_neg undotted]
  rfl

/-- Every file of a site can be asked for. -/
theorem namesOf_pathOf {names : List String} (below : names ≠ [])
    (plain : ∀ name ∈ names, Plain name) : namesOf (pathOf names) = some names := by
  have read := components_intercalate below plain rfl
  have unended : '\x00' ∉ List.intercalate ['/'] (names.map String.toList) := by
    apply not_mem_intercalate (by decide)
    intro piece member
    rcases List.mem_map.mp member with ⟨name, named, rfl⟩
    exact (plain name named).2.2.2.2
  have trimmed : (pathOf names).toList.dropWhile (· = '/') =
      List.intercalate ['/'] (names.map String.toList) := by
    rw [pathOf, String.toList_ofList, List.dropWhile_cons_of_pos (by simp)]
    cases spelled : List.intercalate ['/'] (names.map String.toList) with
    | nil => rfl
    | cons c more =>
        rw [spelled] at read
        rw [List.dropWhile_cons_of_neg]
        simpa using read.2.2.1
  have normal : (names.map Component.normal).any (fun part => !isNormal part) = false := by
    simp [isNormal]
  rw [namesOf, resolve]
  simp only [trimmed, String.toList_ofList, read.1, read.2.1, normal, if_neg read.2.2.2,
    List.contains_eq_mem, decide_eq_true_eq, if_neg unended]
  simp

end Paths

/-- A web root without links answers as the site of the files below it. -/
theorem serveRoot_eq {fs : Filesystem} {cwd dir : Location} {root : List Component}
    (opened : fs.directoryAt cwd root = some dir) (unlinked : Unlinked fs dir)
    (requested : String) : serveRoot fs cwd root requested = (site fs dir).answer requested := by
  have below : [index] ≠ [] := by simp
  have document : send fs cwd (joinIndex root) = ((site fs dir).file [index]).getD .notFound :=
    (send_names opened unlinked below false).1
  rw [serveRoot, Site.answer, resolve_root]
  rcases namesOf_eq requested with ⟨refused, unnamed⟩ | ⟨names, directory, some, path, named⟩
  · rw [refused, unnamed]
    cases looksLikeARoute requested with
    | true => simpa using document
    | false => rfl
  · have sent := send_names opened unlinked some directory
    rw [path, named]
    simp only [Option.map_some, sent.1, sent.2]
    cases directory with
    | true =>
        cases looksLikeARoute requested with
        | true => simpa using document
        | false => rfl
    | false =>
        cases found : (site fs dir).file names with
        | some answer => simp [found]
        | none =>
            cases looksLikeARoute requested with
            | true => simpa [found] using document
            | false => simp [found]

/-- Two web roots that hold the same files are answered from alike, whatever else is in either
filesystem and wherever in it they are: no request path leads out of the web root. -/
theorem panel_confined {fs later : Filesystem} {cwd here dir place : Location}
    {root path : List Component} (opened : fs.directoryAt cwd root = some dir)
    (reopened : later.directoryAt here path = some place) (unlinked : Unlinked fs dir)
    (plain : Unlinked later place) (same : site fs dir = site later place) (requested : String) :
    serveRoot fs cwd root requested = serveRoot later here path requested := by
  rw [serveRoot_eq opened unlinked, serveRoot_eq reopened plain, same]

/-- A disk to which no links are written has none. -/
theorem unlinked_edits {changes : List Edit}
    (plain : ∀ change ∈ changes, ∀ place aim, change ≠ .put place (.link aim)) (dir : Location) :
    Unlinked (Filesystem.bare.edits changes) dir := by
  have bare : ∀ place aim, Filesystem.bare.node place ≠ some (.link aim) := by
    intro place aim
    by_cases top : place = [] <;> simp [Filesystem.bare, top]
  rw [Filesystem.edits]
  generalize Filesystem.bare = fs at bare
  intro names aim
  induction changes generalizing fs with
  | nil => exact bare (dir ++ names) aim
  | cons change rest ih =>
      apply ih (fun other member => plain other (List.mem_cons_of_mem change member))
      intro place target
      exact Filesystem.edit_unlinked (plain change List.mem_cons_self) (bare place) target

def bundle : List Edit :=
  [.mkdir ["web"], .put ["web", "index.html"] (.file [60] 0o644), .mkdir ["web", "assets"],
    .put ["web", "assets", "main.js"] (.file [59] 0o644)]

/-- A file beside the web root makes no difference, nor where the gateway was started. -/
theorem panel_confined_beside :
    serveRoot (Filesystem.bare.edits bundle) ["web"] [] "/../passwd" =
      serveRoot (Filesystem.bare.edits (bundle ++ [.put ["passwd"] (.file [9] 0o600)])) []
        [.rootDir, .normal "web"] "/../passwd" := by
  have plain : ∀ change ∈ bundle ++ [.put ["passwd"] (.file [9] 0o600)],
      ∀ place aim, change ≠ .put place (.link aim) := by
    simp [bundle]
  have opened : (Filesystem.bare.edits bundle).directoryAt ["web"] [] = some ["web"] := by decide
  have reopened : (Filesystem.bare.edits (bundle ++ [.put ["passwd"] (.file [9] 0o600)])).directoryAt
      [] [.rootDir, .normal "web"] = some ["web"] := by decide
  apply panel_confined opened reopened
  · exact unlinked_edits (fun change member => plain change (List.mem_append_left _ member)) _
  · exact unlinked_edits plain _
  · funext names
    have apart : ["web"] ++ names ≠ (Edit.put ["passwd"] (.file [9] 0o600)).place := by
      simp [Edit.place]
    have same : (Filesystem.bare.edits (bundle ++ [.put ["passwd"] (.file [9] 0o600)])).node
        (["web"] ++ names) = (Filesystem.bare.edits bundle).node (["web"] ++ names) := by
      rw [Filesystem.edits, List.foldl_append, List.foldl_cons, List.foldl_nil]
      exact Filesystem.node_edit_of_ne apart
    rw [site, site, contentsAt, contentsAt, same]

/-- Every file below the web root is served under its own path and with its own type; what is
served is such a file, or the document at a path whose last segment has no dot; and a path that
names no file and has a dot there is not found. -/
theorem panel_served {fs : Filesystem} {cwd dir : Location} {root : List Component}
    (opened : fs.directoryAt cwd root = some dir) (unlinked : Unlinked fs dir) :
    (∀ names bytes, names ≠ [] → (∀ name ∈ names, Plain name) →
      site fs dir names = some bytes →
      serveRoot fs cwd root (pathOf names) =
        .ok bytes (contentType names.getLast?) (cacheControl names.getLast?)) ∧
    (∀ requested bytes type directive,
      serveRoot fs cwd root requested = .ok bytes type directive →
      ∃ names, site fs dir names = some bytes ∧ type = contentType names.getLast? ∧
        directive = cacheControl names.getLast? ∧
        (namesOf requested = some names ∨ looksLikeARoute requested = true ∧ names = [index])) ∧
    (∀ requested, looksLikeARoute requested = false →
      (∀ names, namesOf requested = some names → site fs dir names = none) →
      serveRoot fs cwd root requested = .notFound) := by
  refine ⟨?_, ?_, ?_⟩
  · intro names bytes below plain held
    rw [serveRoot_eq opened unlinked, Site.answer, namesOf_pathOf below plain]
    simp [Site.file, held]
  · intro requested bytes type directive answered
    rw [serveRoot_eq opened unlinked, Site.answer] at answered
    have told : ∀ names, (site fs dir).file names = some (.ok bytes type directive) →
        site fs dir names = some bytes ∧ type = contentType names.getLast? ∧
          directive = cacheControl names.getLast? := by
      intro names filed
      rcases Option.map_eq_some_iff.mp filed with ⟨held, found, same⟩
      cases same
      exact ⟨found, rfl, rfl⟩
    cases named : (namesOf requested).bind (site fs dir).file with
    | some answer =>
        rcases Option.bind_eq_some_iff.mp named with ⟨names, spelled, filed⟩
        have same : answer = .ok bytes type directive := by simpa [named] using answered
        rcases told names (same ▸ filed) with ⟨held, typed, directed⟩
        exact ⟨names, held, typed, directed, .inl spelled⟩
    | none =>
        cases route : looksLikeARoute requested with
        | false => simp [named, route] at answered
        | true =>
            cases filed : (site fs dir).file [index] with
            | none => simp [named, route, filed] at answered
            | some answer =>
                have same : answer = .ok bytes type directive := by
                  simpa [named, route, filed] using answered
                rcases told [index] (same ▸ filed) with ⟨held, typed, directed⟩
                exact ⟨[index], held, typed, directed, .inr ⟨rfl, rfl⟩⟩
  · intro requested asset missing
    have unnamed : (namesOf requested).bind (site fs dir).file = none := by
      cases spelled : namesOf requested with
      | none => rfl
      | some names => simp [Site.file, missing names spelled]
    rw [serveRoot_eq opened unlinked, Site.answer, unnamed, asset]
    rfl

theorem panel_served_script :
    serveRoot (Filesystem.bare.edits bundle) [] [.rootDir, .normal "web"] "/assets/main.js" =
      .ok [59] "text/javascript; charset=utf-8" "public, max-age=31536000, immutable" := by
  have opened : (Filesystem.bare.edits bundle).directoryAt [] [.rootDir, .normal "web"] =
      some ["web"] := by decide
  have unlinked : Unlinked (Filesystem.bare.edits bundle) ["web"] :=
    unlinked_edits (by simp [bundle]) _
  have served := (panel_served opened unlinked).1 ["assets", "main.js"] [59] (by simp)
    (by decide) (by decide)
  exact served

end Lightweight.Gateway.Web
