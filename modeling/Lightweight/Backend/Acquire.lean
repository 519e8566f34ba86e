import Lightweight.Filesystem

/-! The engine's archive, unpacked into its directory entry by entry. Each entry is a list of changes
to the disk, in their order, and why it failed, if it did. -/

namespace Lightweight.Backend

open Filesystem

inductive AcquireError where
  | escapes (path : List Component)
  | unsafeName (name : String)
  | io (context : String)
  | runtimeMissing
  | downloadFailed
deriving DecidableEq, Repr

structure Outcome where
  edits : List Edit
  failure : Option AcquireError
deriving DecidableEq

inductive TarKind where
  | directory
  | file (contents : List UInt8) (mode : UInt32)
  | symlink (target : String)
  | hardLink (source : String)
deriving DecidableEq, Repr

structure TarEntry where
  name : String
  kind : TarKind
deriving DecidableEq, Repr

/-- An entry of a zip file; one with an unsafe name has no enclosed one. -/
structure ZipEntry where
  name : String
  enclosedName : Option String
  isDir : Bool
  contents : List UInt8
deriving DecidableEq, Repr

/-- The one directory that all the names so far share, and the names to come. -/
def sharedBy : Option String → List String → Option String
  | found, [] => found
  | found, name :: names =>
      match components name with
      | .normal first :: beneath =>
          -- a file at the root is no directory around the others
          if beneath = [] ∧ name.toList.getLast? ≠ some '/' then none
          else
            match found with
            | some existing => if existing ≠ first then none else sharedBy (some existing) names
            | none => sharedBy (some first) names
      | _ => none

def commonPrefix (names : List String) : Option String := sharedBy none names

def stripPrefix (path : List Component) (shared : Option String) : List Component :=
  match shared, path with
  | some shared, .normal first :: rest => if first = shared then rest else path
  | _, _ => path

/-- The names of a path that has nothing else, dots apart. -/
def plainNames : List Component → Option (List String)
  | [] => some []
  | .normal name :: rest => (plainNames rest).map (name :: ·)
  | .curDir :: rest => plainNames rest
  | _ :: _ => none

/-- The names that lead from the root to where an entry goes. -/
def safeJoin (path : List Component) : Option (List String) :=
  (plainNames path).filter fun names => !names.isEmpty

/-- The mode that a new file has. -/
def createdMode : UInt32 := 0o644

def fill (place : Location) (contents : List UInt8) : List Edit := contents.map (.append place)

/-- What is at a place gives way, where it is no directory. -/
def replacing (fs : Filesystem) (place : Location) (changes : List Edit) : Outcome :=
  match fs.node place with
  | none => ⟨changes, none⟩
  | some .directory => ⟨[], some (.io "extracting an archive entry")⟩
  | some _ => ⟨.unlink place :: changes, none⟩

section Extract

variable (cwd : Location) (install : List Component)

/-- What unpacking an entry does, where its path leads to a place in a directory. -/
def unpack (fs : Filesystem) (target : List Component) (place : Location) : TarKind → Outcome
  | .directory =>
      match fs.node place with
      | none => ⟨[.mkdir place], none⟩
      | some _ =>
          if (fs.directoryAt cwd target).isSome then ⟨[], none⟩
          else ⟨[], some (.io "extracting an archive entry")⟩
  | .file contents mode =>
      replacing fs place (.put place (.file [] createdMode) :: fill place contents ++
        [.chmod place (mode &&& 0o777)])
  | .symlink aim =>
      if aim = "" then ⟨[], some (.io "extracting an archive entry")⟩
      else replacing fs place [.put place (.link (components aim))]
  | .hardLink source =>
      match fs.node place, fs.entryAt cwd (components source) with
      | none, some (.file contents mode) => ⟨[.put place (.file contents mode)], none⟩
      | none, some (.link aim) => ⟨[.put place (.link aim)], none⟩
      | _, _ => ⟨[], some (.io "extracting an archive entry")⟩

/-- The parents of a path below the install directory are made, and then what is in the last. -/
def within (fs : Filesystem) (names : List String) (last : Filesystem → Location → Outcome) :
    Outcome :=
  match fs.nearest cwd install names with
  | none => ⟨[], some (.io "creating an archive directory")⟩
  | some (dir, missing) =>
      let made := mkdirs dir missing
      let disk := fs.edits made
      match disk.directoryAt cwd (install ++ names.map .normal) with
      | none => ⟨made, some (.io "extracting an archive entry")⟩
      | some parent => ⟨made ++ (last disk parent).edits, (last disk parent).failure⟩

section Within

variable {cwd dir : Location} {install : List Component} {fs : Filesystem} {names missing : List String}
  {last : Filesystem → Location → Outcome}

/-- The last directory is where the path to it leads once its parents are made. -/
theorem within_eq (found : fs.nearest cwd install names = some (dir, missing)) :
    within cwd install fs names last =
      ⟨mkdirs dir missing ++ (last (fs.edits (mkdirs dir missing)) (dir ++ missing)).edits,
        (last (fs.edits (mkdirs dir missing)) (dir ++ missing)).failure⟩ := by
  obtain ⟨walked, rfl, there, free⟩ := nearest_spec found
  have made := (edits_mkdirs (directoryAt_iff.mp there).2 there free).2
  rw [List.append_assoc, ← List.map_append] at made
  simp only [within, found, made]

theorem within_blocked (blocked : fs.nearest cwd install names = none) :
    (within cwd install fs names last).edits = [] := by
  simp only [within, blocked]

end Within

def extractTarEntry (shared : Option String) (entry : TarEntry) (fs : Filesystem) : Outcome :=
  let path := stripPrefix (components entry.name) shared
  -- the directory around the others
  if path = [] then ⟨[], none⟩
  else
    match safeJoin path with
    | none => ⟨[], some (.escapes path)⟩
    | some names =>
        within cwd install fs names.dropLast fun disk parent =>
          unpack cwd disk (install ++ names.map .normal) (parent ++ [names.getLastD ""]) entry.kind

/-- The file that `File::create` opens, emptied where there is one. -/
def createFile (fs : Filesystem) (target : List Component) (place : Location) : Option Edit × Location :=
  match fs.node place with
  | none => (some (.put place (.file [] createdMode)), place)
  | some _ =>
      match fs.fileAt cwd target with
      | none => (none, place)
      | some found =>
          match fs.node found with
          | some (.file _ mode) => (some (.put found (.file [] mode)), found)
          | _ => (none, place)

def extractZipEntry (shared : Option String) (entry : ZipEntry) (fs : Filesystem) : Outcome :=
  match entry.enclosedName with
  | none => ⟨[], some (.unsafeName entry.name)⟩
  | some raw =>
      let path := stripPrefix (components raw) shared
      if path = [] then ⟨[], none⟩
      else
        match safeJoin path with
        | none => ⟨[], some (.escapes path)⟩
        | some names =>
            if entry.isDir then within cwd install fs names fun _ _ => ⟨[], none⟩
            else
              within cwd install fs names.dropLast fun disk parent =>
                match createFile cwd disk (install ++ names.map .normal)
                    (parent ++ [names.getLastD ""]) with
                | (none, _) => ⟨[], some (.io "writing an archive entry")⟩
                | (some change, place) => ⟨change :: fill place entry.contents, none⟩

end Extract

inductive Archive where
  | tarGz (entries : List TarEntry)
  | zip (entries : List ZipEntry)
deriving DecidableEq, Repr

/-- What is to be done for each entry, one after the other. -/
def Archive.extracts (cwd : Location) (install : List Component) :
    Archive → List (Filesystem → Outcome)
  | .tarGz entries =>
      entries.map (extractTarEntry cwd install (commonPrefix (entries.map TarEntry.name)))
  | .zip entries =>
      entries.map (extractZipEntry cwd install (commonPrefix (entries.filterMap ZipEntry.enclosedName)))

end Lightweight.Backend
