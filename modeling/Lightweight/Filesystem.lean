import Mathlib.Logic.Function.Basic

/-! Directories, files and links below one root; paths that are walked through links; and changes
of one place each. -/

namespace Lightweight

/-- A part of a path. -/
inductive Component where
  | rootDir
  | curDir
  | parentDir
  | normal (name : String)
deriving DecidableEq, Repr

/-- What one piece of a path says; nothing where it is empty or a dot. -/
def component : List Char → Option Component
  | [] | ['.'] => none
  | ['.', '.'] => some .parentDir
  | name => some (.normal (String.ofList name))

/-- The parts of a path as it is written. A dot counts in first place alone. -/
def components (text : String) : List Component :=
  let pieces := text.toList.splitOn '/'
  let first : List Component :=
    if text.toList.head? = some '/' then [.rootDir]
    else if pieces.head? = some ['.'] then [.curDir]
    else []
  first ++ pieces.filterMap component

/-- A place, by the names that lead to it from the root. -/
abbrev Location := List String

inductive Node where
  | directory
  | file (contents : List UInt8) (mode : UInt32)
  | link (target : List Component)
deriving DecidableEq, Repr

/-- What a file holds and its mode play no part in where a path leads. -/
def Node.shape : Node → Node
  | .file _ _ => .file [] 0
  | node => node

def Node.modeless : Node → Node
  | .file contents _ => .file contents 0
  | node => node

/-- What is at each place, and the names in it. The root is a directory, and nothing is in what is
not one. -/
structure Filesystem where
  node : Location → Option Node
  listing : Location → List String
  root : node [] = some .directory
  inside : ∀ place name, node (place ++ [name]) ≠ none → node place = some .directory
  listed : ∀ place name, name ∈ listing place ↔ node (place ++ [name]) ≠ none

namespace Filesystem

variable (fs : Filesystem)

/-- Nothing but a root. -/
def bare : Filesystem where
  node place := if place = [] then some .directory else none
  listing _ := []
  root := rfl
  inside place name there := by simp at there
  listed place name := by simp

/-- Whether a place may be given to something else: it is no directory, and it is in one. -/
def Free (place : Location) : Prop :=
  fs.node place ≠ some .directory ∧ fs.node place.dropLast = some .directory

instance (place : Location) : Decidable (fs.Free place) :=
  inferInstanceAs (Decidable (_ ∧ _))

theorem Free.eq_concat {fs : Filesystem} {place : Location} (free : fs.Free place) :
    ∃ dir name, place = dir ++ [name] := by
  rcases List.eq_nil_or_concat place with rfl | ⟨dir, name, rfl⟩
  · exact absurd fs.root free.1
  · exact ⟨dir, name, List.concat_eq_append⟩

/-- The names in a directory once one of them is there, or not. -/
def relist (names : List String) (name : String) (there : Bool) : List String :=
  if there then (if name ∈ names then names else names ++ [name]) else names.filter (· ≠ name)

theorem mem_relist {names : List String} {name other : String} {there : Bool} :
    other ∈ relist names name there ↔ if other = name then there = true else other ∈ names := by
  unfold relist
  cases there
  · by_cases same : other = name <;> simp [same]
  · by_cases same : other = name
    · subst same
      by_cases old : other ∈ names <;> simp [old]
    · by_cases old : name ∈ names <;> simp [old, same]

/-- What is at a place becomes something else, where that may be. -/
def set (place : Location) (held : Option Node) : Filesystem :=
  if free : fs.Free place then
    { node := Function.update fs.node place held
      listing := Function.update fs.listing place.dropLast
        (relist (fs.listing place.dropLast) (place.getLastD "") held.isSome)
      root := by
        rw [Function.update_of_ne, fs.root]
        intro same
        exact free.1 (same ▸ fs.root)
      inside := by
        intro dir name there
        have kept : dir ≠ place → Function.update fs.node place held dir = fs.node dir :=
          fun other => Function.update_of_ne other _ _
        by_cases here : dir ++ [name] = place
        · subst here
          have holds : fs.node (dir ++ [name]).dropLast = some .directory := free.2
          rw [List.dropLast_concat] at holds
          rw [kept (by simp), holds]
        · rw [Function.update_of_ne here] at there
          have holds := fs.inside dir name there
          rw [kept fun same => free.1 (same ▸ holds), holds]
      listed := by
        intro dir name
        obtain ⟨parent, last, rfl⟩ := free.eq_concat
        rw [List.dropLast_concat, List.getLastD_concat]
        by_cases here : dir = parent
        · subst here
          rw [Function.update_self, mem_relist, fs.listed]
          by_cases same : name = last
          · subst same
            simp [Option.isSome_iff_ne_none]
          · rw [if_neg same, Function.update_of_ne (by simpa using same)]
        · rw [Function.update_of_ne here, fs.listed, Function.update_of_ne]
          intro same
          exact here (List.append_inj' same rfl).1 }
  else fs

/-- How a walk along a path ends. -/
inductive Walk where
  | arrived (place : Location)
  | linked (dir : Location) (target rest : List Component)
  | missing
  | blocked
deriving DecidableEq

/-- Along a path up to the first link. -/
def walk : Location → List Component → Walk
  | here, [] => .arrived here
  | here, part :: rest =>
      if fs.node here = some .directory then
        match part with
        | .rootDir => walk [] rest
        | .curDir => walk here rest
        | .parentDir => walk here.dropLast rest
        | .normal name =>
            match fs.node (here ++ [name]) with
            | none => .missing
            | some (.link target) => .linked here target rest
            | some _ => walk (here ++ [name]) rest
      else .blocked

inductive PathError where
  | notFound
  | notADirectory
  | tooManyLinks
deriving DecidableEq, Repr

/-- Where a path leads from a place, through no more than so many links. -/
def resolve : Nat → Location → List Component → Except PathError Location
  | links, here, path =>
      match fs.walk here path with
      | .arrived place => .ok place
      | .missing => .error .notFound
      | .blocked => .error .notADirectory
      | .linked dir target rest =>
          match links with
          | 0 => .error .tooManyLinks
          | links + 1 => resolve links dir (target ++ rest)

/-- The links that one path may lead through. -/
def maxLinks : Nat := 40

/-- The directory that a path leads to. -/
def directoryAt (cwd : Location) (path : List Component) : Option Location :=
  match fs.resolve maxLinks cwd path with
  | .ok place => if fs.node place = some .directory then some place else none
  | .error _ => none

/-- The file that a path leads to. -/
def fileAt (cwd : Location) (path : List Component) : Option Location :=
  match fs.resolve maxLinks cwd path with
  | .ok place => if fs.node place = some .directory then none else some place
  | .error _ => none

def isFile (cwd : Location) (path : List Component) : Bool := (fs.fileAt cwd path).isSome

/-- What is at the end of a path, be it a link. -/
def entryAt (cwd : Location) (path : List Component) : Option Node :=
  match path.getLast? with
  | some (.normal name) => (fs.directoryAt cwd path.dropLast).bind fun dir => fs.node (dir ++ [name])
  | _ => (fs.directoryAt cwd path).map fun _ => .directory

end Filesystem

/-- A change that is made, or not made, as a whole. -/
inductive Edit where
  | mkdir (place : Location)
  | unlink (place : Location)
  | put (place : Location) (node : Node)
  | append (place : Location) (byte : UInt8)
  | chmod (place : Location) (mode : UInt32)
deriving DecidableEq

def Edit.place : Edit → Location
  | .mkdir place | .unlink place | .put place _ | .append place _ | .chmod place _ => place

namespace Filesystem

variable (fs : Filesystem)

def edit : Edit → Filesystem
  | .mkdir place => fs.set place (some .directory)
  | .unlink place => fs.set place none
  | .put place node => fs.set place (some node)
  | .append place byte =>
      match fs.node place with
      | some (.file contents mode) => fs.set place (some (.file (contents ++ [byte]) mode))
      | _ => fs
  | .chmod place mode =>
      match fs.node place with
      | some (.file contents _) => fs.set place (some (.file contents mode))
      | _ => fs

def edits (changes : List Edit) : Filesystem := changes.foldl edit fs

/-- The last directory that there is on the way down from a path through some names, and the names
that are still to be made. Something else than a directory may be in the way. -/
def nearest (cwd : Location) : List Component → List String → Option (Location × List String)
  | path, [] => (fs.directoryAt cwd path).map fun dir => (dir, [])
  | path, name :: names =>
      match fs.directoryAt cwd path with
      | none => none
      | some dir =>
          if fs.node (dir ++ [name]) = none then some (dir, name :: names)
          else nearest cwd (path ++ [.normal name]) names

end Filesystem

/-- Directories one in the other. -/
def mkdirs : Location → List String → List Edit
  | _, [] => []
  | dir, name :: names => .mkdir (dir ++ [name]) :: mkdirs (dir ++ [name]) names

namespace Filesystem

section Changes

variable {fs : Filesystem} {place : Location}

theorem node_set (held : Option Node) (other : Location) :
    (fs.set place held).node other =
      if other = place ∧ fs.Free place then held else fs.node other := by
  unfold set
  by_cases free : fs.Free place
  · rw [dif_pos free]
    simp only [Function.update_apply, free, and_true]
  · rw [dif_neg free]
    simp only [free, and_false, if_false]

theorem node_set_of_ne {held : Option Node} {other : Location} (apart : other ≠ place) :
    (fs.set place held).node other = fs.node other := by
  rw [node_set, if_neg fun same => apart same.1]

theorem node_set_self {held : Option Node} (free : fs.Free place) :
    (fs.set place held).node place = held := by
  rw [node_set, if_pos ⟨rfl, free⟩]

/-- A change leaves every other place as it is. -/
theorem node_edit_of_ne {change : Edit} {other : Location} (apart : other ≠ change.place) :
    (fs.edit change).node other = fs.node other := by
  unfold edit
  cases change with
  | mkdir place => exact node_set_of_ne apart
  | unlink place => exact node_set_of_ne apart
  | put place node => exact node_set_of_ne apart
  | append place byte =>
      dsimp only
      split
      · exact node_set_of_ne apart
      · rfl
  | chmod place mode =>
      dsimp only
      split
      · exact node_set_of_ne apart
      · rfl

/-- What is there is there, and a path that leads through it still does. -/
def Keeps (fs later : Filesystem) : Prop :=
  ∀ place node, fs.node place = some node → node.shape ≠ .file [] 0 → later.node place = some node

theorem Keeps.trans {first second third : Filesystem} (keeps : first.Keeps second)
    (more : second.Keeps third) : first.Keeps third :=
  fun place node there shape => more place node (keeps place node there shape) shape

theorem Keeps.directory {later : Filesystem} (keeps : fs.Keeps later)
    (there : fs.node place = some .directory) : later.node place = some .directory :=
  keeps place .directory there (by simp [Node.shape])

/-- A place that nothing is at, or a file. -/
theorem set_keeps {held : Option Node}
    (bare : ∀ node, fs.node place = some node → node.shape = .file [] 0) :
    fs.Keeps (fs.set place held) := by
  intro other node there shape
  rw [node_set_of_ne, there]
  intro same
  subst same
  exact shape (bare node there)

/-- A change where no link is. -/
theorem edit_keeps {change : Edit} (unlinked : ∀ aim, fs.node change.place ≠ some (.link aim)) :
    fs.Keeps (fs.edit change) := by
  have set_keeps_free : ∀ held, fs.Keeps (fs.set change.place held) := by
    intro held
    by_cases free : fs.Free change.place
    · apply set_keeps
      intro node there
      cases node with
      | directory => exact absurd there free.1
      | file contents mode => rfl
      | link aim => exact absurd there (unlinked aim)
    · rw [set, dif_neg free]
      exact fun _ _ there _ => there
  unfold edit
  cases change with
  | mkdir place => exact set_keeps_free _
  | unlink place => exact set_keeps_free _
  | put place node => exact set_keeps_free _
  | append place byte =>
      dsimp only
      split
      · exact set_keeps_free _
      · exact fun _ _ there _ => there
  | chmod place mode =>
      dsimp only
      split
      · exact set_keeps_free _
      · exact fun _ _ there _ => there

theorem free_of_file {contents : List UInt8} {mode : UInt32}
    (there : fs.node place = some (.file contents mode)) : fs.Free place := by
  refine ⟨by simp [there], ?_⟩
  rcases List.eq_nil_or_concat place with rfl | ⟨dir, name, rfl⟩
  · rw [fs.root] at there
    cases there
  · rw [List.concat_eq_append, List.dropLast_concat]
    rw [List.concat_eq_append] at there
    exact fs.inside dir name (by simp [there])

theorem node_chmod {contents : List UInt8} {mode other : UInt32}
    (there : fs.node place = some (.file contents mode)) :
    (fs.edit (.chmod place other)).node place = some (.file contents other) := by
  simp only [edit, there]
  exact node_set_self (free_of_file there)

/-- A change that puts no link leaves none where none was. -/
theorem edit_unlinked {change : Edit} (plain : ∀ place aim, change ≠ .put place (.link aim))
    {other : Location} (unlinked : ∀ aim, fs.node other ≠ some (.link aim)) (aim : List Component) :
    (fs.edit change).node other ≠ some (.link aim) := by
  have set_unlinked : ∀ place held, held ≠ some (.link aim) →
      (fs.set place held).node other ≠ some (.link aim) := by
    intro place held isPlain
    rw [node_set]
    split
    · exact isPlain
    · exact unlinked aim
  unfold edit
  cases change with
  | mkdir place => exact set_unlinked place _ (by simp)
  | unlink place => exact set_unlinked place _ (by simp)
  | put place node =>
      apply set_unlinked
      intro same
      exact plain place aim (congrArg _ (Option.some.inj same))
  | append place byte =>
      dsimp only
      split
      · exact set_unlinked place _ (by simp)
      · exact unlinked aim
  | chmod place mode =>
      dsimp only
      split
      · exact set_unlinked place _ (by simp)
      · exact unlinked aim

end Changes

section Paths

variable {fs later : Filesystem} {cwd here place : Location} {path more : List Component}

/-- A walk goes on from where it has arrived. -/
theorem walk_append : fs.walk here (path ++ more) =
    match fs.walk here path with
    | .arrived place => fs.walk place more
    | .linked dir target rest => .linked dir target (rest ++ more)
    | .missing => .missing
    | .blocked => .blocked := by
  induction path generalizing here with
  | nil => rfl
  | cons part rest ih =>
      simp only [List.cons_append, walk]
      by_cases isDir : fs.node here = some .directory
      · simp only [isDir, if_true]
        cases part with
        | rootDir => exact ih
        | curDir => exact ih
        | parentDir => exact ih
        | normal name =>
            cases found : fs.node (here ++ [name]) with
            | none => simp only [found]
            | some node =>
                cases node with
                | directory => simpa only [found] using ih
                | file contents mode => simpa only [found] using ih
                | link target => simp only [found]
      · simp only [isDir, if_false]

theorem resolve_append {links : Nat} (found : fs.resolve links here path = .ok place)
    (more : List Component) :
    ∃ left, fs.resolve links here (path ++ more) = fs.resolve left place more := by
  induction links generalizing here path with
  | zero =>
      rw [resolve] at found ⊢
      rw [walk_append]
      cases walked : fs.walk here path with
      | arrived reached =>
          rw [walked] at found
          cases found
          exact ⟨0, by rw [resolve]⟩
      | linked dir target rest => simp [walked] at found
      | missing => simp [walked] at found
      | blocked => simp [walked] at found
  | succ links ih =>
      rw [resolve] at found ⊢
      rw [walk_append]
      cases walked : fs.walk here path with
      | arrived reached =>
          rw [walked] at found
          cases found
          exact ⟨links + 1, by rw [resolve]⟩
      | linked dir target rest =>
          rw [walked] at found
          obtain ⟨left, onward⟩ := ih found
          exact ⟨left, by rw [← onward, List.append_assoc]⟩
      | missing => simp [walked] at found
      | blocked => simp [walked] at found

/-- A walk to a directory still gets there. -/
theorem walk_keeps (keeps : fs.Keeps later) (walked : fs.walk here path = .arrived place)
    (isDir : fs.node place = some .directory) : later.walk here path = .arrived place := by
  induction path generalizing here with
  | nil =>
      cases walked
      rfl
  | cons part rest ih =>
      simp only [walk] at walked ⊢
      split at walked
      · rename_i hereDir
        rw [if_pos (keeps.directory hereDir)]
        cases part with
        | rootDir => exact ih walked
        | curDir => exact ih walked
        | parentDir => exact ih walked
        | normal name =>
            cases found : fs.node (here ++ [name]) with
            | none => simp [found] at walked
            | some node =>
                cases node with
                | directory =>
                    simp only [found] at walked
                    simpa only [keeps.directory found] using ih walked
                | file contents mode =>
                    -- nothing is in a file, so the walk ends at it
                    simp only [found] at walked
                    cases rest with
                    | nil =>
                        cases walked
                        rw [found] at isDir
                        cases isDir
                    | cons next rest => simp [walk, found] at walked
                | link target => simp [found] at walked
      · cases walked

theorem walk_keeps_link {dir : Location} {target rest : List Component} (keeps : fs.Keeps later)
    (walked : fs.walk here path = .linked dir target rest) :
    later.walk here path = .linked dir target rest := by
  induction path generalizing here with
  | nil => cases walked
  | cons part tail ih =>
      simp only [walk] at walked ⊢
      split at walked
      · rename_i hereDir
        rw [if_pos (keeps.directory hereDir)]
        cases part with
        | rootDir => exact ih walked
        | curDir => exact ih walked
        | parentDir => exact ih walked
        | normal name =>
            cases found : fs.node (here ++ [name]) with
            | none => simp [found] at walked
            | some node =>
                cases node with
                | directory =>
                    simp only [found] at walked
                    simpa only [keeps.directory found] using ih walked
                | file contents mode =>
                    simp only [found] at walked
                    cases tail with
                    | nil => cases walked
                    | cons next rest => simp [walk, found] at walked
                | link aim =>
                    simp only [found] at walked
                    cases walked
                    simp only [keeps _ _ found (by simp [Node.shape])]
      · cases walked

theorem resolve_keeps {links : Nat} (keeps : fs.Keeps later)
    (found : fs.resolve links here path = .ok place) (isDir : fs.node place = some .directory) :
    later.resolve links here path = .ok place := by
  induction links generalizing here path with
  | zero =>
      rw [resolve] at found ⊢
      cases walked : fs.walk here path with
      | arrived reached =>
          rw [walked] at found
          cases found
          rw [walk_keeps keeps walked isDir]
      | linked dir target rest => simp [walked] at found
      | missing => simp [walked] at found
      | blocked => simp [walked] at found
  | succ links ih =>
      rw [resolve] at found ⊢
      cases walked : fs.walk here path with
      | arrived reached =>
          rw [walked] at found
          cases found
          rw [walk_keeps keeps walked isDir]
      | linked dir target rest =>
          rw [walked] at found
          rw [walk_keeps_link keeps walked]
          exact ih found
      | missing => simp [walked] at found
      | blocked => simp [walked] at found

/-- The same directories and links, and files at the same places. -/
def Alike (fs later : Filesystem) : Prop :=
  ∀ place, (fs.node place).map Node.shape = (later.node place).map Node.shape

theorem Alike.directory (alike : fs.Alike later) (place : Location) :
    fs.node place = some .directory ↔ later.node place = some .directory := by
  have same := alike place
  cases here : fs.node place with
  | none =>
      rw [here] at same
      cases there : later.node place with
      | none => simp
      | some node => simp [there] at same
  | some node =>
      rw [here] at same
      cases there : later.node place with
      | none => simp [there] at same
      | some other =>
          rw [there] at same
          cases node <;> cases other <;> simp_all [Node.shape]

theorem alike_of_modeless
    (same : ∀ place, (fs.node place).map Node.modeless = (later.node place).map Node.modeless) :
    fs.Alike later := by
  intro place
  have shapes := congrArg (Option.map Node.shape) (same place)
  rw [Option.map_map, Option.map_map] at shapes
  have forgets : Node.shape ∘ Node.modeless = Node.shape := by
    funext node
    cases node <;> rfl
  rw [forgets] at shapes
  exact shapes

theorem walk_alike (alike : fs.Alike later) : fs.walk here path = later.walk here path := by
  induction path generalizing here with
  | nil => rfl
  | cons part rest ih =>
      simp only [walk, alike.directory here]
      split
      · cases part with
        | rootDir => exact ih
        | curDir => exact ih
        | parentDir => exact ih
        | normal name =>
            have same := alike (here ++ [name])
            cases found : fs.node (here ++ [name]) with
            | none =>
                rw [found, Option.map_none, eq_comm, Option.map_eq_none_iff] at same
                simp only [found, same]
            | some node =>
                rw [found, Option.map_some, eq_comm, Option.map_eq_some_iff] at same
                obtain ⟨other, there, shape⟩ := same
                simp only [found, there]
                cases node <;> cases other <;> simp_all [Node.shape]
      · rfl

theorem resolve_alike (alike : fs.Alike later) {links : Nat} :
    fs.resolve links here path = later.resolve links here path := by
  induction links generalizing here path with
  | zero => rw [resolve, resolve, walk_alike alike]
  | succ links ih =>
      rw [resolve, resolve, walk_alike alike]
      split
      · rfl
      · rfl
      · rfl
      · exact ih

theorem fileAt_alike (alike : fs.Alike later) : fs.fileAt cwd path = later.fileAt cwd path := by
  unfold fileAt
  rw [resolve_alike alike]
  split
  · simp only [alike.directory]
  · rfl

theorem directoryAt_iff {dir : Location} : fs.directoryAt cwd path = some dir ↔
    fs.resolve maxLinks cwd path = .ok dir ∧ fs.node dir = some .directory := by
  unfold directoryAt
  cases fs.resolve maxLinks cwd path with
  | error refusal => simp
  | ok place =>
      simp only [Option.ite_none_right_eq_some, Option.some.injEq, Except.ok.injEq]
      constructor
      · intro found
        exact ⟨found.2, found.2 ▸ found.1⟩
      · intro found
        exact ⟨found.1 ▸ found.2, found.1⟩

theorem directoryAt_keeps {dir : Location} (keeps : fs.Keeps later)
    (found : fs.directoryAt cwd path = some dir) : later.directoryAt cwd path = some dir := by
  rw [directoryAt_iff] at found ⊢
  exact ⟨resolve_keeps keeps found.1 found.2, keeps.directory found.2⟩

/-- A directory in the one that a path leads to. -/
theorem directoryAt_child {dir : Location} {name : String}
    (found : fs.directoryAt cwd path = some dir)
    (child : fs.node (dir ++ [name]) = some .directory) :
    fs.directoryAt cwd (path ++ [.normal name]) = some (dir ++ [name]) := by
  rw [directoryAt_iff] at found ⊢
  obtain ⟨left, onward⟩ := resolve_append found.1 [.normal name]
  rw [onward, resolve]
  simp only [walk, found.2, child, if_true, and_self]

/-- No file is where no name is. -/
theorem fileAt_absent {dir : Location} {name : String}
    (found : fs.directoryAt cwd path = some dir) (absent : fs.node (dir ++ [name]) = none) :
    fs.fileAt cwd (path ++ [.normal name]) = none := by
  obtain ⟨resolved, isDir⟩ := directoryAt_iff.mp found
  obtain ⟨left, onward⟩ := resolve_append resolved [.normal name]
  rw [fileAt, onward, resolve]
  simp only [walk, isDir, absent, if_true]

end Paths

section Making

variable {fs : Filesystem} {cwd dir : Location} {path : List Component} {names missing : List String}

/-- The names on the way down are those of directories, and what is still to be made is not
there. -/
theorem nearest_spec (found : fs.nearest cwd path names = some (dir, missing)) :
    ∃ walked, names = walked ++ missing ∧
      fs.directoryAt cwd (path ++ walked.map .normal) = some dir ∧
      ∀ name ∈ missing.head?, fs.node (dir ++ [name]) = none := by
  induction names generalizing path with
  | nil =>
      simp only [nearest, Option.map_eq_some_iff, Prod.mk.injEq] at found
      obtain ⟨reached, there, rfl, rfl⟩ := found
      exact ⟨[], rfl, by simpa using there, by simp⟩
  | cons name names ih =>
      simp only [nearest] at found
      split at found
      · cases found
      · rename_i reached there
        split at found
        · rename_i free
          cases found
          refine ⟨[], rfl, by simpa using there, ?_⟩
          intro other first
          cases first
          exact free
        · obtain ⟨walked, rfl, onward, free⟩ := ih found
          exact ⟨name :: walked, rfl, by simpa using onward, free⟩

/-- Without links the way down stays below where it starts. -/
theorem nearest_below {base start : Location} (there : fs.directoryAt cwd path = some start)
    (under : base <+: start) (unlinked : ∀ place aim, base <+: place → fs.node place ≠ some (.link aim))
    (found : fs.nearest cwd path names = some (dir, missing)) : base <+: dir := by
  induction names generalizing path start with
  | nil =>
      simp only [nearest, there, Option.map_some, Option.some.injEq, Prod.mk.injEq] at found
      rw [← found.1]
      exact under
  | cons name names ih =>
      simp only [nearest, there] at found
      split at found
      · cases found
        exact under
      · rename_i present
        have below := under.trans (List.prefix_append start [name])
        cases child : fs.node (start ++ [name]) with
        | none => exact absurd child present
        | some node =>
            cases node with
            | directory => exact ih (directoryAt_child there child) below found
            | link aim => exact absurd child (unlinked _ aim below)
            | file contents mode =>
                -- the way down ends at a file
                have blocked : fs.directoryAt cwd (path ++ [.normal name]) = none := by
                  obtain ⟨left, onward⟩ :=
                    resolve_append (directoryAt_iff.mp there).1 [.normal name]
                  rw [directoryAt, onward, resolve]
                  simp [walk, (directoryAt_iff.mp there).2, child]
                cases names with
                | nil => simp [nearest, blocked] at found
                | cons next names => simp [nearest, blocked] at found

/-- Directories that are made where nothing is. -/
theorem edits_mkdirs (isDir : fs.node dir = some .directory)
    (found : fs.directoryAt cwd path = some dir)
    (free : ∀ name ∈ missing.head?, fs.node (dir ++ [name]) = none) :
    fs.Keeps (fs.edits (mkdirs dir missing)) ∧
      (fs.edits (mkdirs dir missing)).directoryAt cwd (path ++ missing.map .normal) =
        some (dir ++ missing) := by
  induction missing generalizing fs dir path with
  | nil => exact ⟨fun _ _ there _ => there, by simpa [mkdirs, edits] using found⟩
  | cons name names ih =>
      have absent := free name rfl
      have place : fs.Free (dir ++ [name]) := by
        refine ⟨by simp [absent], ?_⟩
        rw [List.dropLast_concat]
        exact isDir
      have keeps : fs.Keeps (fs.edit (.mkdir (dir ++ [name]))) := by
        apply set_keeps
        intro node there
        rw [absent] at there
        cases there
      have made : (fs.edit (.mkdir (dir ++ [name]))).node (dir ++ [name]) = some .directory :=
        node_set_self place
      have rest := ih made (directoryAt_child (directoryAt_keeps keeps found) made) (by
        intro next first
        -- nothing is in what was not there
        by_contra there
        have within : (fs.edit (.mkdir (dir ++ [name]))).node (dir ++ [name] ++ [next]) =
            fs.node (dir ++ [name] ++ [next]) := by
          apply node_edit_of_ne
          simp [Edit.place]
        rw [within] at there
        have holds := fs.inside _ _ there
        rw [absent] at holds
        cases holds)
      refine ⟨keeps.trans rest.1, ?_⟩
      have onward := rest.2
      rw [List.append_assoc, List.append_assoc] at onward
      exact onward

theorem place_mkdirs {change : Edit} (made : change ∈ mkdirs dir missing) : dir <+: change.place := by
  induction missing generalizing dir with
  | nil => cases made
  | cons name names ih =>
      rcases List.mem_cons.mp made with rfl | later
      · exact List.prefix_append dir [name]
      · exact (List.prefix_append dir [name]).trans (ih later)

theorem put_mkdirs {place : Location} {node : Node} : .put place node ∉ mkdirs dir missing := by
  induction missing generalizing dir with
  | nil => simp [mkdirs]
  | cons name names ih => simp [mkdirs, ih]

end Making

end Filesystem

end Lightweight
