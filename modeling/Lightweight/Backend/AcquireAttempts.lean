import Lightweight.Backend.Acquire
import Lightweight.Transition

/-! Attempts at having the engine installed, one after the other. Each takes a file at the server's
path for the whole installation, and each may end at any change of the disk. -/

namespace Lightweight.Backend

open Filesystem Transition

/-- What an installation is of, and where it goes. -/
structure Installer where
  cwd : Location
  root : List Component
  dirName : String
  archive : Archive
  server : String
  /-- Whether a file has to be marked as a program. -/
  unix : Bool
deriving DecidableEq

namespace Installer

variable (installer : Installer)

def installDir : List Component := installer.root ++ [.normal installer.dirName]

def isInstalled (disk : Filesystem) : Bool :=
  disk.isFile installer.cwd (installer.installDir ++ [.normal installer.server])

def createInstallDir (disk : Filesystem) : Outcome :=
  match disk.nearest installer.cwd installer.root [installer.dirName] with
  | none => ⟨[], some (.io "creating the engine directory")⟩
  | some (dir, missing) => ⟨mkdirs dir missing, none⟩

/-- The install directory, and then the entries. -/
def extract : List (Filesystem → Outcome) :=
  installer.createInstallDir :: installer.archive.extracts installer.cwd installer.installDir

def isProgram (name : String) : Bool :=
  "llama-".toList.isPrefixOf name.toList && !name.toList.contains '.'

/-- The bits that make a program of a file, added to its mode. -/
def markExecutable (disk : Filesystem) (name : String) : Filesystem :=
  match disk.fileAt installer.cwd (installer.installDir ++ [.normal name]) with
  | none => disk
  | some place =>
      match disk.node place with
      | some (.file _ mode) => if isProgram name then disk.edit (.chmod place (mode ||| 0o755)) else disk
      | _ => disk

end Installer

/-- How far an attempt is. -/
inductive Phase where
  | idle
  | downloading
  /-- The changes that the entry at hand has still to make, and the entries behind it. -/
  | extracting (pending : List Edit) (failure : Option AcquireError)
      (rest : List (Filesystem → Outcome))
  | removing
  | listing
  | marking (names : List String)

/-- The server's path, or an error. -/
inductive Answer where
  | installed
  | failed (error : AcquireError)
deriving DecidableEq

/-- The disk and the attempt, with the disk as the last extraction found it, and the last answer. -/
structure InstallWorld where
  disk : Filesystem
  phase : Phase
  began : Option Filesystem
  answer : Option Answer

def InstallWorld.idle (disk : Filesystem) : InstallWorld := ⟨disk, .idle, none, none⟩

inductive InstallAction where
  | ensure
  | downloaded
  | edit
  | next
  | removed
  | list (names : List String)
  /-- What cannot be marked is passed over. -/
  | mark (done : Bool)
  | finish
  /-- An error, or the end of the process, which answers nothing. -/
  | stop (failure : Option AcquireError)
deriving DecidableEq

def installStep (installer : Installer) (world : InstallWorld) :
    InstallAction → Option InstallWorld
  | .ensure =>
      match world.phase with
      | .idle =>
          if installer.isInstalled world.disk then some { world with answer := some .installed }
          else some { world with phase := .downloading, answer := none }
      | _ => none
  | .downloaded =>
      match world.phase with
      | .downloading =>
          some { world with phase := .extracting [] none installer.extract, began := some world.disk }
      | _ => none
  | .edit =>
      match world.phase with
      | .extracting (change :: pending) failure rest =>
          some { world with
            disk := world.disk.edit change
            phase := .extracting pending failure rest }
      | _ => none
  | .next =>
      match world.phase with
      | .extracting [] (some failure) _ =>
          some { world with phase := .idle, answer := some (.failed failure) }
      | .extracting [] none (entry :: rest) =>
          some { world with
            phase := .extracting (entry world.disk).edits (entry world.disk).failure rest }
      | .extracting [] none [] => some { world with phase := .removing }
      | _ => none
  | .removed =>
      match world.phase with
      | .removing =>
          if installer.isInstalled world.disk then
            some (if installer.unix then { world with phase := .listing }
              else { world with phase := .idle, answer := some .installed })
          else some { world with phase := .idle, answer := some (.failed .runtimeMissing) }
      | _ => none
  | .list names =>
      match world.phase, world.disk.directoryAt installer.cwd installer.installDir with
      | .listing, some dir =>
          if ∀ name ∈ names, name ∈ world.disk.listing dir then
            some { world with phase := .marking names }
          else none
      | _, _ => none
  | .mark done =>
      match world.phase with
      | .marking (name :: names) =>
          some { world with
            disk := if done then installer.markExecutable world.disk name else world.disk
            phase := .marking names }
      | _ => none
  | .finish =>
      match world.phase with
      | .marking [] => some { world with phase := .idle, answer := some .installed }
      | _ => none
  | .stop failure =>
      match world.phase with
      | .idle => none
      | _ => some { world with phase := .idle, answer := failure.map .failed }

/-- All the entries one after the other, to the end. -/
def extractAll : List (Filesystem → Outcome) → Filesystem → Option Filesystem
  | [], disk => some disk
  | entry :: rest, disk =>
      match (entry disk).failure with
      | none => extractAll rest (disk.edits (entry disk).edits)
      | some _ => none

/-- A program that a name in the install directory leads to has the bits of one. -/
def Installer.Marked (installer : Installer) (disk : Filesystem) (name : String) : Prop :=
  ∀ place ∈ disk.fileAt installer.cwd (installer.installDir ++ [.normal name]),
    ∀ contents mode, disk.node place = some (.file contents mode) → mode ||| 0o755 = mode

/-- The disk is as a whole extraction has left it, modes apart, and the programs are marked. -/
def Installer.Whole (installer : Installer) (world : InstallWorld) : Prop :=
  ∃ before after, world.began = some before ∧ extractAll installer.extract before = some after ∧
    (∀ place, (world.disk.node place).map Node.modeless = (after.node place).map Node.modeless) ∧
    (installer.unix = true → ∀ name, Installer.isProgram name = true →
      installer.Marked world.disk name)

/-- Whether all is done but the answer. -/
def Phase.isDone (unix : Bool) : Phase → Bool
  | .removing => !unix
  | .marking [] => true
  | _ => false

/-- No attempt ends early with a file at the server's path; the listing is whole; and what is listed
can be marked. -/
def Installer.Undisturbed (installer : Installer) (world : InstallWorld) : InstallAction → Prop
  | .stop _ => installer.isInstalled world.disk = false ∨ world.phase.isDone installer.unix = true
  | .next =>
      match world.phase with
      | .extracting [] (some _) _ => installer.isInstalled world.disk = false
      | _ => True
  | .list names =>
      ∀ dir ∈ world.disk.directoryAt installer.cwd installer.installDir,
        ∀ name ∈ world.disk.listing dir, name ∈ names
  | .mark done => done = true
  | _ => True

instance (installer : Installer) (world : InstallWorld) :
    ∀ action, Decidable (installer.Undisturbed world action)
  | .stop _ => inferInstanceAs (Decidable (_ ∨ _))
  | .next => by
      unfold Installer.Undisturbed
      dsimp only
      split <;> infer_instance
  | .list _ => inferInstanceAs (Decidable (∀ dir ∈ _, ∀ name ∈ _, _))
  | .mark _ => inferInstanceAs (Decidable (_ = _))
  | .ensure | .downloaded | .edit | .removed | .finish => inferInstanceAs (Decidable True)

section Marking

variable (installer : Installer) (disk : Filesystem) (name : String) {other : String}

/-- Marking gives a mode to a file, if it does anything. -/
theorem markExecutable_cases :
    installer.markExecutable disk name = disk ∨
      ∃ place contents mode, disk.node place = some (.file contents mode) ∧
        installer.markExecutable disk name = disk.edit (.chmod place (mode ||| 0o755)) := by
  unfold Installer.markExecutable
  split
  · exact Or.inl rfl
  · rename_i place found
    split
    · rename_i contents mode there
      split
      · exact Or.inr ⟨place, contents, mode, there, rfl⟩
      · exact Or.inl rfl
    · exact Or.inl rfl

theorem markExecutable_modeless (place : Location) :
    ((installer.markExecutable disk name).node place).map Node.modeless =
      (disk.node place).map Node.modeless := by
  rcases markExecutable_cases installer disk name with same | ⟨marked, contents, mode, there, changed⟩
  · rw [same]
  · rw [changed]
    by_cases here : place = marked
    · subst here
      rw [node_chmod there, there]
      rfl
    · rw [node_edit_of_ne here]

theorem fileAt_markExecutable (path : List Component) :
    (installer.markExecutable disk name).fileAt installer.cwd path =
      disk.fileAt installer.cwd path :=
  fileAt_alike (alike_of_modeless (markExecutable_modeless installer disk name))

/-- What is marked stays so. -/
theorem Installer.Marked.mark (marked : installer.Marked disk other) :
    installer.Marked (installer.markExecutable disk name) other := by
  intro place found contents mode there
  rw [fileAt_markExecutable] at found
  rcases markExecutable_cases installer disk name with same | ⟨changed, was, before, held, given⟩
  · rw [same] at there
    exact marked place found contents mode there
  · rw [given] at there
    by_cases here : place = changed
    · subst here
      simp only [node_chmod held, Option.some.injEq, Node.file.injEq] at there
      rw [← there.2, UInt32.or_assoc, UInt32.or_self]
    · rw [node_edit_of_ne here] at there
      exact marked place found contents mode there

theorem marked_markExecutable (program : Installer.isProgram name = true) :
    installer.Marked (installer.markExecutable disk name) name := by
  intro place found contents mode there
  rw [fileAt_markExecutable] at found
  unfold Installer.markExecutable at there
  rw [Option.mem_def.mp found] at there
  dsimp only at there
  cases held : disk.node place with
  | none => simp [held] at there
  | some node =>
      cases node with
      | directory => simp [held] at there
      | link aim => simp [held] at there
      | file was before =>
          simp only [held, program, if_true, node_chmod held, Option.some.injEq,
            Node.file.injEq] at there
          rw [← there.2, UInt32.or_assoc, UInt32.or_self]

end Marking

section Attempts

variable {installer : Installer} {world next : InstallWorld} {action : InstallAction}

theorem extractAll_append {first second : List (Filesystem → Outcome)} {disk : Filesystem} :
    extractAll (first ++ second) disk = (extractAll first disk).bind (extractAll second) := by
  induction first generalizing disk with
  | nil => rfl
  | cons entry rest ih =>
      rw [List.cons_append, extractAll, extractAll]
      split
      · exact ih
      · rfl

/-- How far an extraction is: between two entries, or among the changes of one. -/
inductive Extracting (steps : List (Filesystem → Outcome)) (before : Filesystem) :
    Filesystem → List Edit → Option AcquireError → List (Filesystem → Outcome) → Prop where
  | between {disk : Filesystem} {done rest : List (Filesystem → Outcome)} : steps = done ++ rest →
      extractAll done before = some disk → Extracting steps before disk [] none rest
  | among {found : Filesystem} {done rest : List (Filesystem → Outcome)}
      {entry : Filesystem → Outcome} {made pending : List Edit} : steps = done ++ entry :: rest →
      extractAll done before = some found → (entry found).edits = made ++ pending →
      Extracting steps before (found.edits made) pending (entry found).failure rest

/-- An entry whose changes are all made is done. -/
theorem Extracting.done {steps rest : List (Filesystem → Outcome)} {before disk : Filesystem}
    (extracting : Extracting steps before disk [] none rest) :
    ∃ done, steps = done ++ rest ∧ extractAll done before = some disk := by
  generalize nothing : ([] : List Edit) = pending at extracting
  generalize fine : (none : Option AcquireError) = failure at extracting
  cases extracting with
  | between split ran => exact ⟨_, split, ran⟩
  | @among found done rest entry made pending split ran changes =>
      subst nothing
      rw [List.append_nil] at changes
      refine ⟨done ++ [entry], by rw [split, List.append_assoc]; rfl, ?_⟩
      rw [extractAll_append, ran]
      simp only [Option.bind_some, extractAll, ← fine, changes]

theorem Extracting.edit {steps rest : List (Filesystem → Outcome)} {before disk : Filesystem}
    {change : Edit} {pending : List Edit} {failure : Option AcquireError}
    (extracting : Extracting steps before disk (change :: pending) failure rest) :
    Extracting steps before (disk.edit change) pending failure rest := by
  generalize some_pending : change :: pending = changes at extracting
  cases extracting with
  | between split ran => cases some_pending
  | @among found done rest entry made pending' split ran all =>
      subst some_pending
      have more : (entry found).edits = (made ++ [change]) ++ pending := by
        rw [all, List.append_assoc]
        rfl
      have next := Extracting.among split ran more
      rwa [edits, List.foldl_append] at next

/-- What is known of the disk in each phase. -/
def Consistent (installer : Installer) (world : InstallWorld) : Prop :=
  match world.phase with
  | .idle =>
      installer.isInstalled world.disk = true ∨ world.answer = some .installed → installer.Whole world
  | .downloading => world.answer = none
  | .extracting pending failure rest => world.answer = none ∧
      ∃ before, world.began = some before ∧
        Extracting installer.extract before world.disk pending failure rest
  | .removing | .listing => world.answer = none ∧
      ∃ before, world.began = some before ∧
        extractAll installer.extract before = some world.disk
  | .marking names => world.answer = none ∧
      ∃ before after, world.began = some before ∧
        extractAll installer.extract before = some after ∧
        (∀ place, (world.disk.node place).map Node.modeless = (after.node place).map Node.modeless) ∧
        ∀ name, Installer.isProgram name = true → name ∉ names → installer.Marked world.disk name

theorem Consistent.marked (consistent : Consistent installer world)
    (last : world.phase = .marking []) : installer.Whole world := by
  unfold Consistent at consistent
  rw [last] at consistent
  obtain ⟨_, before, after, began, ran, same, marked⟩ := consistent
  exact ⟨before, after, began, ran, same, fun _ name program => marked name program (by simp)⟩

theorem Consistent.unmarked (consistent : Consistent installer world)
    (last : world.phase = .removing) (plain : installer.unix = false) : installer.Whole world := by
  unfold Consistent at consistent
  rw [last] at consistent
  obtain ⟨_, before, began, ran⟩ := consistent
  exact ⟨before, world.disk, began, ran, fun _ => rfl, by simp [plain]⟩

/-- One step of an undisturbed run. -/
theorem consistent_step (undisturbed : installer.Undisturbed world action)
    (stepped : installStep installer world action = some next)
    (consistent : Consistent installer world) : Consistent installer next := by
  cases action with
  | ensure =>
      simp only [installStep] at stepped
      split at stepped
      · rename_i idle
        unfold Consistent at consistent
        simp only [idle] at consistent
        split at stepped
        · rename_i installed
          cases stepped
          simp only [Consistent, idle]
          exact fun _ => consistent (Or.inl installed)
        · cases stepped
          rfl
      · cases stepped
  | downloaded =>
      simp only [installStep] at stepped
      split at stepped
      · rename_i downloading
        unfold Consistent at consistent
        simp only [downloading] at consistent
        cases stepped
        exact ⟨consistent, world.disk, rfl, .between (List.nil_append _).symm rfl⟩
      · cases stepped
  | edit =>
      simp only [installStep] at stepped
      split at stepped
      · rename_i change pending failure rest extracting
        unfold Consistent at consistent
        simp only [extracting] at consistent
        obtain ⟨silent, before, began, far⟩ := consistent
        cases stepped
        exact ⟨silent, before, began, far.edit⟩
      · cases stepped
  | next =>
      simp only [installStep] at stepped
      unfold Consistent at consistent
      simp only [Installer.Undisturbed] at undisturbed
      split at stepped
      · rename_i failure rest extracting
        simp only [extracting] at undisturbed
        cases stepped
        simp only [Consistent]
        intro found
        rcases found with installed | answered
        · rw [undisturbed] at installed
          cases installed
        · cases answered
      · rename_i entry rest extracting
        simp only [extracting] at consistent
        obtain ⟨silent, before, began, far⟩ := consistent
        obtain ⟨done, split_here, ran⟩ := far.done
        cases stepped
        refine ⟨silent, before, began, ?_⟩
        exact Extracting.among split_here ran (List.nil_append _).symm
      · rename_i extracting
        simp only [extracting] at consistent
        obtain ⟨silent, before, began, far⟩ := consistent
        obtain ⟨done, all, ran⟩ := far.done
        cases stepped
        rw [List.append_nil] at all
        exact ⟨silent, before, began, by rw [all, ran]⟩
      · cases stepped
  | removed =>
      simp only [installStep] at stepped
      split at stepped
      · rename_i removing
        split at stepped
        · cases marks : installer.unix with
          | true =>
              unfold Consistent at consistent
              simp only [removing] at consistent
              simp only [marks, if_true, Option.some.injEq] at stepped
              subst stepped
              exact consistent
          | false =>
              have whole := consistent.unmarked removing marks
              simp only [marks, Bool.false_eq_true, if_false, Option.some.injEq] at stepped
              subst stepped
              exact fun _ => whole
        · rename_i absent
          cases stepped
          simp only [Consistent]
          intro found
          rcases found with installed | answered
          · exact absurd installed absent
          · cases answered
      · cases stepped
  | list names =>
      simp only [installStep] at stepped
      split at stepped
      · rename_i dir listing there
        split at stepped
        · unfold Consistent at consistent
          simp only [listing] at consistent
          obtain ⟨silent, before, began, ran⟩ := consistent
          cases stepped
          refine ⟨silent, before, world.disk, began, ran, fun _ => rfl, ?_⟩
          intro name _ unlisted place found
          have absent : world.disk.node (dir ++ [name]) = none := by
            by_contra present
            exact unlisted (undisturbed dir there name ((world.disk.listed dir name).mpr present))
          rw [fileAt_absent there absent] at found
          cases found
        · cases stepped
      · cases stepped
  | mark done =>
      simp only [installStep] at stepped
      split at stepped
      · rename_i name names marking
        unfold Consistent at consistent
        simp only [marking] at consistent
        obtain ⟨silent, before, after, began, ran, same, marked⟩ := consistent
        simp only [Installer.Undisturbed] at undisturbed
        cases stepped
        simp only [undisturbed, if_true]
        refine ⟨silent, before, after, began, ran, ?_, ?_⟩
        · exact fun place => (markExecutable_modeless installer world.disk name place).trans
            (same place)
        · intro other program unmarked
          by_cases here : other = name
          · subst here
            exact marked_markExecutable installer world.disk other program
          · apply Installer.Marked.mark
            apply marked other program
            simp only [List.mem_cons, here, unmarked, or_self, not_false_eq_true]
      · cases stepped
  | finish =>
      simp only [installStep] at stepped
      split at stepped
      · rename_i last
        have whole := consistent.marked last
        cases stepped
        exact fun _ => whole
      · cases stepped
  | stop failure =>
      have ended : next = { world with phase := .idle, answer := failure.map .failed } := by
        simp only [installStep] at stepped
        split at stepped
        · cases stepped
        · exact (Option.some.inj stepped).symm
      subst ended
      simp only [Consistent]
      intro found
      have installed : installer.isInstalled world.disk = true := by
        rcases found with installed | answered
        · exact installed
        · cases failure <;> cases answered
      rcases undisturbed with absent | done
      · rw [absent] at installed
        cases installed
      · unfold Phase.isDone at done
        split at done
        · rename_i removing
          exact consistent.unmarked removing (by simpa using done)
        · rename_i last
          exact consistent.marked last
        · cases done

/-- Where the engine was not installed before, an attempt that is answered with the server's path has
the whole archive on the disk, with its programs marked, in every run in which no attempt ends with a
file at that path and its work not done, and nothing in the install directory is passed over. -/
theorem ensure_all_or_nothing {disk : Filesystem} (absent : installer.isInstalled disk = false)
    (reached : Reaches (installStep installer) installer.Undisturbed (.idle disk) world)
    (answered : world.answer = some .installed) : installer.Whole world := by
  have base : Consistent installer (.idle disk) := by
    intro found
    rcases found with installed | answered
    · exact absurd (absent.symm.trans installed) Bool.false_ne_true
    · cases answered
  have consistent := reached.invariant (Consistent installer) base fun _ _ _ undisturbed kept
    stepped => consistent_step undisturbed stepped kept
  unfold Consistent at consistent
  split at consistent
  · exact consistent (Or.inr answered)
  · rw [consistent] at answered
    cases answered
  all_goals
    rw [consistent.1] at answered
    cases answered

end Attempts

section Sample

/-- The server and a library, in one directory of the archive. -/
def twoFiles : Installer where
  cwd := []
  root := [.rootDir, .normal "cache"]
  dirName := "engine"
  archive := .tarGz [⟨"llama-b1/llama-server", .file [1] 0o644⟩, ⟨"llama-b1/libggml.so", .file [2] 0o644⟩]
  server := "llama-server"
  unix := true

def emptyCache : Filesystem := bare.edits [.mkdir ["cache"]]

/-- An attempt up to the change that puts the server there. -/
def untilServer : List InstallAction := [.ensure, .downloaded, .next, .edit, .next, .edit]

def wholeInstall : List InstallAction :=
  untilServer ++ [.edit, .edit, .next, .edit, .edit, .edit, .next, .removed,
    .list ["llama-server", "libggml.so"], .mark true, .mark true, .finish]

theorem ensure_all_or_nothing_two_files :
    ((runMeeting (installStep twoFiles) twoFiles.Undisturbed (.idle emptyCache) wholeInstall).map
        InstallWorld.answer = some (some .installed)) ∧
      ∀ world, runMeeting (installStep twoFiles) twoFiles.Undisturbed (.idle emptyCache)
        wholeInstall = some world → twoFiles.Whole world := by
  have answers : (runMeeting (installStep twoFiles) twoFiles.Undisturbed (.idle emptyCache)
      wholeInstall).map InstallWorld.answer = some (some .installed) := by decide
  refine ⟨answers, ?_⟩
  intro world ran
  rw [ran, Option.map_some, Option.some.injEq] at answers
  exact ensure_all_or_nothing (by decide) (runMeeting_reaches ran) answers

/-- The place of the library once it is extracted. -/
def libraryPlace : Location := ["cache", "engine", "libggml.so"]

/-- A process that ends with the server just put there, and an attempt after it. -/
theorem killed_install_answered :
    ¬∀ world, run (installStep twoFiles) (.idle emptyCache) (untilServer ++ [.stop none, .ensure]) =
      some world → world.answer = some .installed → twoFiles.Whole world := by
  intro claimed
  have facts : (run (installStep twoFiles) (.idle emptyCache)
      (untilServer ++ [.stop none, .ensure])).map (fun world =>
        (world.answer, world.disk.node libraryPlace, (world.began.bind (extractAll twoFiles.extract)).map
          fun after => after.node libraryPlace)) =
      some (some .installed, none, some (some (.file [2] 0o644))) := by decide
  obtain ⟨world, ran, seen⟩ := Option.map_eq_some_iff.mp facts
  simp only [Prod.mk.injEq] at seen
  obtain ⟨answered, missing, whole⟩ := seen
  obtain ⟨before, after, began, extracted, same, _⟩ := claimed world ran answered
  simp only [began, Option.bind_some, extracted, Option.map_some, Option.some.injEq] at whole
  have there := same libraryPlace
  rw [missing, whole] at there
  cases there

end Sample

end Lightweight.Backend
