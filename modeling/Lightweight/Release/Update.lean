import Mathlib.Logic.Function.Basic
import Mathlib.Data.List.Nodup

/-! The self-update: the aliases are replaced one after the other, from the release archive or by
Cargo, and what was there is kept aside until all are. -/

namespace Lightweight.Release

inductive Cli where
  | hermes
  | lightweight
deriving DecidableEq, Repr

def Cli.other : Cli → Cli
  | .hermes => .lightweight
  | .lightweight => .hermes

def updateOrder : List Cli := [.hermes, .lightweight]

inductive Method where
  | releaseArchive
  | cargoSource
deriving DecidableEq, Repr

/-- The steps that may fail. -/
inductive Op where
  | extract (cli : Cli)
  | verify (cli : Cli)
  | clearBackup (cli : Cli)
  | moveAside (cli : Cli)
  | moveIn (cli : Cli)
  /-- The restore of an alias that could not be moved in. -/
  | putBack (cli : Cli)
  | cargoRoot
  | copyAside (cli : Cli)
  | startCargo (cli : Cli)
  /-- The restore of an alias when the update is rolled back. -/
  | undo (cli : Cli)
deriving DecidableEq, Repr

inductive UpdateError where
  | step (op : Op)
  /-- An alias could not be moved in, nor what was there back. -/
  | lost (cli : Cli)
  | cargoFailed (cli : Cli)
deriving DecidableEq, Repr

/-- What a run of Cargo replaces: where it succeeds, every binary of the package. -/
structure CargoRun where
  succeeds : Bool
  replaces : Cli → Bool
  whole : succeeds = true → ∀ cli, replaces cli = true

/-- The files at the paths of the aliases, and beside them. -/
structure Binaries (β : Type) where
  file : Cli → Option β
  backup : Cli → Option β

/-- What comes of each step, what the release holds, and what Cargo does for each alias. -/
structure Setting (β : Type) where
  ok : Op → Bool
  fresh : Cli → β
  cargo : Cli → CargoRun

/-- The aliases replaced so far, the newest first, with whether there is a copy of what was there. -/
abbrev Applied := List (Cli × Bool)

/-- Where a step leaves off. -/
structure Outcome (β : Type) where
  bins : Binaries β
  applied : Applied
  error : Option UpdateError

inductive Result where
  | updated
  /-- "The update was rolled back; every installed binary is as it was." -/
  | rolledBack (error : UpdateError)
  | rollBackFailed (error : UpdateError) (unrestored : List Cli)
deriving DecidableEq, Repr

section Update

variable {β : Type} (setting : Setting β)

def Binaries.setFile (bins : Binaries β) (cli : Cli) (held : Option β) : Binaries β :=
  { bins with file := Function.update bins.file cli held }

def Binaries.setBackup (bins : Binaries β) (cli : Cli) (held : Option β) : Binaries β :=
  { bins with backup := Function.update bins.backup cli held }

/-- What was there comes back, if the step succeeds; where nothing was, what is there goes. -/
def restore (op : Op) (cli : Cli) (backed : Bool) (bins : Binaries β) : Binaries β × Bool :=
  match backed, bins.backup cli, bins.file cli with
  | true, some old, _ =>
      if setting.ok op then ((bins.setFile cli (some old)).setBackup cli none, true)
      else (bins, false)
  | true, none, _ => (bins, false)
  | false, _, some _ => if setting.ok op then (bins.setFile cli none, true) else (bins, false)
  | false, _, none => (bins, true)

/-- The newest first. What could not be restored is told. -/
def rollBack : Applied → Binaries β → Binaries β × List Cli
  | [], bins => (bins, [])
  | (cli, backed) :: rest, bins =>
      let (restored, done) := restore setting (.undo cli) cli backed bins
      let (left, unrestored) := rollBack rest restored
      (left, if done then unrestored else cli :: unrestored)

def installStaged (cli : Cli) (bins : Binaries β) (applied : Applied) : Outcome β :=
  match bins.file cli with
  | some old =>
      if !setting.ok (.clearBackup cli) then ⟨bins, applied, some (.step (.clearBackup cli))⟩
      else
        let cleared := bins.setBackup cli none
        if !setting.ok (.moveAside cli) then ⟨cleared, applied, some (.step (.moveAside cli))⟩
        else
          let aside := (cleared.setFile cli none).setBackup cli (some old)
          if setting.ok (.moveIn cli) then
            ⟨aside.setFile cli (some (setting.fresh cli)), (cli, true) :: applied, none⟩
          else
            let (back, done) := restore setting (.putBack cli) cli true aside
            ⟨back, applied, some (if done then .step (.moveIn cli) else .lost cli)⟩
  | none =>
      if setting.ok (.moveIn cli) then
        ⟨bins.setFile cli (some (setting.fresh cli)), (cli, false) :: applied, none⟩
      else
        let (back, done) := restore setting (.putBack cli) cli false bins
        ⟨back, applied, some (if done then .step (.moveIn cli) else .lost cli)⟩

def installFromArchive (cli : Cli) (bins : Binaries β) (applied : Applied) : Outcome β :=
  if !setting.ok (.extract cli) then ⟨bins, applied, some (.step (.extract cli))⟩
  else if !setting.ok (.verify cli) then ⟨bins, applied, some (.step (.verify cli))⟩
  else installStaged setting cli bins applied

/-- What is there is copied aside. -/
def preserve (cli : Cli) (bins : Binaries β) (applied : Applied) : Outcome β :=
  match bins.file cli with
  | some old =>
      if !setting.ok (.clearBackup cli) then ⟨bins, applied, some (.step (.clearBackup cli))⟩
      else if !setting.ok (.copyAside cli) then
        ⟨bins.setBackup cli none, applied, some (.step (.copyAside cli))⟩
      else ⟨bins.setBackup cli (some old), (cli, true) :: applied, none⟩
  | none => ⟨bins, (cli, false) :: applied, none⟩

/-- The aliases that a run of Cargo replaces are new. -/
def cargoReplaces (cli : Cli) (bins : Binaries β) : Binaries β :=
  { bins with
    file := fun each =>
      if (setting.cargo cli).replaces each then some (setting.fresh each) else bins.file each }

def cargoInstall (cli : Cli) (bins : Binaries β) (applied : Applied) : Outcome β :=
  if !setting.ok .cargoRoot then ⟨bins, applied, some (.step .cargoRoot)⟩
  else
    match preserve setting cli bins applied with
    | ⟨bins, applied, some error⟩ => ⟨bins, applied, some error⟩
    | ⟨bins, applied, none⟩ =>
        if !setting.ok (.startCargo cli) then ⟨bins, applied, some (.step (.startCargo cli))⟩
        else
          let built := cargoReplaces setting cli bins
          if !(setting.cargo cli).succeeds then ⟨built, applied, some (.cargoFailed cli)⟩
          else if !setting.ok (.verify cli) then ⟨built, applied, some (.step (.verify cli))⟩
          else ⟨built, applied, none⟩

def install (method : Method) (cli : Cli) (bins : Binaries β) (applied : Applied) : Outcome β :=
  match method with
  | .releaseArchive => installFromArchive setting cli bins applied
  | .cargoSource => cargoInstall setting cli bins applied

/-- One alias after the other; the first error rolls all of them back. -/
def updateEach (method : Method) (pending : Cli → Bool) :
    List Cli → Binaries β → Applied → Result × Binaries β
  | [], bins, _ => (.updated, bins)
  | cli :: rest, bins, applied =>
      if !pending cli then updateEach method pending rest bins applied
      else
        match install setting method cli bins applied with
        | ⟨bins, applied, none⟩ => updateEach method pending rest bins applied
        | ⟨bins, applied, some error⟩ =>
            let (left, unrestored) := rollBack setting applied bins
            (if unrestored = [] then .rolledBack error else .rollBackFailed error unrestored, left)

def update (method : Method) (pending : Cli → Bool) (bins : Binaries β) : Result × Binaries β :=
  updateEach setting method pending updateOrder bins []

end Update

end Lightweight.Release
