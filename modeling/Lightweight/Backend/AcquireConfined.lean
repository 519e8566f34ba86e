import Lightweight.Backend.Acquire

/-! Where the entries of a tar archive go. Names are checked part by part; a link that an earlier
entry has left among the directories is followed all the same. -/

namespace Lightweight.Backend

open Filesystem

/-- The entries that the extraction comes to, each with the disk that it finds. -/
def unpacked (extract : TarEntry → Filesystem → Outcome) :
    List TarEntry → Filesystem → List (TarEntry × Filesystem)
  | [], _ => []
  | entry :: rest, fs =>
      (entry, fs) ::
        match (extract entry fs).failure with
        | none => unpacked extract rest (fs.edits (extract entry fs).edits)
        | some _ => []

section Places

variable (cwd : Location) (install : List Component)

/-- Whether a place is under the install directory as the links stand. -/
def Inside (fs : Filesystem) (place : Location) : Prop :=
  ∃ base ∈ fs.directoryAt cwd install, base <+: place

instance (fs : Filesystem) (place : Location) : Decidable (Inside cwd install fs place) :=
  inferInstanceAs (Decidable (∃ base ∈ _, _))

/-- Whether an entry has something to put at its place, in a directory that is there. -/
def Puts (fs : Filesystem) (place : Location) : TarKind → Prop
  | .directory => fs.node place = none
  | .file _ _ => fs.node place ≠ some .directory
  | .symlink aim => aim ≠ "" ∧ fs.node place ≠ some .directory
  | .hardLink source =>
      fs.node place = none ∧
        ∃ node, fs.entryAt cwd (components source) = some node ∧ node ≠ .directory

/-- An entry that has something to make has the last directory there is on its way, links followed,
under the install directory. -/
def Anchored (shared : Option String) (entry : TarEntry) (fs : Filesystem) : Prop :=
  ∀ names dir missing, safeJoin (stripPrefix (components entry.name) shared) = some names →
    fs.nearest cwd install names.dropLast = some (dir, missing) →
    missing ≠ [] ∨ Puts cwd fs (dir ++ [names.getLastD ""]) entry.kind →
    Inside cwd install fs dir

end Places

def TarKind.isPlain : TarKind → Bool
  | .directory | .file _ _ => true
  | .symlink _ | .hardLink _ => false

section Entry

variable {cwd place dir : Location} {install target : List Component} {fs : Filesystem}
  {kind : TarKind} {shared : Option String} {entry : TarEntry}

/-- What all the changes are that unpacking an entry makes. -/
theorem forall_unpack {P : Edit → Prop} (mkdir : P (.mkdir place)) (unlink : P (.unlink place))
    (file : ∀ contents mode, P (.put place (.file contents mode)))
    (append : ∀ byte, P (.append place byte)) (chmod : ∀ mode, P (.chmod place mode))
    (link : kind.isPlain = false → ∀ aim, P (.put place (.link aim))) :
    ∀ change ∈ (unpack cwd fs target place kind).edits, P change := by
  have replaced : ∀ changes : List Edit, (∀ change ∈ changes, P change) →
      ∀ change ∈ (replacing fs place changes).edits, P change := by
    intro changes all
    unfold replacing
    split
    · exact all
    · exact fun change made => by cases made
    · exact List.forall_mem_cons.mpr ⟨unlink, all⟩
  unfold unpack
  cases kind with
  | directory =>
      dsimp only
      split
      · exact fun change made => List.mem_singleton.mp made ▸ mkdir
      · split
        · exact fun change made => by cases made
        · exact fun change made => by cases made
  | file contents mode =>
      apply replaced
      rw [List.forall_mem_append, List.forall_mem_cons]
      refine ⟨⟨file _ _, ?_⟩, fun change made => List.mem_singleton.mp made ▸ chmod _⟩
      intro change made
      obtain ⟨byte, _, rfl⟩ := List.mem_map.mp made
      exact append byte
  | symlink aim =>
      dsimp only
      split
      · exact fun change made => by cases made
      · apply replaced
        exact fun change made => List.mem_singleton.mp made ▸ link rfl _
  | hardLink source =>
      dsimp only
      split
      · exact fun change made => List.mem_singleton.mp made ▸ file _ _
      · exact fun change made => List.mem_singleton.mp made ▸ link rfl _
      · exact fun change made => by cases made

/-- Unpacking changes nothing but the entry's place. -/
theorem place_unpack : ∀ change ∈ (unpack cwd fs target place kind).edits, change.place = place :=
  forall_unpack rfl rfl (fun _ _ => rfl) (fun _ => rfl) (fun _ => rfl) (fun _ _ => rfl)

theorem replacing_nonempty {change : Edit} {changes : List Edit} :
    (replacing fs place (change :: changes)).edits ≠ [] ↔ fs.node place ≠ some .directory := by
  unfold replacing
  split
  · rename_i absent
    simp [absent]
  · rename_i isDir
    simp [isDir]
  · rename_i other there
    simp only [ne_eq, reduceCtorEq, not_false_eq_true, true_iff, there, Option.some.injEq]
    exact fun isDir => other isDir

theorem unpack_nonempty (target : List Component) :
    (unpack cwd fs target place kind).edits ≠ [] ↔ Puts cwd fs place kind := by
  unfold unpack Puts
  cases kind with
  | directory =>
      cases there : fs.node place with
      | none => simp
      | some node =>
          dsimp only
          split <;> simp
  | file contents mode => exact replacing_nonempty
  | symlink aim =>
      by_cases silent : aim = ""
      · simp [silent]
      · simp only [silent, if_false, ne_eq, not_false_eq_true, true_and]
        exact replacing_nonempty
  | hardLink source =>
      dsimp only
      cases fs.node place with
      | some node => simp
      | none =>
          cases fs.entryAt cwd (components source) with
          | none => simp
          | some node => cases node <;> simp

/-- A place under a directory that is no directory itself is under it from its parent on. -/
theorem inside_parent {name : String} (free : fs.node (dir ++ [name]) ≠ some .directory) :
    Inside cwd install fs (dir ++ [name]) ↔ Inside cwd install fs dir := by
  unfold Inside
  constructor
  · intro inside
    obtain ⟨base, based, under⟩ := inside
    refine ⟨base, based, ?_⟩
    rcases List.prefix_concat_iff.mp under with same | above
    · rw [same] at based
      exact absurd (directoryAt_iff.mp based).2 free
    · exact above
  · intro inside
    obtain ⟨base, based, under⟩ := inside
    exact ⟨base, based, under.trans (List.prefix_append _ _)⟩

theorem Inside.below {deeper : Location} (inside : Inside cwd install fs dir)
    (under : dir <+: deeper) : Inside cwd install fs deeper := by
  obtain ⟨base, based, above⟩ := inside
  exact ⟨base, based, above.trans under⟩

theorem puts_free (puts : Puts cwd fs place kind) : fs.node place ≠ some .directory := by
  unfold Puts at puts
  cases kind with
  | directory => simp [puts]
  | file contents mode => exact puts
  | symlink aim => exact puts.2
  | hardLink source => simp [puts.1]

/-- What an entry makes is under the install directory just where the entry is anchored in it. -/
theorem entry_inside_iff :
    (∀ change ∈ (extractTarEntry cwd install shared entry fs).edits,
        Inside cwd install fs change.place) ↔ Anchored cwd install shared entry fs := by
  unfold extractTarEntry Anchored
  by_cases top : stripPrefix (components entry.name) shared = []
  · simp [top, safeJoin, plainNames]
  simp only [top, if_false]
  cases joined : safeJoin (stripPrefix (components entry.name) shared) with
  | none => simp
  | some names =>
      dsimp only
      cases found : fs.nearest cwd install names.dropLast with
      | none =>
          rw [within_blocked found]
          refine iff_of_true (fun _ made => by cases made) ?_
          intro others dir missing same reached
          cases same
          rw [found] at reached
          cases reached
      | some reached =>
          obtain ⟨dir, missing⟩ := reached
          rw [within_eq found]
          obtain ⟨walked, _, there, free⟩ := nearest_spec found
          constructor
          · intro inside others dir' missing' same reached work
            cases same
            rw [found] at reached
            cases reached
            cases missing with
            | cons name rest =>
                have first := inside (.mkdir (dir ++ [name])) (by simp [mkdirs])
                exact (inside_parent (by simp [free name rfl])).mp first
            | nil =>
                have puts := work.resolve_left (fun some_missing => some_missing rfl)
                simp only [mkdirs, edits, List.foldl_nil, List.append_nil,
                  List.nil_append] at inside
                obtain ⟨change, made⟩ :=
                  List.exists_mem_of_ne_nil _ ((unpack_nonempty _).mpr puts)
                have under := inside change made
                rw [place_unpack change made] at under
                exact (inside_parent (puts_free puts)).mp under
          · intro anchored change made
            have under := anchored names dir missing rfl found
            rcases List.mem_append.mp made with before | last
            · cases missing with
              | nil => cases before
              | cons name rest => exact (under (Or.inl (by simp))).below (place_mkdirs before)
            · rw [place_unpack change last]
              cases missing with
              | cons name rest =>
                  apply (under (Or.inl (by simp))).below
                  rw [List.append_assoc]
                  exact List.prefix_append _ _
              | nil =>
                  have puts := (unpack_nonempty _).mp (List.ne_nil_of_mem last)
                  simp only [mkdirs, edits, List.foldl_nil, List.append_nil] at puts ⊢
                  exact (under (Or.inr puts)).below (List.prefix_append _ _)

end Entry

section Names

variable {names : List String} {shared name other : String} {found : Option String}

theorem sharedBy_some (shares : sharedBy found names = some shared) :
    (∀ existing, found = some existing → existing = shared) ∧
      ∀ name ∈ names, ∃ rest, components name = .normal shared :: rest := by
  induction names generalizing found with
  | nil =>
      rw [sharedBy] at shares
      subst shares
      exact ⟨fun existing same => (Option.some.inj same).symm, by simp⟩
  | cons name names ih =>
      unfold sharedBy at shares
      split at shares
      · rename_i first beneath parts
        split at shares
        · cases shares
        · cases found with
          | none =>
              obtain ⟨same, tail⟩ := ih shares
              have here := same first rfl
              subst here
              refine ⟨by simp, ?_⟩
              exact List.forall_mem_cons.mpr ⟨⟨beneath, parts⟩, tail⟩
          | some existing =>
              dsimp only at shares
              split at shares
              · cases shares
              · rename_i alike
                rw [ne_eq, not_not] at alike
                subst alike
                obtain ⟨same, tail⟩ := ih shares
                have here := same existing rfl
                subst here
                exact ⟨same, List.forall_mem_cons.mpr ⟨⟨beneath, parts⟩, tail⟩⟩
      · cases shares

/-- The parts of a name are those that stripping leaves, behind the directory that is stripped. -/
theorem components_eq_stripPrefix (listed : name ∈ names) :
    components name =
      (commonPrefix names).toList.map .normal ++
        stripPrefix (components name) (commonPrefix names) := by
  cases shares : commonPrefix names with
  | none => simp [stripPrefix]
  | some shared =>
      obtain ⟨rest, parts⟩ := (sharedBy_some shares).2 name listed
      simp [parts, stripPrefix]

/-- Names that are stripped alike are alike. -/
theorem stripPrefix_injective (listed : name ∈ names) (listed' : other ∈ names)
    (alike : stripPrefix (components name) (commonPrefix names) =
      stripPrefix (components other) (commonPrefix names)) : components name = components other := by
  rw [components_eq_stripPrefix listed, components_eq_stripPrefix listed', alike]

theorem plainNames_eq {path : List Component} {parts : List String}
    (plain : plainNames path = some parts) :
    path.filter (· ≠ .curDir) = parts.map .normal := by
  induction path generalizing parts with
  | nil =>
      cases plain
      rfl
  | cons part rest ih =>
      cases part with
      | rootDir => simp [plainNames] at plain
      | parentDir => simp [plainNames] at plain
      | curDir =>
          rw [plainNames] at plain
          simpa using ih plain
      | normal name =>
          rw [plainNames, Option.map_eq_some_iff] at plain
          obtain ⟨tail, plain, rfl⟩ := plain
          simpa using ih plain

/-- Names that go to one place are alike, dots apart. -/
theorem safeJoin_injective {place : List String} (listed : name ∈ names) (listed' : other ∈ names)
    (here : safeJoin (stripPrefix (components name) (commonPrefix names)) = some place)
    (there : safeJoin (stripPrefix (components other) (commonPrefix names)) = some place) :
    (components name).filter (· ≠ .curDir) = (components other).filter (· ≠ .curDir) := by
  rw [components_eq_stripPrefix listed, components_eq_stripPrefix listed', List.filter_append,
    List.filter_append, plainNames_eq (Option.filter_eq_some_iff.mp here).1,
    plainNames_eq (Option.filter_eq_some_iff.mp there).1]

end Names

section Extraction

variable (cwd : Location) (install : List Component) (entries : List TarEntry)

def tarNames : List String := entries.map TarEntry.name

def tarPrefix : Option String := commonPrefix (tarNames entries)

/-- The entries that `extract_tar_gz` comes to, each with the disk that it finds. -/
def tarSteps (fs : Filesystem) : List (TarEntry × Filesystem) :=
  unpacked (extractTarEntry cwd install (tarPrefix entries)) entries fs

/-- All that is created or overwritten is under the install directory, links followed as they stand,
and stripping keeps different names apart, in what is left of them and, dots apart, in where they
go, just where every entry that the extraction comes to, if it has something to make, has the last
directory there is on its way under the install directory. -/
theorem extraction_inside_iff (fs : Filesystem) :
    ((∀ step ∈ tarSteps cwd install entries fs,
        ∀ change ∈ (extractTarEntry cwd install (tarPrefix entries) step.1 step.2).edits,
          Inside cwd install step.2 change.place) ∧
      ∀ name ∈ tarNames entries, ∀ other ∈ tarNames entries,
        (components name ≠ components other →
          stripPrefix (components name) (tarPrefix entries) ≠
            stripPrefix (components other) (tarPrefix entries)) ∧
        ∀ place, safeJoin (stripPrefix (components name) (tarPrefix entries)) = some place →
          safeJoin (stripPrefix (components other) (tarPrefix entries)) = some place →
            (components name).filter (· ≠ .curDir) = (components other).filter (· ≠ .curDir)) ↔
      ∀ step ∈ tarSteps cwd install entries fs,
        Anchored cwd install (tarPrefix entries) step.1 step.2 := by
  constructor
  · exact fun inside step reached => entry_inside_iff.mp (inside.1 step reached)
  · intro anchored
    refine ⟨fun step reached => entry_inside_iff.mpr (anchored step reached), ?_⟩
    intro name listed other listed'
    refine ⟨fun apart alike => apart (stripPrefix_injective listed listed' alike), ?_⟩
    exact fun place here there => safeJoin_injective listed listed' here there

end Extraction

section Plain

variable {cwd base : Location} {install : List Component} {fs : Filesystem} {entry : TarEntry}
  {entries : List TarEntry} {shared : Option String}

/-- The install directory, with no link in it. -/
structure Unlinked (cwd : Location) (install : List Component) (fs : Filesystem) : Prop where
  there : ∃ base, fs.directoryAt cwd install = some base
  plain : ∀ base ∈ fs.directoryAt cwd install, ∀ place aim, base <+: place →
    fs.node place ≠ some (.link aim)

theorem Unlinked.anchored (unlinked : Unlinked cwd install fs) :
    Anchored cwd install shared entry fs := by
  intro names dir missing _ found _
  obtain ⟨base, based⟩ := unlinked.there
  exact ⟨base, based,
    nearest_below based (List.prefix_refl base) (unlinked.plain base based) found⟩

/-- Changes below the install directory that put no link. -/
theorem Unlinked.edits {changes : List Edit} (unlinked : Unlinked cwd install fs)
    (inside : ∀ change ∈ changes, Inside cwd install fs change.place)
    (plain : ∀ change ∈ changes, ∀ place aim, change ≠ .put place (.link aim)) :
    Unlinked cwd install (fs.edits changes) := by
  induction changes generalizing fs with
  | nil => exact unlinked
  | cons change changes ih =>
      rw [List.forall_mem_cons] at inside plain
      obtain ⟨base, based⟩ := unlinked.there
      have keeps : fs.Keeps (fs.edit change) := by
        apply edit_keeps
        intro aim
        obtain ⟨base', based', under⟩ := inside.1
        exact unlinked.plain base' based' _ aim under
      have still := directoryAt_keeps keeps based
      apply ih
      · refine ⟨⟨base, still⟩, ?_⟩
        intro base' based' place aim under
        rw [Option.mem_def, still] at based'
        cases based'
        exact edit_unlinked plain.1 (fun aim => unlinked.plain base based place aim under) aim
      · intro other made
        obtain ⟨base', based', under⟩ := inside.2 other made
        rw [Option.mem_def, based] at based'
        cases based'
        exact ⟨base, still, under⟩
      · exact plain.2

/-- A plain entry leaves the install directory without links. -/
theorem Unlinked.extract (unlinked : Unlinked cwd install fs)
    (isPlain : entry.kind.isPlain = true) :
    Unlinked cwd install (fs.edits (extractTarEntry cwd install shared entry fs).edits) := by
  apply unlinked.edits (entry_inside_iff.mpr unlinked.anchored)
  unfold extractTarEntry
  dsimp only
  split
  · exact fun change made => by cases made
  · split
    · exact fun change made => by cases made
    · rename_i names joined
      cases found : fs.nearest cwd install names.dropLast with
      | none =>
          rw [within_blocked found]
          exact fun change made => by cases made
      | some reached =>
          rw [within_eq found, List.forall_mem_append]
          constructor
          · intro change made place aim same
            subst same
            exact put_mkdirs made
          · apply forall_unpack
            case link => simp [isPlain]
            all_goals simp

/-- Files and directories that are extracted to where no links are stay inside. -/
theorem plain_archive_inside (unlinked : Unlinked cwd install fs)
    (isPlain : ∀ entry ∈ entries, entry.kind.isPlain = true) :
    ∀ step ∈ tarSteps cwd install entries fs,
      ∀ change ∈ (extractTarEntry cwd install (tarPrefix entries) step.1 step.2).edits,
        Inside cwd install step.2 change.place := by
  unfold tarSteps
  generalize tarPrefix entries = shared
  induction entries generalizing fs with
  | nil => exact fun step reached => by cases reached
  | cons entry entries ih =>
      rw [List.forall_mem_cons] at isPlain
      intro step reached
      rcases List.mem_cons.mp reached with rfl | later
      · exact entry_inside_iff.mpr unlinked.anchored
      · split at later
        · exact ih (unlinked.extract isPlain.1) isPlain.2 step later
        · cases later

end Plain

/-- A disk with an empty install directory beside another one. -/
def besideEtc : Filesystem := bare.edits [.mkdir ["install"], .mkdir ["etc"]]

/-- A link out of the install directory, and a file behind it. -/
def linkedOut : List TarEntry :=
  [⟨"x", .symlink "/etc"⟩, ⟨"x/passwd", .file [114] 0o644⟩]

theorem file_behind_link_outside :
    ¬∀ step ∈ tarSteps [] [.rootDir, .normal "install"] linkedOut besideEtc,
      ∀ change ∈ (extractTarEntry [] [.rootDir, .normal "install"] (tarPrefix linkedOut)
        step.1 step.2).edits, Inside [] [.rootDir, .normal "install"] step.2 change.place := by
  decide +kernel

end Lightweight.Backend
