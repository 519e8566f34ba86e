import Lightweight.Release.Update

/-! What an update that was rolled back leaves at the paths of the aliases. -/

namespace Lightweight.Release

variable {β : Type} {setting : Setting β} {bins : Binaries β} {cli : Cli} {applied : Applied}

/-- Nothing but one alias is touched. -/
def Binaries.SameBut (cli : Cli) (bins later : Binaries β) : Prop :=
  ∀ other, other ≠ cli → later.file other = bins.file other ∧ later.backup other = bins.backup other

theorem Binaries.SameBut.trans {later last : Binaries β} (first : bins.SameBut cli later)
    (second : later.SameBut cli last) : bins.SameBut cli last := by
  intro other apart
  exact ⟨(second other apart).1.trans (first other apart).1,
    (second other apart).2.trans (first other apart).2⟩

theorem setFile_same (held : Option β) : bins.SameBut cli (bins.setFile cli held) :=
  fun _ apart => ⟨Function.update_of_ne apart _ _, rfl⟩

theorem setBackup_same (held : Option β) : bins.SameBut cli (bins.setBackup cli held) :=
  fun _ apart => ⟨rfl, Function.update_of_ne apart _ _⟩

@[simp] theorem file_setFile (held : Option β) : (bins.setFile cli held).file cli = held :=
  Function.update_self ..

@[simp] theorem backup_setFile (held : Option β) :
    (bins.setFile cli held).backup = bins.backup := rfl

@[simp] theorem file_setBackup (held : Option β) :
    (bins.setBackup cli held).file = bins.file := rfl

@[simp] theorem backup_setBackup (held : Option β) : (bins.setBackup cli held).backup cli = held :=
  Function.update_self ..

theorem restore_same (op : Op) (backed : Bool) :
    bins.SameBut cli (restore setting op cli backed bins).1 := by
  unfold restore
  split
  · split
    · exact (setFile_same _).trans (setBackup_same _)
    · exact fun _ _ => ⟨rfl, rfl⟩
  · exact fun _ _ => ⟨rfl, rfl⟩
  · split
    · exact setFile_same _
    · exact fun _ _ => ⟨rfl, rfl⟩
  · exact fun _ _ => ⟨rfl, rfl⟩

/-- A restore that is done leaves what was copied, or nothing. -/
theorem restore_file {op : Op} {backed : Bool}
    (done : (restore setting op cli backed bins).2 = true) :
    (restore setting op cli backed bins).1.file cli = if backed then bins.backup cli else none := by
  unfold restore at done ⊢
  split
  · rename_i old held
    split
    · simp [held]
    · rename_i failed
      simp [failed, held] at done
  · rename_i held
    simp [held] at done
  · rename_i old there
    split
    · simp
    · rename_i failed
      simp [failed, there] at done
  · rename_i gone
    exact gone

theorem rollBack_file (apart : (applied.map Prod.fst).Nodup)
    (all : (rollBack setting applied bins).2 = []) (cli : Cli) :
    (∀ backed, (cli, backed) ∈ applied →
      (rollBack setting applied bins).1.file cli = if backed then bins.backup cli else none) ∧
    (cli ∉ applied.map Prod.fst → (rollBack setting applied bins).1.file cli = bins.file cli) := by
  induction applied generalizing bins with
  | nil => exact ⟨by simp, fun _ => rfl⟩
  | cons head rest ih =>
      obtain ⟨first, backed⟩ := head
      rw [List.map_cons, List.nodup_cons] at apart
      simp only [rollBack] at all ⊢
      split at all
      · rename_i done
        obtain ⟨inside, outside⟩ := ih apart.2 all
        constructor
        · intro held member
          rcases List.mem_cons.mp member with same | later
          · cases same
            rw [outside apart.1, restore_file done]
          · have other : cli ≠ first := by
              intro same
              have listed : cli ∈ rest.map Prod.fst := List.mem_map.mpr ⟨(cli, held), later, rfl⟩
              exact apart.1 (same ▸ listed)
            rw [inside held later, (restore_same _ _ cli other).2]
        · intro absent
          rw [List.map_cons, List.mem_cons, not_or] at absent
          rw [outside absent.2, (restore_same _ _ cli absent.1).1]
      · cases all

section Archive

/-- Whether an alias is replaced from the archive. -/
def replaced (setting : Setting β) (bins : Binaries β) (cli : Cli) : Bool :=
  setting.ok (.extract cli) && setting.ok (.verify cli) &&
    ((bins.file cli).isNone || (setting.ok (.clearBackup cli) && setting.ok (.moveAside cli))) &&
    setting.ok (.moveIn cli)

/-- An alias that was moved aside, whose successor could not be moved in, nor it back. -/
def Stranded (setting : Setting β) (bins : Binaries β) (cli : Cli) : Prop :=
  (bins.file cli).isSome = true ∧ setting.ok (.extract cli) = true ∧
    setting.ok (.verify cli) = true ∧ setting.ok (.clearBackup cli) = true ∧
    setting.ok (.moveAside cli) = true ∧ setting.ok (.moveIn cli) = false ∧
    setting.ok (.putBack cli) = false

theorem installStaged_same (applied : Applied) : bins.SameBut cli (installStaged setting cli bins applied).bins := by
  have refl : bins.SameBut cli bins := fun _ _ => ⟨rfl, rfl⟩
  unfold installStaged
  split
  · rename_i old there
    have cleared : bins.SameBut cli (bins.setBackup cli none) := setBackup_same none
    split
    · exact refl
    · dsimp only
      split
      · exact cleared
      · have aside := (cleared.trans (setFile_same none)).trans (setBackup_same (some old))
        split
        · exact aside.trans (setFile_same _)
        · exact aside.trans (restore_same _ _)
  · split
    · exact setFile_same _
    · exact restore_same _ _

theorem archive_same (setting : Setting β) (cli : Cli) (bins : Binaries β) (applied : Applied) : bins.SameBut cli (installFromArchive setting cli bins applied).bins := by
  have refl : bins.SameBut cli bins := fun _ _ => ⟨rfl, rfl⟩
  unfold installFromArchive
  split
  · exact refl
  · split
    · exact refl
    · exact installStaged_same applied

/-- An alias that is replaced has what was there logged. -/
theorem archive_replaced (applied : Applied) (succeeds : replaced setting bins cli = true) :
    (installFromArchive setting cli bins applied).error = none ∧
      (installFromArchive setting cli bins applied).applied =
        (cli, (bins.file cli).isSome) :: applied ∧
      (if (bins.file cli).isSome then
        (installFromArchive setting cli bins applied).bins.backup cli else none) = bins.file cli := by
  simp only [replaced, Bool.and_eq_true, Bool.or_eq_true] at succeeds
  obtain ⟨⟨⟨extracted, verified⟩, moved⟩, placed⟩ := succeeds
  unfold installFromArchive installStaged
  cases there : bins.file cli with
  | none => simp [extracted, verified, placed]
  | some old =>
      simp only [there, Option.isNone_some, Bool.false_eq_true, false_or] at moved
      simp [extracted, verified, placed, moved]

/-- One that is not is as it was, but for one that is stranded. -/
theorem archive_failed (applied : Applied) (fails : replaced setting bins cli = false) :
    (installFromArchive setting cli bins applied).error ≠ none ∧
      (installFromArchive setting cli bins applied).applied = applied ∧
      ((installFromArchive setting cli bins applied).bins.file cli = bins.file cli ↔
        ¬Stranded setting bins cli) := by
  unfold installFromArchive installStaged Stranded
  unfold replaced at fails
  cases extracted : setting.ok (.extract cli)
  · simp
  cases verified : setting.ok (.verify cli)
  · simp
  cases there : bins.file cli with
  | none =>
      simp only [extracted, verified, there, Option.isNone_none, Bool.true_or, Bool.and_self,
        Bool.true_and] at fails
      simp [fails, restore, there]
  | some old =>
      cases cleared : setting.ok (.clearBackup cli)
      · simp [there]
      cases moved : setting.ok (.moveAside cli)
      · simp [there]
      simp only [extracted, verified, cleared, moved, Bool.and_self, Bool.or_true,
        Bool.true_and] at fails
      cases back : setting.ok (.putBack cli)
      · simp [fails, restore, back]
      · simp [fails, restore, back]

end Archive

section Each

variable (method : Method) {pending : Cli → Bool} {rest : List Cli} {error : UpdateError}

theorem updateEach_skip (skips : pending cli = false) :
    updateEach setting method pending (cli :: rest) bins applied =
      updateEach setting method pending rest bins applied := by
  simp [updateEach, skips]

theorem updateEach_next (asked : pending cli = true)
    (fine : (install setting method cli bins applied).error = none) :
    updateEach setting method pending (cli :: rest) bins applied =
      updateEach setting method pending rest (install setting method cli bins applied).bins
        (install setting method cli bins applied).applied := by
  cases outcome : install setting method cli bins applied with
  | mk bins applied error =>
      rw [outcome] at fine
      subst fine
      simp [updateEach, asked, outcome]

/-- An update that ends with an alias that fails, and says that it was rolled back, has restored all
that was logged. -/
theorem updateEach_failed (asked : pending cli = true)
    (failed : (install setting method cli bins applied).error ≠ none)
    (ended : (updateEach setting method pending (cli :: rest) bins applied).1 = .rolledBack error) :
    (rollBack setting (install setting method cli bins applied).applied
        (install setting method cli bins applied).bins).2 = [] ∧
      (updateEach setting method pending (cli :: rest) bins applied).2 =
        (rollBack setting (install setting method cli bins applied).applied
          (install setting method cli bins applied).bins).1 := by
  cases outcome : install setting method cli bins applied with
  | mk bins applied first =>
      rw [outcome] at failed
      obtain ⟨reason, there⟩ := Option.ne_none_iff_exists'.mp failed
      simp only at there
      subst there
      simp only [updateEach, asked, outcome, Bool.not_true, Bool.false_eq_true, if_false] at ended ⊢
      split at ended
      · rename_i all
        exact ⟨all, trivial⟩
      · cases ended

end Each

theorem forall_cli {P : Cli → Prop} : (∀ cli, P cli) ↔ P .hermes ∧ P .lightweight := by
  constructor
  · exact fun all => ⟨all .hermes, all .lightweight⟩
  · intro both cli
    cases cli
    · exact both.1
    · exact both.2

/-- Whether what is at the path of an alias can be copied aside. -/
def copies (setting : Setting β) (bins : Binaries β) (cli : Cli) : Bool :=
  (bins.file cli).isNone || (setting.ok (.clearBackup cli) && setting.ok (.copyAside cli))

/-- Whether Cargo is run for an alias: its directory will do, and what is at the path can be copied
aside. -/
def cargoRuns (setting : Setting β) (bins : Binaries β) (cli : Cli) : Bool :=
  setting.ok .cargoRoot && copies setting bins cli && setting.ok (.startCargo cli)

/-- From the archive: no alias is stranded when its turn comes. By Cargo: its first run replaces the
other alias by nothing but what was there. -/
def Kept (setting : Setting β) (method : Method) (pending : Cli → Bool) (bins : Binaries β) : Prop :=
  match method with
  | .releaseArchive =>
      ∀ cli, pending cli = true →
        (cli = .lightweight → pending .hermes = true → replaced setting bins .hermes = true) →
          ¬Stranded setting bins cli
  | .cargoSource =>
      let first : Cli := if pending .hermes then .hermes else .lightweight
      cargoRuns setting bins first = true → (setting.cargo first).replaces first.other = true →
        bins.file first.other = some (setting.fresh first.other)

section Archive

variable {pending : Cli → Bool} {error : UpdateError}

theorem stranded_congr {later : Binaries β} (same : later.file cli = bins.file cli) :
    Stranded setting later cli ↔ Stranded setting bins cli := by
  unfold Stranded
  rw [same]

theorem replaced_congr {later : Binaries β} (same : later.file cli = bins.file cli) :
    replaced setting later cli = replaced setting bins cli := by
  unfold replaced
  rw [same]

/-- Where an alias fails, it is as it was but for one that is stranded, and the others are as they
were logged. -/
theorem archive_rolledBack {rest : List Cli} (asked : pending cli = true)
    (fails : replaced setting bins cli = false) (apart : (applied.map Prod.fst).Nodup)
    (unlogged : cli ∉ applied.map Prod.fst)
    (ended : (updateEach setting .releaseArchive pending (cli :: rest) bins applied).1 =
      .rolledBack error) :
    ((updateEach setting .releaseArchive pending (cli :: rest) bins applied).2.file cli =
        bins.file cli ↔ ¬Stranded setting bins cli) ∧
      ∀ other, other ≠ cli →
        (∀ backed, (other, backed) ∈ applied →
          (updateEach setting .releaseArchive pending (cli :: rest) bins applied).2.file other =
            if backed then bins.backup other else none) ∧
        (other ∉ applied.map Prod.fst →
          (updateEach setting .releaseArchive pending (cli :: rest) bins applied).2.file other =
            bins.file other) := by
  obtain ⟨failed, logged, kept⟩ := archive_failed applied fails
  obtain ⟨all, left⟩ := updateEach_failed .releaseArchive asked failed ended
  rw [left]
  simp only [install, logged] at all ⊢
  rw [(rollBack_file apart all cli).2 unlogged]
  refine ⟨kept, ?_⟩
  intro other distinct
  obtain ⟨restored, untouched⟩ := rollBack_file apart all other
  have same := archive_same setting cli bins applied other distinct
  constructor
  · intro backed listed
    rw [restored backed listed, same.2]
  · intro absent
    rw [untouched absent, same.1]

/-- From the archive an alias is not as it was just where it is stranded. -/
theorem archive_kept_iff
    (ended : (update setting .releaseArchive pending bins).1 = .rolledBack error) :
    (∀ cli, (update setting .releaseArchive pending bins).2.file cli = bins.file cli) ↔
      Kept setting .releaseArchive pending bins := by
  unfold update updateOrder at *
  unfold Kept
  dsimp only
  rw [forall_cli, forall_cli]
  cases asked : pending .hermes with
  | false =>
      rw [updateEach_skip .releaseArchive asked] at ended ⊢
      cases asks : pending .lightweight with
      | false =>
          rw [updateEach_skip .releaseArchive asks] at ended
          cases ended
      | true =>
          cases succeeds : replaced setting bins .lightweight with
          | true =>
              obtain ⟨fine, _⟩ := archive_replaced [] succeeds
              rw [updateEach_next .releaseArchive asks fine] at ended
              cases ended
          | false =>
              obtain ⟨lost, others⟩ :=
                archive_rolledBack asks succeeds (by simp) (by simp) ended
              rw [lost, (others .hermes (by simp)).2 (by simp)]
              simp
  | true =>
      cases succeeds : replaced setting bins .hermes with
      | false =>
          obtain ⟨lost, others⟩ :=
            archive_rolledBack asked succeeds (by simp) (by simp) ended
          rw [lost, (others .lightweight (by simp)).2 (by simp)]
          simp
      | true =>
          obtain ⟨fine, logged, copied⟩ := archive_replaced [] succeeds
          have same := archive_same setting .hermes bins [] .lightweight (by simp)
          rw [updateEach_next .releaseArchive asked fine] at ended ⊢
          simp only [install] at ended ⊢
          rw [logged] at ended ⊢
          cases asks : pending .lightweight with
          | false =>
              rw [updateEach_skip .releaseArchive asks] at ended
              cases ended
          | true =>
              cases succeeds' : replaced setting bins .lightweight with
              | true =>
                  rw [← replaced_congr same.1] at succeeds'
                  obtain ⟨fine', _⟩ := archive_replaced
                    [(.hermes, (bins.file .hermes).isSome)] succeeds'
                  rw [updateEach_next .releaseArchive asks fine'] at ended
                  cases ended
              | false =>
                  rw [← replaced_congr same.1] at succeeds'
                  obtain ⟨lost, others⟩ := archive_rolledBack asks succeeds' (by simp) (by simp) ended
                  rw [same.1, stranded_congr same.1] at lost
                  rw [lost, (others .hermes (by simp)).1 _ (List.mem_singleton.mpr rfl)]
                  have moved : ¬Stranded setting bins .hermes := by
                    intro stranded
                    simp [replaced, stranded.2.2.2.2.2.1] at succeeds
                  simp [copied, moved]

end Archive

section Cargo

variable {pending : Cli → Bool} {error : UpdateError}

theorem preserve_files (setting : Setting β) (cli : Cli) (bins : Binaries β) (applied : Applied)
    (other : Cli) :
    (preserve setting cli bins applied).bins.file other = bins.file other ∧
      (other ≠ cli → (preserve setting cli bins applied).bins.backup other = bins.backup other) := by
  unfold preserve
  split
  · split
    · exact ⟨rfl, fun _ => rfl⟩
    · split
      · exact ⟨rfl, fun apart => (setBackup_same none other apart).2⟩
      · exact ⟨rfl, fun apart => (setBackup_same _ other apart).2⟩
  · exact ⟨rfl, fun _ => rfl⟩

theorem preserve_copies (applied : Applied) (copied : copies setting bins cli = true) :
    (preserve setting cli bins applied).error = none ∧
      (preserve setting cli bins applied).applied = (cli, (bins.file cli).isSome) :: applied ∧
      (if (bins.file cli).isSome then (preserve setting cli bins applied).bins.backup cli
        else none) = bins.file cli := by
  unfold preserve
  unfold copies at copied
  cases there : bins.file cli with
  | none => simp
  | some old =>
      simp only [there, Option.isNone_some, Bool.false_or, Bool.and_eq_true] at copied
      simp [copied]

theorem preserve_fails (applied : Applied) (uncopied : copies setting bins cli = false) :
    (preserve setting cli bins applied).error ≠ none ∧
      (preserve setting cli bins applied).applied = applied := by
  unfold preserve
  unfold copies at uncopied
  cases there : bins.file cli with
  | none => simp [there] at uncopied
  | some old =>
      cases cleared : setting.ok (.clearBackup cli)
      · simp
      · simp only [there, Option.isNone_some, cleared, Bool.true_and, Bool.false_or] at uncopied
        simp [uncopied]

/-- What Cargo leaves: where it was run, what it replaces; and where what was there was copied, a log
of it. -/
structure CargoLeaves (setting : Setting β) (cli : Cli) (bins : Binaries β) (applied : Applied)
    (left : Outcome β) : Prop where
  files : ∀ other, left.bins.file other =
    if cargoRuns setting bins cli && (setting.cargo cli).replaces other then
      some (setting.fresh other)
    else bins.file other
  backups : ∀ other, other ≠ cli → left.bins.backup other = bins.backup other
  logged : (setting.ok .cargoRoot && copies setting bins cli) = true →
    left.applied = (cli, (bins.file cli).isSome) :: applied ∧
      (if (bins.file cli).isSome then left.bins.backup cli else none) = bins.file cli
  unlogged : (setting.ok .cargoRoot && copies setting bins cli) = false →
    left.applied = applied ∧ left.error ≠ none
  fine : left.error = none → cargoRuns setting bins cli = true ∧ (setting.cargo cli).succeeds = true

theorem cargo_leaves (setting : Setting β) (cli : Cli) (bins : Binaries β) (applied : Applied) :
    CargoLeaves setting cli bins applied (cargoInstall setting cli bins applied) := by
  unfold cargoInstall
  cases root : setting.ok .cargoRoot
  · refine ⟨?_, ?_, ?_, ?_, ?_⟩
    all_goals simp [cargoRuns, root]
  have files := preserve_files setting cli bins applied
  cases copied : copies setting bins cli
  · obtain ⟨failed, logged⟩ := preserve_fails applied copied
    cases outcome : preserve setting cli bins applied with
    | mk later log error =>
        rw [outcome] at files failed logged
        dsimp only at files
        obtain ⟨reason, there⟩ := Option.ne_none_iff_exists'.mp failed
        simp only at there
        subst there
        refine ⟨?_, fun other apart => (files other).2 apart, ?_, ?_, ?_⟩
        · intro other
          simp only [cargoRuns, copied, Bool.and_false, Bool.false_and, Bool.false_eq_true, if_false]
          exact (files other).1
        · simp [copied]
        · simp only [Bool.not_true, Bool.false_eq_true, if_false, ne_eq, reduceCtorEq,
            not_false_eq_true, and_true]
          exact fun _ => logged
        · simp
  · obtain ⟨fine, logged, backed⟩ := preserve_copies applied copied
    cases outcome : preserve setting cli bins applied with
    | mk later log error =>
        rw [outcome] at files fine logged backed
        dsimp only at files fine logged backed
        subst fine
        have kept : (setting.ok .cargoRoot && copies setting bins cli) = true → log = (cli,
            (bins.file cli).isSome) :: applied ∧
              (if (bins.file cli).isSome then later.backup cli else none) = bins.file cli :=
          fun _ => ⟨logged, backed⟩
        cases started : setting.ok (.startCargo cli)
        · refine ⟨?_, fun other apart => (files other).2 apart, kept, ?_, ?_⟩
          · intro other
            simp only [cargoRuns, started, Bool.and_false, Bool.false_and, Bool.false_eq_true,
              if_false]
            exact (files other).1
          · simp [root, copied]
          · simp
        · have built : ∀ error, (error = none → (setting.cargo cli).succeeds = true) →
              CargoLeaves setting cli bins applied ⟨cargoReplaces setting cli later, log, error⟩ := by
            intro error succeeds
            have runs : cargoRuns setting bins cli = true := by simp [cargoRuns, root, copied, started]
            refine ⟨?_, fun other apart => (files other).2 apart, kept, ?_, ?_⟩
            · intro other
              simp only [cargoReplaces, runs, Bool.true_and, (files other).1]
            · simp [root, copied]
            · exact fun fine => ⟨runs, succeeds fine⟩
          simp only [Bool.not_true, Bool.false_eq_true, if_false]
          split
          · exact built _ (by simp)
          · rename_i succeeds
            split
            · exact built _ (by simp)
            · exact built _ fun _ => by simpa using succeeds

/-- Where Cargo fails for an alias, that one is as it was before the step, the logged ones are as they
were logged, and another one is what Cargo made of it. -/
theorem cargo_rolledBack {rest : List Cli} (asked : pending cli = true)
    (failed : (cargoInstall setting cli bins applied).error ≠ none)
    (apart : (applied.map Prod.fst).Nodup) (unlogged : cli ∉ applied.map Prod.fst)
    (ended : (updateEach setting .cargoSource pending (cli :: rest) bins applied).1 =
      .rolledBack error) :
    (updateEach setting .cargoSource pending (cli :: rest) bins applied).2.file cli =
        bins.file cli ∧
      ∀ other, other ≠ cli →
        (∀ backed, (other, backed) ∈ applied →
          (updateEach setting .cargoSource pending (cli :: rest) bins applied).2.file other =
            if backed then bins.backup other else none) ∧
        (other ∉ applied.map Prod.fst →
          (updateEach setting .cargoSource pending (cli :: rest) bins applied).2.file other =
            if cargoRuns setting bins cli && (setting.cargo cli).replaces other then
              some (setting.fresh other)
            else bins.file other) := by
  have leaves := cargo_leaves setting cli bins applied
  obtain ⟨all, left⟩ := updateEach_failed .cargoSource asked failed ended
  rw [left]
  simp only [install] at all ⊢
  cases kept : setting.ok .cargoRoot && copies setting bins cli with
  | false =>
      have logged := (leaves.unlogged kept).1
      have idle : cargoRuns setting bins cli = false := by simp [cargoRuns, kept]
      rw [logged] at all ⊢
      rw [(rollBack_file apart all cli).2 unlogged, leaves.files cli]
      refine ⟨by simp [idle], ?_⟩
      intro other distinct
      obtain ⟨restored, untouched⟩ := rollBack_file apart all other
      constructor
      · intro backed listed
        rw [restored backed listed, leaves.backups other distinct]
      · intro absent
        rw [untouched absent, leaves.files other]
  | true =>
      obtain ⟨logged, backed⟩ := leaves.logged kept
      rw [logged] at all ⊢
      have distinct_log : (((cli, (bins.file cli).isSome) :: applied).map Prod.fst).Nodup :=
        List.nodup_cons.mpr ⟨unlogged, apart⟩
      rw [(rollBack_file distinct_log all cli).1 _ List.mem_cons_self, backed]
      refine ⟨rfl, ?_⟩
      intro other distinct
      obtain ⟨restored, untouched⟩ := rollBack_file distinct_log all other
      constructor
      · intro held listed
        rw [restored held (List.mem_cons_of_mem _ listed), leaves.backups other distinct]
      · intro absent
        rw [untouched (by simpa [distinct] using absent), leaves.files other]

theorem new_eq_old_iff {runs replaces : Bool} {new : β} {old : Option β} :
    (if runs && replaces then some new else old) = old ↔
      (runs = true → replaces = true → old = some new) := by
  cases runs <;> cases replaces <;> simp [eq_comm]

/-- By Cargo the other alias is not as it was where the first run has replaced it. -/
theorem cargo_kept_iff
    (ended : (update setting .cargoSource pending bins).1 = .rolledBack error) :
    (∀ cli, (update setting .cargoSource pending bins).2.file cli = bins.file cli) ↔
      Kept setting .cargoSource pending bins := by
  unfold update updateOrder at *
  unfold Kept
  dsimp only
  rw [forall_cli]
  cases asked : pending .hermes with
  | false =>
      rw [updateEach_skip .cargoSource asked] at ended ⊢
      cases asks : pending .lightweight with
      | false =>
          rw [updateEach_skip .cargoSource asks] at ended
          cases ended
      | true =>
          by_cases fine : (cargoInstall setting .lightweight bins []).error = none
          · rw [updateEach_next .cargoSource asks fine] at ended
            cases ended
          · obtain ⟨back, others⟩ := cargo_rolledBack asks fine (by simp) (by simp) ended
            rw [back, (others .hermes (by simp)).2 (by simp)]
            simp only [and_true, Bool.false_eq_true, if_false]
            exact new_eq_old_iff
  | true =>
      simp only [if_true]
      by_cases fine : (cargoInstall setting .hermes bins []).error = none
      · have leaves := cargo_leaves setting .hermes bins []
        obtain ⟨runs, succeeds⟩ := leaves.fine fine
        have whole := (setting.cargo .hermes).whole succeeds
        have new := leaves.files .lightweight
        simp only [runs, whole, Bool.and_self, if_true] at new
        have runs_as := runs
        simp only [cargoRuns, Bool.and_eq_true] at runs_as
        obtain ⟨logged, backed⟩ := leaves.logged (by simp [runs_as])
        rw [updateEach_next .cargoSource asked fine] at ended ⊢
        simp only [install] at ended ⊢
        rw [logged] at ended ⊢
        cases asks : pending .lightweight with
        | false =>
            rw [updateEach_skip .cargoSource asks] at ended
            cases ended
        | true =>
            by_cases fine' : (cargoInstall setting .lightweight (cargoInstall setting .hermes bins []).bins
                [(.hermes, (bins.file .hermes).isSome)]).error = none
            · rw [updateEach_next .cargoSource asks fine'] at ended
              cases ended
            · obtain ⟨back, others⟩ := cargo_rolledBack asks fine' (by simp) (by simp) ended
              rw [back, new, (others .hermes (by simp)).1 _ (List.mem_singleton.mpr rfl), backed]
              simp only [true_and, runs, whole, forall_const]
              exact eq_comm
      · obtain ⟨back, others⟩ := cargo_rolledBack asked fine (by simp) (by simp) ended
        rw [back, (others .lightweight (by simp)).2 (by simp)]
        simp only [true_and]
        exact new_eq_old_iff

end Cargo

/-- An update that says that it was rolled back leaves the files at the paths of both aliases as they
were just where, from the archive, no alias was stranded when its turn came, and, by Cargo, the first
run replaced the other alias by nothing but what was there. -/
theorem rolledBack_kept_iff {method : Method} {pending : Cli → Bool} {error : UpdateError}
    (ended : (update setting method pending bins).1 = .rolledBack error) :
    (∀ cli, (update setting method pending bins).2.file cli = bins.file cli) ↔
      Kept setting method pending bins := by
  cases method with
  | releaseArchive => exact archive_kept_iff ended
  | cargoSource => exact cargo_kept_iff ended

section Sample

/-- A release whose binaries are `2`; Cargo replaces both, if it is run. -/
def settingWhere (failing : List Op) : Setting Nat where
  ok op := decide (op ∉ failing)
  fresh _ := 2
  cargo _ := ⟨true, fun _ => true, fun _ _ => rfl⟩

/-- `hermes` alone is installed. -/
def onlyHermes : Binaries Nat where
  file | .hermes => some 1
       | .lightweight => none
  backup _ := none

theorem rolledBack_kept_iff_verify :
    (∀ cli, (update (settingWhere [.verify .hermes]) .releaseArchive (· = .hermes)
        onlyHermes).2.file cli = onlyHermes.file cli) ↔
      Kept (settingWhere [.verify .hermes]) .releaseArchive (· = .hermes) onlyHermes :=
  @rolledBack_kept_iff _ _ _ _ _ (.step (.verify .hermes)) (by decide)

/-- Cargo leaves the alias that was not there; and an alias that was moved aside is gone where its
successor could not be moved in, nor it back. -/
theorem rolledBack_not_as_it_was :
    ((update (settingWhere [.verify .hermes]) .cargoSource (· = .hermes) onlyHermes).1 =
          .rolledBack (.step (.verify .hermes)) ∧
        (update (settingWhere [.verify .hermes]) .cargoSource (· = .hermes) onlyHermes).2.file
          .lightweight = some 2 ∧ onlyHermes.file .lightweight = none) ∧
      (update (settingWhere [.moveIn .hermes, .putBack .hermes]) .releaseArchive (· = .hermes)
          onlyHermes).1 = .rolledBack (.lost .hermes) ∧
        (update (settingWhere [.moveIn .hermes, .putBack .hermes]) .releaseArchive (· = .hermes)
          onlyHermes).2.file .hermes = none ∧ onlyHermes.file .hermes = some 1 := by
  decide

end Sample

end Lightweight.Release
