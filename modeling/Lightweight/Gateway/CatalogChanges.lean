import Lightweight.Core.ModelId
import Lightweight.Catalog.Names

/-! Changing the catalog of a running gateway: `set_alias` and `remove` of
`lightweight-gateway/src/manager.rs`, beside `commit`. Each changes the catalog in memory and then
saves it, which the disk may refuse. -/

namespace Lightweight.Gateway

open Lightweight.Core Lightweight.Catalog

structure Removal where
  model : InstalledModel
  fileDeleted : Bool
deriving DecidableEq, Repr

section Operations

variable [Lowercase]

/-- Give a model its old alias again; what the catalog says to that is dropped. -/
def putBack (store : CatalogStore) (id : List Char) (previous : Option (List Char)) : CatalogStore :=
  match store.setAlias id previous with
  | .ok (_, restored) => restored
  | .error _ => store

/-- Set, change or clear the alias of the model `name` resolves to, and save. -/
def setAlias (state : CatalogState) (name : List Char) (aliasName : Option (List Char))
    (saving : Except CatalogError Unit) : Except CatalogError InstalledModel × CatalogState :=
  match state.store.resolve name with
  | none => (.error (.unknownModel name), state)
  | some model =>
      let previous := (state.store.get model.id).bind InstalledModel.aliasName
      match state.store.setAlias model.id aliasName with
      | .error error => (.error error, state)
      | .ok (updated, store) =>
          match CatalogState.save { state with store } saving with
          | (.ok (), saved) => (.ok updated, saved)
          | (.error error, unsaved) =>
              (.error error, { unsaved with store := putBack unsaved.store model.id previous })

/-- Whether the model with this catalog id is the one loaded. -/
def isResident (resident : Option (List Char)) (id : List Char) : Bool :=
  resident.any fun loaded => ModelId.slug loaded == id

/-- Forget a model, and optionally delete the file; `fileRemoved` is what the disk says to that. -/
def remove (state : CatalogState) (name : List Char) (deleteFile : Bool)
    (resident : Option (List Char)) (fileRemoved : Bool) (saving : Except CatalogError Unit) :
    Except CatalogError Removal × CatalogState :=
  match state.store.resolve name with
  | none => (.error (.unknownModel name), state)
  | some model =>
      if isResident resident model.id then (.error (.inUse model.id), state)
      else
        match state.store.remove model.id with
        | .error error => (.error error, state)
        | .ok (removed, store) =>
            let (result, after) := CatalogState.save { state with store } saving
            let fileDeleted := deleteFile && removed.isOursToDelete && fileRemoved
            (result.map fun _ => { model := removed, fileDeleted }, after)

end Operations

inductive CatalogChange where
  | setAlias (name : List Char) (aliasName : Option (List Char))
  | remove (name : List Char) (deleteFile : Bool) (resident : Option (List Char))
      (fileRemoved : Bool)
  | commit (scanned : Scanned) (now : Nat)
deriving DecidableEq, Repr

def failure {α : Type} : Except CatalogError α → Option CatalogError
  | .ok _ => none
  | .error error => some error

/-- An error leaves the catalog in memory as it was, and in step with the file if it was so. -/
def FailsCleanly (before : CatalogState) (result : Option CatalogError × CatalogState) : Prop :=
  ∀ error, result.1 = some error → result.2.store = before.store ∧
    (before.disk = before.store.models → result.2.disk = result.2.store.models)

theorem failsCleanly_none (before after : CatalogState) : FailsCleanly before (none, after) := by
  intro error failed
  cases failed

/-- What an error leaves is judged by the catalog in memory: the file is as it was. -/
theorem failsCleanly_iff_same (before : CatalogState) (store : CatalogStore)
    (error : CatalogError) :
    FailsCleanly before (some error, { before with store }) ↔ store = before.store := by
  constructor
  · intro clean
    exact (clean error rfl).1
  · intro same _ _
    refine ⟨same, ?_⟩
    intro synced
    change before.disk = store.models
    rw [same]
    exact synced

theorem failsCleanly_refused (state : CatalogState) (error : CatalogError) :
    FailsCleanly state (some error, state) :=
  (failsCleanly_iff_same state state.store error).mpr rfl

theorem rename_eq_self_iff (model : InstalledModel) (name : Option (List Char)) :
    { model with aliasName := name } = model ↔ name = model.aliasName := by
  constructor
  · intro same
    exact congrArg InstalledModel.aliasName same
  · rintro rfl
    rfl

theorem replace_rename_eq_self_iff {store : CatalogStore} {model : InstalledModel}
    (found : store.get model.id = some model) (name : Option (List Char)) :
    store.replace { model with aliasName := name } = store ↔ name = model.aliasName := by
  rw [CatalogStore.replace_eq_self_iff, ← rename_eq_self_iff]
  change store.get model.id = some _ ↔ _
  rw [found, Option.some.injEq, eq_comm]

theorem replace_rename_twice (store : CatalogStore) (model : InstalledModel)
    (first second : Option (List Char)) :
    (store.replace { model with aliasName := first }).replace { model with aliasName := second } =
      store.replace { model with aliasName := second } :=
  store.replace_replace rfl

section Changes

variable [Lowercase]

/-- One change: the error it returns, if any, and what it leaves. -/
def changeCatalog (state : CatalogState) (change : CatalogChange)
    (saving : Except CatalogError Unit) : Option CatalogError × CatalogState :=
  match change with
  | .setAlias name aliasName =>
      let (result, after) := setAlias state name aliasName saving
      (failure result, after)
  | .remove name deleteFile resident fileRemoved =>
      let (result, after) := remove state name deleteFile resident fileRemoved saving
      (failure result, after)
  | .commit scanned now =>
      let (result, after) := state.commit scanned now saving
      (failure result, after)

/-- The alias a model holds is one it would be given again, as it is. -/
def HoldsGoodAlias (store : CatalogStore) (model : InstalledModel) : Prop :=
  ∀ held, model.aliasName = some held → store.checkAlias held (some model.id) = .ok held

/-- The change is refused before it writes anything, or what it writes is undone or already there. -/
def CatalogChange.Harmless (store : CatalogStore) : CatalogChange → Prop
  | .setAlias name aliasName => ∀ model, store.resolve name = some model →
      (∃ raw error, aliasName = some raw ∧ store.checkAlias raw (some model.id) = .error error) ∨
        HoldsGoodAlias store model
  | .remove name _ resident _ => ∀ model, store.resolve name = some model →
      isResident resident model.id = true
  | .commit scanned now =>
      match scanned.id with
      | none => ∃ existing, store.byDigest scanned.sha256 = some existing
      | some planned =>
          (∃ error, store.ensureIdUnaliased planned.text = .error error) ∨
            ∃ held, store.get planned.text = some held ∧
              held = { InstalledModel.new planned.text scanned now with aliasName := held.aliasName }

/-- The old alias is back exactly when the catalog lets it in again as it was. -/
theorem putBack_eq_iff {store : CatalogStore} {model : InstalledModel} {name : Option (List Char)}
    (found : store.get model.id = some model)
    (given : ∀ checked, name = some checked →
      store.checkAlias checked (some model.id) = .ok checked) :
    putBack (store.replace { model with aliasName := name }) model.id model.aliasName = store ↔
      HoldsGoodAlias store model := by
  have renamed : (store.replace { model with aliasName := name }).get model.id =
      some { model with aliasName := name } := by
    rw [CatalogStore.get_replace]
    exact if_pos rfl
  unfold putBack CatalogStore.setAlias HoldsGoodAlias
  rw [renamed]
  cases previous : model.aliasName with
  | none =>
      dsimp only
      rw [replace_rename_twice, replace_rename_eq_self_iff found, previous]
      simp
  | some held =>
      dsimp only
      cases checked : (store.replace { model with aliasName := name }).checkAlias held
          (some model.id) with
      | ok again =>
          dsimp only
          rw [CatalogStore.checkAlias_rename found] at checked
          rw [replace_rename_twice, replace_rename_eq_self_iff found, previous]
          simp [checked]
      | error refused =>
          dsimp only
          rw [replace_rename_eq_self_iff found, previous]
          have unheld : store.checkAlias held (some model.id) ≠ .ok held := by
            intro accepted
            rw [← CatalogStore.checkAlias_rename found, checked] at accepted
            cases accepted
          constructor
          · intro same
            exact absurd (given held same) unheld
          · intro good
            exact absurd (good held rfl) unheld

theorem setAlias_unsaved (state : CatalogState) (name : List Char) (aliasName : Option (List Char))
    (error : CatalogError) :
    FailsCleanly state (changeCatalog state (.setAlias name aliasName) (.error error)) ↔
      (CatalogChange.setAlias name aliasName).Harmless state.store := by
  simp only [changeCatalog, setAlias, CatalogChange.Harmless]
  cases resolved : state.store.resolve name with
  | none => simpa [failure] using failsCleanly_refused state (.unknownModel name)
  | some model =>
      have found := CatalogStore.mem_list.mp (CatalogStore.resolve_mem resolved)
      simp only [CatalogStore.setAlias, found, Option.some.injEq, forall_eq', Option.bind_some]
      cases aliasName with
      | none =>
          simp only [CatalogState.save, failure]
          rw [failsCleanly_iff_same, putBack_eq_iff found (by simp)]
          simp
      | some raw =>
          cases checked : state.store.checkAlias raw (some model.id) with
          | error refused =>
              have clean := failsCleanly_refused state refused
              simpa [failure, checked] using clean
          | ok given =>
              simp only [CatalogState.save, failure, checked]
              rw [failsCleanly_iff_same, putBack_eq_iff found]
              · simp [checked]
              · rintro held same
                rw [← Option.some.inj same]
                exact CatalogStore.checkAlias_idempotent checked

theorem remove_unsaved (state : CatalogState) (name : List Char) (deleteFile : Bool)
    (resident : Option (List Char)) (fileRemoved : Bool) (error : CatalogError) :
    FailsCleanly state
        (changeCatalog state (.remove name deleteFile resident fileRemoved) (.error error)) ↔
      (CatalogChange.remove name deleteFile resident fileRemoved).Harmless state.store := by
  simp only [changeCatalog, remove, CatalogChange.Harmless]
  cases resolved : state.store.resolve name with
  | none => simpa [failure] using failsCleanly_refused state (.unknownModel name)
  | some model =>
      have found := CatalogStore.mem_list.mp (CatalogStore.resolve_mem resolved)
      cases loaded : isResident resident model.id with
      | true => simpa [loaded, failure] using failsCleanly_refused state (.inUse model.id)
      | false =>
          simp only [CatalogStore.remove, found, Option.some.injEq, forall_eq', loaded,
            Bool.false_eq_true, if_false, iff_false]
          intro clean
          have same := (failsCleanly_iff_same _ _ _).mp clean
          have gone := congrArg (fun store => store.get model.id) same
          simp only [CatalogStore.get_erase, if_true, found] at gone
          cases gone

/-- A record under a free id is not there before. -/
theorem import_unsaved {state : CatalogState} {scanned : Scanned} (imported : scanned.id = none)
    (now : Nat) (error : CatalogError) (fresh : state.store.byDigest scanned.sha256 = none) :
    ¬ FailsCleanly state (changeCatalog state (.commit scanned now) (.error error)) := by
  have free := state.store.freeId_free (slugFor_isSlug scanned.fileName)
  have missing := CatalogStore.get_of_free free.1
  simp only [changeCatalog, CatalogState.commit, CatalogStore.alreadyImported, imported, fresh,
    CatalogStore.chooseId, CatalogStore.add, CatalogStore.insert, InstalledModel.new, missing,
    Except.bind, Except.map, Option.isNone_none, Option.isSome_none, if_true, CatalogState.save,
    Bool.false_eq_true, if_false]
  intro clean
  have same := (failsCleanly_iff_same _ _ _).mp clean
  have gone := congrArg (fun store => store.get (state.store.freeId (slugFor scanned.fileName))) same
  simp only [CatalogStore.get_replace, if_true, missing] at gone
  cases gone

theorem download_unsaved {state : CatalogState} {scanned : Scanned} {planned : PlannedId}
    (download : scanned.id = some planned) (now : Nat) (error : CatalogError) :
    FailsCleanly state (changeCatalog state (.commit scanned now) (.error error)) ↔
      (∃ refused, state.store.ensureIdUnaliased planned.text = .error refused) ∨
        ∃ held, state.store.get planned.text = some held ∧
          held = { InstalledModel.new planned.text scanned now with aliasName := held.aliasName } := by
  simp only [changeCatalog, CatalogState.commit, CatalogStore.alreadyImported, download,
    CatalogStore.chooseId, CatalogStore.add, Option.isNone_some, Option.isSome_some,
    Bool.false_eq_true, if_false, if_true]
  cases checked : state.store.ensureIdUnaliased planned.text with
  | error refused => simpa [Except.bind, Except.map, failure] using failsCleanly_refused state refused
  | ok _ =>
      simp only [Except.bind, Except.map, CatalogState.save, failure, reduceCtorEq, exists_false,
        false_or]
      rw [failsCleanly_iff_same, CatalogStore.replace_eq_self_iff]
      change state.store.get planned.text = some _ ↔ _
      constructor
      · intro found
        refine ⟨_, found, ?_⟩
        rfl
      · rintro ⟨held, found, same⟩
        rw [found, Option.some.injEq]
        simpa using same

/-- A change that is saved returns no error, and one that is refused before that changes nothing. -/
theorem saved_failsCleanly (state : CatalogState) (change : CatalogChange) :
    FailsCleanly state (changeCatalog state change (.ok ())) := by
  cases change with
  | setAlias name aliasName =>
      simp only [changeCatalog, setAlias, CatalogState.save]
      split
      · exact failsCleanly_refused state _
      · split
        · exact failsCleanly_refused state _
        · exact failsCleanly_none state _
  | remove name deleteFile resident fileRemoved =>
      simp only [changeCatalog, remove, CatalogState.save]
      split
      · exact failsCleanly_refused state _
      · split
        · exact failsCleanly_refused state _
        · split
          · exact failsCleanly_refused state _
          · exact failsCleanly_none state _
  | commit scanned now =>
      simp only [changeCatalog, CatalogState.commit, CatalogState.save]
      split
      · exact failsCleanly_none state _
      · split
        · exact failsCleanly_refused state _
        · exact failsCleanly_none state _

/-- A failed change leaves the catalog as it was exactly when the file could be written, or the
change was harmless: only `set_alias` puts back what it wrote. -/
theorem change_fails_cleanly_iff (state : CatalogState) (change : CatalogChange)
    (saving : Except CatalogError Unit) :
    FailsCleanly state (changeCatalog state change saving) ↔
      saving = .ok () ∨ change.Harmless state.store := by
  cases saving with
  | ok done =>
      have clean := saved_failsCleanly state change
      simpa using clean
  | error error =>
      simp only [reduceCtorEq, false_or]
      cases change with
      | setAlias name aliasName => exact setAlias_unsaved state name aliasName error
      | remove name deleteFile resident fileRemoved =>
          exact remove_unsaved state name deleteFile resident fileRemoved error
      | commit scanned now =>
          cases planned : scanned.id with
          | some id =>
              simp only [CatalogChange.Harmless, planned]
              exact download_unsaved planned now error
          | none =>
              simp only [CatalogChange.Harmless, planned]
              cases digest : state.store.byDigest scanned.sha256 with
              | some existing =>
                  have clean := failsCleanly_none state state
                  simpa [changeCatalog, CatalogState.commit, CatalogStore.alreadyImported, planned,
                    digest, failure] using clean
              | none => simpa using import_unsaved planned now error digest

end Changes

section Sample

attribute [local instance] asciiLowercase

/-- A file on disk, hashed and read. -/
def scannedFile (fileName sha256 : List Char) : Scanned where
  id := none
  path := '/' :: fileName
  fileName := some fileName
  bytes := 4
  sha256
  integrity := .imported
  source := .import ('/' :: fileName)
  metadata :=
    { name := none, architecture := ['l'], supported := true, paramCount := none,
      quantization := ['f'], contextLength := none, weightBytes := none }

/-- The catalog of one imported model, saved. -/
def oneModel : CatalogState :=
  (changeCatalog ⟨.empty, ∅⟩ (.commit (scannedFile ['q', '.', 'g'] ['0']) 1) (.ok ())).2

theorem removal_outlives_failed_save :
    ¬ FailsCleanly oneModel (changeCatalog oneModel (.remove ['q'] false none false)
      (.error (.writing ['d', 'i', 's', 'k']))) := by
  intro clean
  have same := (clean (.writing ['d', 'i', 's', 'k']) (by decide)).1
  have gone := congrArg (fun store => (store.get ['q']).isSome) same
  revert gone
  decide

end Sample

end Lightweight.Gateway
