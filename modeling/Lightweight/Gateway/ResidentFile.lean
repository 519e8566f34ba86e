import Lightweight.Transition
import Lightweight.Catalog.FreeId
import Lightweight.Gateway.CatalogChanges

/-! The file of the model that is loaded, and removals from the catalog that delete files
(`load_model` and `ModelManager::remove` of `lightweight-gateway/src/manager.rs`, and the model that
`serve` of `lightweight-cli/src/serve.rs` starts with). -/

namespace Lightweight.Gateway.ResidentFile

open Lightweight.Core Lightweight.Core.ModelId Lightweight.Catalog

/-- The loaded model, by its name and its file. -/
structure ResidentModel where
  id : List Char
  modelPath : List Char
deriving DecidableEq, Repr

/-- The model that a gateway is started with: it is named after its file. -/
def served (path fileName : List Char) (nCtx : Nat) : ResidentModel :=
  ⟨withContext (fileStem fileName) nCtx, path⟩

/-- The model of a catalog record. -/
def loadedFrom (record : InstalledModel) (nCtx : Nat) : ResidentModel :=
  ⟨withContext record.id nCtx, record.path⟩

/-- The catalog and the loaded model of a running gateway. -/
structure Models where
  catalog : CatalogState
  resident : Option ResidentModel
  /-- The record that a load in progress has found. -/
  loading : Option InstalledModel
  /-- The file of a model was deleted while the model was resident. -/
  lost : Bool

inductive Action where
  | setAlias (name : List Char) (aliasName : Option (List Char)) (saving : Except CatalogError Unit)
  /-- A download, an import, or the registration of the file a gateway was started with. -/
  | commit (scanned : Scanned) (now : Nat) (saving : Except CatalogError Unit)
  | loadBegin (name : List Char)
  /-- The load comes to its end, with the context that was asked for and the one that runs. -/
  | loadDone (nCtx effective now : Nat) (saving : Except CatalogError Unit)
  | loadFail
  | unload
  | remove (name : List Char) (deleteFile fileRemoved : Bool) (saving : Except CatalogError Unit)

/-- Remember the load in the record, if it is still there. -/
def markLoaded (catalog : CatalogState) (id : List Char) (nCtx now : Nat)
    (saving : Except CatalogError Unit) : CatalogState :=
  let store := match catalog.store.get id with
    | some record =>
        catalog.store.replace { record with lastNCtx := some nCtx, lastLoadedAt := some now }
    | none => catalog.store
  (CatalogState.save { catalog with store } saving).2

section Steps

-- The file that a path leads to: two paths may lead to one.
variable [Lowercase] (fileAt : List Char → List Char)

/-- The removal has deleted the file of the resident model. -/
def deletesResident (resident : Option ResidentModel) : Except CatalogError Removal → Bool
  | .ok removal =>
      removal.fileDeleted && resident.any fun model => fileAt removal.model.path == fileAt model.modelPath
  | .error _ => false

/-- The removal that a request makes, told of the model that is resident then. -/
def removal (models : Models) (name : List Char) (deleteFile fileRemoved : Bool)
    (saving : Except CatalogError Unit) : Except CatalogError Removal × CatalogState :=
  Gateway.remove models.catalog name deleteFile (models.resident.map ResidentModel.id) fileRemoved
    saving

def step (models : Models) : Action → Option Models
  | .setAlias name aliasName saving =>
      some { models with catalog := (Gateway.setAlias models.catalog name aliasName saving).2 }
  | .commit scanned now saving =>
      some { models with catalog := (models.catalog.commit scanned now saving).2 }
  | .loadBegin name =>
      match models.loading with
      | some _ => some models
      | none => some { models with loading := models.catalog.store.resolve name }
  | .loadDone nCtx effective now saving =>
      match models.loading with
      | none => none
      | some record =>
          some { models with
            resident := some (loadedFrom record nCtx)
            loading := none
            catalog := markLoaded models.catalog record.id effective now saving }
  | .loadFail => some { models with loading := none }
  | .unload => some { models with resident := none }
  | .remove name deleteFile fileRemoved saving =>
      let (result, catalog) := removal models name deleteFile fileRemoved saving
      some { models with
        catalog, lost := models.lost || deletesResident fileAt models.resident result }

/-- A removal that may delete a file names no downloaded record of the resident model's file under
another id than the resident model's. -/
def Spared (models : Models) (name : List Char) (deleteFile : Bool) : Prop :=
  deleteFile = true → ∀ model resident, models.catalog.store.resolve name = some model →
    models.resident = some resident → model.isOursToDelete = true →
      fileAt model.path = fileAt resident.modelPath → ModelId.slug resident.id = model.id

/-- Every removal of a run is of that kind. -/
def Spares (models : Models) : Action → Prop
  | .remove name deleteFile _ _ => Spared fileAt models name deleteFile
  | _ => True

variable {fileAt}

/-- What a removal deletes of the resident model. -/
theorem deletesResident_iff {models : Models} {name : List Char} {deleteFile fileRemoved : Bool}
    {saving : Except CatalogError Unit} :
    deletesResident fileAt models.resident
        (removal models name deleteFile fileRemoved saving).1 = true ↔
      ∃ model resident, models.catalog.store.resolve name = some model ∧
        models.resident = some resident ∧ ModelId.slug resident.id ≠ model.id ∧ deleteFile = true ∧
        model.isOursToDelete = true ∧ fileRemoved = true ∧ saving = .ok () ∧
        fileAt model.path = fileAt resident.modelPath := by
  unfold removal Gateway.remove
  cases resolved : models.catalog.store.resolve name with
  | none => simp [deletesResident]
  | some model =>
      have found : models.catalog.store.remove model.id = .ok (model, models.catalog.store.erase model.id) := by
        unfold CatalogStore.remove
        rw [CatalogStore.mem_list.mp (CatalogStore.resolve_mem resolved)]
      cases held : models.resident with
      | none =>
          simp only [Option.map_none, isResident, Option.any_none, found]
          cases saving with
          | ok _ => simp [CatalogState.save, deletesResident, Except.map]
          | error error => simp [CatalogState.save, deletesResident, Except.map]
      | some resident =>
          by_cases same : ModelId.slug resident.id = model.id
          · simp [isResident, same, deletesResident]
          · simp only [Option.map_some, isResident, Option.any_some, beq_iff_eq, same, found, if_false]
            cases saving with
            | ok _ => simp [CatalogState.save, deletesResident, Except.map, same, and_assoc]
            | error error => simp [CatalogState.save, deletesResident, Except.map]

/-- Whatever the disk answers, the file is spared exactly by such a removal. -/
theorem spared_iff {models : Models} {name : List Char} {deleteFile : Bool} :
    (∀ fileRemoved saving, deletesResident fileAt models.resident
      (removal models name deleteFile fileRemoved saving).1 = false) ↔
        Spared fileAt models name deleteFile := by
  constructor
  · intro kept asked model resident resolved held ours there
    by_contra other
    have deleted := deletesResident_iff.mpr
      ⟨model, resident, resolved, held, other, asked, ours, rfl, rfl, there⟩
    rw [kept true (.ok ())] at deleted
    cases deleted
  · intro spared fileRemoved saving
    rw [Bool.eq_false_iff]
    intro deleted
    obtain ⟨model, resident, resolved, held, other, asked, ours, -, -, there⟩ :=
      deletesResident_iff.mp deleted
    exact other (spared asked model resident resolved held ours there)

/-- One step of a run whose removals spare the resident model's file. -/
theorem step_lost {models after : Models} {action : Action} (spares : Spares fileAt models action)
    (kept : models.lost = false) (stepped : step fileAt models action = some after) :
    after.lost = false := by
  cases action with
  | remove name deleteFile fileRemoved saving =>
      obtain rfl := Option.some.inj stepped
      change (models.lost || _) = false
      rw [kept, Bool.false_or]
      exact spared_iff.mpr spares fileRemoved saving
  | loadBegin name =>
      simp only [step] at stepped
      split at stepped
      · exact Option.some.inj stepped ▸ kept
      · exact Option.some.inj stepped ▸ kept
  | loadDone nCtx effective now saving =>
      simp only [step] at stepped
      split at stepped
      · cases stepped
      · exact Option.some.inj stepped ▸ kept
  | setAlias name aliasName saving => exact Option.some.inj stepped ▸ kept
  | commit scanned now saving => exact Option.some.inj stepped ▸ kept
  | loadFail => exact Option.some.inj stepped ▸ kept
  | unload => exact Option.some.inj stepped ▸ kept

/-- In every run whose removals all are of that kind the file of a resident model is never deleted;
and from each state it reaches a removal spares the file, whatever the disk answers, exactly if it is
of that kind. -/
theorem resident_file_kept (start models : Models) (kept : start.lost = false)
    (reached : Transition.Reaches (step fileAt) (Spares fileAt) start models) :
    models.lost = false ∧ ∀ name deleteFile,
      (∀ fileRemoved saving, deletesResident fileAt models.resident
        (removal models name deleteFile fileRemoved saving).1 = false) ↔
          Spared fileAt models name deleteFile := by
  refine ⟨?_, fun _ _ => spared_iff⟩
  exact reached.invariant (fun models => models.lost = false) kept
    fun _ _ _ spares kept stepped => step_lost spares kept stepped

end Steps

/-! ### Names of loaded models -/

/-- A model that was loaded from the catalog with a context is spared, unless another record leads to
its file. -/
theorem loaded_spared [Lowercase] {fileAt : List Char → List Char} {models : Models}
    {record : InstalledModel} {nCtx : Nat} (positive : 0 < nCtx) (small : nCtx < UInt32.size)
    (held : models.resident = some (loadedFrom record nCtx))
    (alone : ∀ model ∈ models.catalog.store.list, fileAt model.path = fileAt record.path →
      model.id = record.id) (name : List Char) (deleteFile : Bool) :
    Spared fileAt models name deleteFile := by
  intro _ model resident resolved found _ there
  obtain rfl : loadedFrom record nCtx = resident := Option.some.inj (held.symm.trans found)
  calc
    _ = record.id := slug_withContext record.id positive small
    _ = model.id := (alone model (CatalogStore.resolve_mem resolved) there).symm

section Sample

attribute [local instance] asciiLowercase

/-- A pinned model, downloaded as `S.gguf`. -/
def downloaded : Scanned where
  id := some (.pinned .smollm2)
  path := "/models/S.gguf".toList
  fileName := some "S.gguf".toList
  bytes := 4
  sha256 := ['0']
  integrity := .manifest
  source := .manifest PinnedModel.smollm2.id []
  metadata :=
    { name := none, architecture := ['l'], supported := true, paramCount := none,
      quantization := ['f'], contextLength := none, weightBytes := none }

/-- The catalog of that model, and what is loaded. -/
def oneDownload (resident : Option ResidentModel) : Models :=
  ⟨(CatalogState.commit ⟨.empty, ∅⟩ downloaded 1 (.ok ())).2, resident, none, false⟩

/-- The gateway once that model is loaded by its id. -/
def oneLoaded : Models :=
  let record := InstalledModel.new PinnedModel.smollm2.id downloaded 1
  { oneDownload (some (loadedFrom record 4096)) with
    catalog := markLoaded (oneDownload none).catalog record.id 4096 2 (.ok ()) }

/-- Loaded by its id, the model is not removed and its file stays. -/
theorem loaded_file_kept :
    ∃ models, Transition.Reaches (step id) (Spares id) oneLoaded models ∧
      models.resident = oneLoaded.resident ∧ models.lost = false := by
  have spares : Spares id oneLoaded (.remove PinnedModel.smollm2.id true true (.ok ())) := by
    intro _ model resident resolved held _ _
    have named : (oneLoaded.catalog.store.resolve PinnedModel.smollm2.id).map InstalledModel.id =
        some PinnedModel.smollm2.id := by
      decide
    have loaded : oneLoaded.resident.map (fun model => ModelId.slug model.id) =
        some PinnedModel.smollm2.id := by
      decide
    rw [resolved, Option.map_some, Option.some.injEq] at named
    rw [held, Option.map_some, Option.some.injEq] at loaded
    rw [named, loaded]
  have reached : Transition.Reaches (step id) (Spares id) oneLoaded _ :=
    Transition.Reaches.start.act (.remove PinnedModel.smollm2.id true true (.ok ())) spares rfl
  exact ⟨_, reached, rfl, (resident_file_kept oneLoaded _ rfl reached).1⟩

/-- Served by its path, the model is removed by its catalog id and its file is deleted. -/
theorem served_file_deleted :
    ∃ models, Transition.Reaches (step id) Transition.Always
        (oneDownload (some (served "/models/S.gguf".toList "S.gguf".toList 4096))) models ∧
      models.resident = some (served "/models/S.gguf".toList "S.gguf".toList 4096) ∧
      models.lost = true := by
  refine ⟨_, Transition.Reaches.start.act (.remove PinnedModel.smollm2.id true true (.ok ())) trivial
    rfl, rfl, ?_⟩
  decide

end Sample

end Lightweight.Gateway.ResidentFile
