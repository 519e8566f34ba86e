import Std.Data.ExtTreeMap
import Mathlib.Data.List.Lex
import Lightweight.Catalog.Alias

/-! The catalog of installed models (`lightweight-catalog/src/store.rs`) and how a scanned file gets
into it (`record.rs`, and `commit` of `install.rs`). -/

namespace Lightweight.Catalog

open Lightweight.Core

inductive Integrity where
  | manifest
  | published
  | supplied
  | recorded
  | imported
deriving DecidableEq, Repr

inductive Source where
  | import (originalPath : List Char)
  | manifest (manifestId url : List Char)
  | link (url : List Char)
deriving DecidableEq, Repr

/-- What is read from the GGUF header at install time. -/
structure ModelMetadata where
  name : Option (List Char)
  architecture : List Char
  supported : Bool
  paramCount : Option Nat
  quantization : List Char
  contextLength : Option Nat
  weightBytes : Option Nat
deriving DecidableEq, Repr

/-- One model this machine has. -/
structure InstalledModel where
  id : List Char
  aliasName : Option (List Char)
  name : List Char
  path : List Char
  bytes : Nat
  sha256 : List Char
  integrity : Integrity
  source : Source
  architecture : List Char
  supported : Bool
  paramCount : Option Nat
  quantization : Option (List Char)
  contextLength : Option Nat
  weightBytes : Option Nat
  addedAt : Nat
  lastLoadedAt : Option Nat
  lastNCtx : Option Nat
deriving DecidableEq, Repr

/-- Only a file that was downloaded may be deleted. -/
def InstalledModel.isOursToDelete (model : InstalledModel) : Bool :=
  match model.source with
  | .import _ => false
  | .manifest _ _ => true
  | .link _ => true

inductive CatalogError where
  | unknownModel (id : List Char)
  | duplicateModel (id : List Char)
  | inUse (id : List Char)
  | invalidAlias (name : List Char) (problem : AliasProblem)
  | aliasInUse (name owner : List Char)
  | aliasIsModelId (name id : List Char)
  | modelIdIsAlias (id name owner : List Char)
  | writing (context : List Char)
deriving DecidableEq, Repr

/-- Every model this machine has, keyed by catalog id. -/
structure CatalogStore where
  models : Std.ExtTreeMap (List Char) InstalledModel compare
  keyed : ∀ (id : List Char) (model : InstalledModel), models[id]? = some model → model.id = id

namespace CatalogStore

def empty : CatalogStore := ⟨∅, by simp⟩

/-- Every model, in id order. -/
def list (store : CatalogStore) : List InstalledModel :=
  store.models.toList.map Prod.snd

def get (store : CatalogStore) (id : List Char) : Option InstalledModel :=
  store.models[id]?

theorem mem_list {store : CatalogStore} {model : InstalledModel} :
    model ∈ store.list ↔ store.get model.id = some model := by
  unfold list get
  rw [List.mem_map]
  constructor
  · rintro ⟨⟨id, other⟩, listed, rfl⟩
    rw [Std.ExtTreeMap.mem_toList_iff_getElem?_eq_some] at listed
    rw [store.keyed id other listed]
    exact listed
  · intro found
    exact ⟨(model.id, model), Std.ExtTreeMap.mem_toList_iff_getElem?_eq_some.mpr found, rfl⟩

theorem get_id {store : CatalogStore} {id : List Char} {model : InstalledModel}
    (found : store.get id = some model) : model.id = id :=
  store.keyed id model found

/-- Two catalogs with the same answers are the same. -/
theorem ext_get {store other : CatalogStore} (same : ∀ id, store.get id = other.get id) :
    store = other := by
  rcases store with ⟨models, keyed⟩
  rcases other with ⟨others, otherKeyed⟩
  have equal : models = others := Std.ExtTreeMap.ext_getElem? same
  subst equal
  rfl

/-- Add a model, replacing any record with the same id. -/
def replace (store : CatalogStore) (model : InstalledModel) : CatalogStore where
  models := store.models.insert model.id model
  keyed := by
    intro id other found
    rw [Std.ExtTreeMap.getElem?_insert] at found
    split at found
    · rename_i same
      rw [← Option.some.inj found]
      exact Std.LawfulEqCmp.eq_of_compare same
    · exact store.keyed id other found

theorem get_replace (store : CatalogStore) (model : InstalledModel) (id : List Char) :
    (store.replace model).get id = if model.id = id then some model else store.get id := by
  unfold get replace
  rw [Std.ExtTreeMap.getElem?_insert]
  by_cases same : model.id = id
  · simp [same]
  · simp [same]

def erase (store : CatalogStore) (id : List Char) : CatalogStore where
  models := store.models.erase id
  keyed := by
    intro other model found
    rw [Std.ExtTreeMap.getElem?_erase] at found
    split at found
    · cases found
    · exact store.keyed other model found

theorem get_erase (store : CatalogStore) (id other : List Char) :
    (store.erase id).get other = if id = other then none else store.get other := by
  unfold get erase
  rw [Std.ExtTreeMap.getElem?_erase]
  by_cases same : id = other
  · simp [same]
  · simp [same]

/-- Add a model, refusing to shadow one that is already there. -/
def insert (store : CatalogStore) (model : InstalledModel) : Except CatalogError CatalogStore :=
  if (store.get model.id).isSome then .error (.duplicateModel model.id)
  else .ok (store.replace model)

def remove (store : CatalogStore) (id : List Char) :
    Except CatalogError (InstalledModel × CatalogStore) :=
  match store.get id with
  | some model => .ok (model, store.erase id)
  | none => .error (.unknownModel id)

/-- The model with these exact bytes, if the catalog already has it. -/
def byDigest (store : CatalogStore) (sha256 : List Char) : Option InstalledModel :=
  store.list.find? fun model => eqIgnoreAsciiCase model.sha256 sha256

section Names

variable [Lowercase]

def holdsAlias (model : InstalledModel) (name : List Char) : Bool :=
  match model.aliasName with
  | some held => sameName held name
  | none => false

/-- The model holding this alias, ignoring case. -/
def byAlias (store : CatalogStore) (name : List Char) : Option InstalledModel :=
  store.list.find? fun model => holdsAlias model name

/-- The model a user named, by its alias or by its catalog id. -/
def resolve (store : CatalogStore) (name : List Char) : Option InstalledModel :=
  match ModelSelector.parse (some name) with
  | .default => none
  | .named name => (store.byAlias name).or (store.get name)

/-- Whether `raw` may become the alias of `forId`, or of a model about to be added. -/
def checkAlias (store : CatalogStore) (raw : List Char) (forId : Option (List Char)) :
    Except CatalogError (List Char) :=
  match validateAlias raw with
  | .error problem => .error (.invalidAlias raw problem)
  | .ok name =>
      match store.list.find? fun model => sameName model.id name with
      | some named => .error (.aliasIsModelId name named.id)
      | none =>
          match store.list.find? fun other =>
              decide (some other.id ≠ forId) && holdsAlias other name with
          | some owner => .error (.aliasInUse name owner.id)
          | none => .ok name

/-- Refuse a canonical id that some other model already uses as its alias. -/
def ensureIdUnaliased (store : CatalogStore) (id : List Char) : Except CatalogError Unit :=
  match store.list.find? fun model => decide (model.id ≠ id) && holdsAlias model id with
  | some owner => .error (.modelIdIsAlias id (owner.aliasName.getD []) owner.id)
  | none => .ok ()

/-- Give a model an alias, change it, or clear it with `none`. -/
def setAlias (store : CatalogStore) (id : List Char) (name : Option (List Char)) :
    Except CatalogError (InstalledModel × CatalogStore) :=
  match store.get id with
  | none => .error (.unknownModel id)
  | some model =>
      match name with
      | none =>
          let renamed := { model with aliasName := none }
          .ok (renamed, store.replace renamed)
      | some raw =>
          match store.checkAlias raw (some id) with
          | .error error => .error error
          | .ok checked =>
              let renamed := { model with aliasName := some checked }
              .ok (renamed, store.replace renamed)

/-- Whether `name` already identifies a model, as an id or as an alias. -/
def isTaken (store : CatalogStore) (name : List Char) : Bool :=
  (store.list.any fun model => sameName model.id name) || (store.byAlias name).isSome

def numbered (base : List Char) (n : Nat) : List Char :=
  base ++ '-' :: Nat.toDigits 10 n

/-- The first of `base-n`, `base-(n+1)`, .. that is free, within `tries`. -/
def freeFrom (store : CatalogStore) (base : List Char) : Nat → Nat → Option (List Char)
  | 0, _ => none
  | tries + 1, n =>
      if store.isTaken (numbered base n) then freeFrom store base tries (n + 1)
      else some (numbered base n)

/-- An id that is not taken, derived from `base`. No more names than two for each model are taken, so
a search past that many finds a free one. -/
def freeId (store : CatalogStore) (base : List Char) : List Char :=
  if !store.isTaken base then base
  else (freeFrom store base (2 * store.list.length + 1) 2).getD base

end Names

end CatalogStore

def isAsciiAlphanumeric (c : Char) : Bool :=
  ('a' ≤ c && c ≤ 'z') || ('A' ≤ c && c ≤ 'Z') || ('0' ≤ c && c ≤ '9')

/-- `Path::file_stem`: the name before its last dot, unless that is all of it. -/
def fileStem (fileName : List Char) : List Char :=
  if fileName = ['.', '.'] then fileName
  else
    let extension := (fileName.reverse.takeWhile (· ≠ '.')).reverse
    let before := fileName.take (fileName.length - extension.length - 1)
    if before.isEmpty then fileName else before

/-- A catalog id derived from a file name; `none` is a name that is not Unicode text. -/
def slugFor (fileName : Option (List Char)) : List Char :=
  let stem := (fileName.map fileStem).getD ['m', 'o', 'd', 'e', 'l']
  let slug := stem.map fun c =>
    if isAsciiAlphanumeric c || c == '.' || c == '-' || c == '_' then c.toLower else '-'
  let trimmed := (slug.dropWhile (· == '-')).rdropWhile (· == '-')
  if trimmed.isEmpty then ['m', 'o', 'd', 'e', 'l'] else trimmed

/-- The pinned models of the manifest. -/
inductive PinnedModel where
  | smollm2
  | lfm2
  | qwen3
  | gemma3
deriving DecidableEq, Repr

def PinnedModel.id : PinnedModel → List Char
  | .smollm2 =>
      ['s', 'm', 'o', 'l', 'l', 'm', '2', '-', '1', '3', '5', 'm', '-', 'i', 'n', 's', 't',
       'r', 'u', 'c', 't', '-', 'q', '4', '_', 'k', '_', 'm']
  | .lfm2 =>
      ['l', 'f', 'm', '2', '-', '1', '.', '2', 'b', '-', 'q', '4', '_', 'k', '_', 'm']
  | .qwen3 =>
      ['q', 'w', 'e', 'n', '3', '-', '1', '.', '7', 'b', '-', 'q', '4', '_', 'k', '_', 'm']
  | .gemma3 =>
      ['g', 'e', 'm', 'm', 'a', '-', '3', '-', '1', 'b', '-', 'i', 't', '-', 'q', '4', '_',
       'k', '_', 'm']

/-- The id a download is planned under: a pinned model's, or one from a link's file name. -/
inductive PlannedId where
  | pinned (model : PinnedModel)
  | link (fileName : List Char)
deriving DecidableEq, Repr

def PlannedId.text : PlannedId → List Char
  | .pinned model => model.id
  | .link fileName => slugFor (some fileName)

/-- A file that is on disk, hashed, and confirmed to be a GGUF. `id` is `none` for an import. -/
structure Scanned where
  id : Option PlannedId
  path : List Char
  fileName : Option (List Char)
  bytes : Nat
  sha256 : List Char
  integrity : Integrity
  source : Source
  metadata : ModelMetadata
deriving DecidableEq, Repr

def InstalledModel.new (id : List Char) (scanned : Scanned) (now : Nat) : InstalledModel where
  id
  aliasName := none
  name := scanned.metadata.name.getD id
  path := scanned.path
  bytes := scanned.bytes
  sha256 := scanned.sha256
  integrity := scanned.integrity
  source := scanned.source
  architecture := scanned.metadata.architecture
  supported := scanned.metadata.supported
  paramCount := scanned.metadata.paramCount
  quantization := some scanned.metadata.quantization
  contextLength := scanned.metadata.contextLength
  weightBytes := scanned.metadata.weightBytes
  addedAt := now
  lastLoadedAt := none
  lastNCtx := none

/-- The catalog in memory and the one in the file. -/
structure CatalogState where
  store : CatalogStore
  disk : Std.ExtTreeMap (List Char) InstalledModel compare

/-- Write the catalog out whole: the file holds the catalog in memory or what it held before. -/
def CatalogState.save (state : CatalogState) (saving : Except CatalogError Unit) :
    Except CatalogError Unit × CatalogState :=
  match saving with
  | .ok () => (.ok (), { state with disk := state.store.models })
  | .error error => (.error error, state)

section Commit

variable [Lowercase]

/-- An id the catalog chooses steps around every name; one it was given may not be an alias. -/
def CatalogStore.chooseId (store : CatalogStore) (scanned : Scanned) :
    Except CatalogError (List Char) :=
  match scanned.id with
  | some planned => (store.ensureIdUnaliased planned.text).map fun _ => planned.text
  | none => .ok (store.freeId (slugFor scanned.fileName))

/-- A download keeps the alias of the record it replaces; an import adds a record. -/
def CatalogStore.add (store : CatalogStore) (scanned : Scanned) (id : List Char) (now : Nat) :
    Except CatalogError (InstalledModel × CatalogStore) :=
  let record := InstalledModel.new id scanned now
  if scanned.id.isSome then
    let record := { record with aliasName := (store.get id).bind InstalledModel.aliasName }
    .ok (record, store.replace record)
  else (store.insert record).map fun added => (record, added)

/-- The same bytes twice is not an error: an import of them is the model already there. -/
def CatalogStore.alreadyImported (store : CatalogStore) (scanned : Scanned) :
    Option InstalledModel :=
  if scanned.id.isNone then store.byDigest scanned.sha256 else none

/-- Put a scanned file into the catalog and persist it. -/
def CatalogState.commit (state : CatalogState) (scanned : Scanned) (now : Nat)
    (saving : Except CatalogError Unit) : Except CatalogError InstalledModel × CatalogState :=
  match state.store.alreadyImported scanned with
  | some existing => (.ok existing, state)
  | none =>
      match (state.store.chooseId scanned).bind fun id => state.store.add scanned id now with
      | .error error => (.error error, state)
      | .ok (record, store) =>
          let (result, after) := CatalogState.save { state with store } saving
          (result.map fun _ => record, after)

end Commit

end Lightweight.Catalog
