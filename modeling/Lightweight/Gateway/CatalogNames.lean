import Lightweight.Transition
import Lightweight.Gateway.CatalogChanges

/-! Every name of the catalog means one model, whatever the order of imports, downloads, renames and
removals, and whether or not they can be saved. The ids come from file names, the aliases from
users, and `default` is kept for the model that is loaded; only the first of them is not checked
against the last. -/

namespace Lightweight.Gateway

open Lightweight.Core Lightweight.Catalog Transition

section Apart

variable [Lowercase]

/-- No id is reserved, no alias is any model's id, and no alias is that of two models. -/
structure NamesApart (store : CatalogStore) : Prop where
  slugs : ∀ model ∈ store.list, IsSlug model.id
  unreserved : ∀ model ∈ store.list, isReserved model.id = false
  apart : ∀ model ∈ store.list, ∀ other ∈ store.list,
    CatalogStore.holdsAlias other model.id = false
  distinct : ∀ model ∈ store.list, ∀ other ∈ store.list, ∀ held, model.aliasName = some held →
    CatalogStore.holdsAlias other held = true → other.id = model.id

/-- A record whose names are nobody else's may be put in the catalog. -/
structure FitsIn (store : CatalogStore) (record : InstalledModel) : Prop where
  slug : IsSlug record.id
  unreserved : isReserved record.id = false
  idFree : ∀ other ∈ store.list, other.id ≠ record.id →
    CatalogStore.holdsAlias other record.id = false
  ownAlias : CatalogStore.holdsAlias record record.id = false
  aliasFree : ∀ held, record.aliasName = some held → ∀ other ∈ store.list,
    other.id ≠ record.id → sameName other.id held = false ∧
      CatalogStore.holdsAlias other held = false

theorem holdsAlias_of_alias {model : InstalledModel} {held : List Char}
    (named : model.aliasName = some held) (name : List Char) :
    CatalogStore.holdsAlias model name = sameName held name := by
  unfold CatalogStore.holdsAlias
  rw [named]

theorem holdsAlias_of_none {model : InstalledModel} (unnamed : model.aliasName = none)
    (name : List Char) : CatalogStore.holdsAlias model name = false := by
  unfold CatalogStore.holdsAlias
  rw [unnamed]

theorem NamesApart.replace {store : CatalogStore} {record : InstalledModel}
    (names : NamesApart store) (fits : FitsIn store record) : NamesApart (store.replace record) := by
  constructor
  · intro model listed
    rcases CatalogStore.mem_replace.mp listed with rfl | ⟨_, old⟩
    · exact fits.slug
    · exact names.slugs model old
  · intro model listed
    rcases CatalogStore.mem_replace.mp listed with rfl | ⟨_, old⟩
    · exact fits.unreserved
    · exact names.unreserved model old
  · intro model listed other also
    rcases CatalogStore.mem_replace.mp listed with rfl | ⟨different, old⟩
    · rcases CatalogStore.mem_replace.mp also with rfl | ⟨apart, kept⟩
      · exact fits.ownAlias
      · exact fits.idFree other kept apart
    · rcases CatalogStore.mem_replace.mp also with rfl | ⟨_, kept⟩
      · cases named : other.aliasName with
        | none => exact holdsAlias_of_none named model.id
        | some held =>
            rw [holdsAlias_of_alias named, sameName_comm]
            exact (fits.aliasFree held named model old different).1
      · exact names.apart model old other kept
  · intro model listed other also held named same
    rcases CatalogStore.mem_replace.mp listed with rfl | ⟨different, old⟩
    · rcases CatalogStore.mem_replace.mp also with rfl | ⟨apart, kept⟩
      · rfl
      · rw [(fits.aliasFree held named other kept apart).2] at same
        cases same
    · rcases CatalogStore.mem_replace.mp also with rfl | ⟨_, kept⟩
      · cases own : other.aliasName with
        | none =>
            rw [holdsAlias_of_none own] at same
            cases same
        | some name =>
            -- The new alias is compared with the old one, not the other way round.
            rw [holdsAlias_of_alias own, sameName_comm] at same
            have free := (fits.aliasFree name own model old different).2
            rw [holdsAlias_of_alias named, same] at free
            cases free
      · exact names.distinct model old other kept held named same

theorem NamesApart.erase {store : CatalogStore} (names : NamesApart store) (id : List Char) :
    NamesApart (store.erase id) := by
  constructor
  · intro model listed
    exact names.slugs model (CatalogStore.mem_erase.mp listed).2
  · intro model listed
    exact names.unreserved model (CatalogStore.mem_erase.mp listed).2
  · intro model listed other also
    exact names.apart model (CatalogStore.mem_erase.mp listed).2 other
      (CatalogStore.mem_erase.mp also).2
  · intro model listed other also
    exact names.distinct model (CatalogStore.mem_erase.mp listed).2 other
      (CatalogStore.mem_erase.mp also).2

/-- Clearing an alias, or giving one that passed its check. -/
theorem NamesApart.fits_rename {store : CatalogStore} {model : InstalledModel}
    (names : NamesApart store) (listed : model ∈ store.list) {name : Option (List Char)}
    (given : ∀ held, name = some held → ∃ raw, store.checkAlias raw (some model.id) = .ok held) :
    FitsIn store { model with aliasName := name } := by
  constructor
  · exact names.slugs model listed
  · exact names.unreserved model listed
  · intro other also _
    exact names.apart model listed other also
  · cases name with
    | none => rfl
    | some held =>
        rcases given held rfl with ⟨raw, checked⟩
        rw [CatalogStore.checkAlias_eq_ok] at checked
        change sameName held model.id = false
        rw [sameName_comm]
        exact checked.2.1 model listed
  · rintro held rfl other also different
    rcases given held rfl with ⟨raw, checked⟩
    rw [CatalogStore.checkAlias_eq_ok] at checked
    refine ⟨checked.2.1 other also, checked.2.2 other also ?_⟩
    exact fun own => different (Option.some.inj own)

/-- A rename writes the model's record under a new alias, which passed its check. -/
theorem setAlias_eq_ok {store after : CatalogStore} {id : List Char} {name : Option (List Char)}
    {renamed : InstalledModel} (written : store.setAlias id name = .ok (renamed, after)) :
    ∃ model ∈ store.list, ∃ given, after = store.replace { model with aliasName := given } ∧
      ∀ held, given = some held → ∃ raw, store.checkAlias raw (some model.id) = .ok held := by
  unfold CatalogStore.setAlias at written
  split at written
  · cases written
  · rename_i model found
    have own := CatalogStore.get_id found
    have listed : model ∈ store.list := by
      rw [CatalogStore.mem_list, own]
      exact found
    split at written
    · cases written
      exact ⟨model, listed, none, rfl, by simp⟩
    · rename_i raw
      split at written
      · cases written
      · rename_i checked accepted
        cases written
        refine ⟨model, listed, some checked, rfl, ?_⟩
        rintro held same
        rw [← Option.some.inj same, own]
        exact ⟨raw, accepted⟩

theorem NamesApart.setAlias {store after : CatalogStore} {id : List Char}
    {name : Option (List Char)} {renamed : InstalledModel} (names : NamesApart store)
    (written : store.setAlias id name = .ok (renamed, after)) : NamesApart after := by
  rcases setAlias_eq_ok written with ⟨model, listed, given, rfl, checked⟩
  exact names.replace (names.fits_rename listed checked)

theorem NamesApart.putBack {store : CatalogStore} (names : NamesApart store) (id : List Char)
    (previous : Option (List Char)) : NamesApart (putBack store id previous) := by
  unfold Gateway.putBack
  split
  · rename_i restored written
    exact names.setAlias written
  · exact names

end Apart

/-- A numbered name has a dash in it, and the reserved one has none. -/
theorem isReserved_numbered {base : List Char} (slug : IsSlug base) (n : Nat) :
    isReserved (CatalogStore.numbered base n) = false := by
  rw [← Bool.not_eq_true, isReserved_iff, (slug.numbered n).trim]
  intro same
  have dash : '-' ∈ (CatalogStore.numbered base n).map Char.toLower := by
    rw [List.mem_map]
    exact ⟨'-', by simp [CatalogStore.numbered], by decide⟩
  rw [same] at dash
  revert dash
  decide

/-- The name a commit starts from: the id it was given, or the slug of the file name. -/
def idBase (scanned : Scanned) : List Char :=
  match scanned.id with
  | some planned => planned.text
  | none => slugFor scanned.fileName

section Commits

variable [Lowercase]

theorem isReserved_freeId {store : CatalogStore} {base : List Char} (slug : IsSlug base)
    (unreserved : isReserved base = false) : isReserved (store.freeId base) = false := by
  unfold CatalogStore.freeId
  split
  · exact unreserved
  · cases found : store.freeFrom base (2 * store.list.length + 1) 2 with
    | none => exact unreserved
    | some name =>
        rcases CatalogStore.freeFrom_eq_some found with ⟨_, n, rfl⟩
        exact isReserved_numbered slug n

theorem holdsAlias_of_free {store : CatalogStore} {name : List Char}
    (free : store.isTaken name = false) :
    ∀ other ∈ store.list, CatalogStore.holdsAlias other name = false := by
  intro other listed
  have unheld := (Bool.or_eq_false_iff.mp free).2
  unfold CatalogStore.byAlias at unheld
  rw [Option.isSome_eq_false_iff, Option.isNone_iff_eq_none, List.find?_eq_none] at unheld
  simpa using unheld other listed

theorem fits_import (store : CatalogStore) (scanned : Scanned) (now : Nat)
    (unreserved : isReserved (slugFor scanned.fileName) = false) :
    FitsIn store (InstalledModel.new (store.freeId (slugFor scanned.fileName)) scanned now) := by
  have slug := slugFor_isSlug scanned.fileName
  have free := store.freeId_free slug
  constructor
  · exact free.2
  · exact isReserved_freeId slug unreserved
  · intro other listed _
    exact holdsAlias_of_free free.1 other listed
  · exact holdsAlias_of_none rfl _
  · intro held named
    cases named

/-- A download keeps the alias of the record it replaces, which was nobody else's before. -/
theorem NamesApart.fits_download {store : CatalogStore} (names : NamesApart store)
    {planned : PlannedId} (unaliased : store.ensureIdUnaliased planned.text = .ok ())
    (unreserved : isReserved planned.text = false) (scanned : Scanned) (now : Nat) :
    FitsIn store { InstalledModel.new planned.text scanned now with
      aliasName := (store.get planned.text).bind InstalledModel.aliasName } := by
  rw [CatalogStore.ensureIdUnaliased_eq_ok] at unaliased
  cases found : store.get planned.text with
  | none =>
      constructor
      · exact planned.text_isSlug
      · exact unreserved
      · exact unaliased
      · exact holdsAlias_of_none rfl _
      · intro held named
        cases named
  | some prior =>
      have own := CatalogStore.get_id found
      have listed : prior ∈ store.list := by
        rw [CatalogStore.mem_list, own]
        exact found
      constructor
      · exact planned.text_isSlug
      · exact unreserved
      · exact unaliased
      · have apart := names.apart prior listed prior listed
        rw [own] at apart
        exact apart
      · intro held named other also different
        have kept : prior.aliasName = some held := named
        refine ⟨?_, ?_⟩
        · have apart := names.apart other also prior listed
          rw [holdsAlias_of_alias kept, sameName_comm] at apart
          exact apart
        · by_contra same
          rw [Bool.not_eq_false] at same
          have equal := names.distinct prior listed other also held kept same
          rw [own] at equal
          exact different equal

/-- What a commit writes, whether the disk takes it or not. -/
theorem NamesApart.added {store after : CatalogStore} (names : NamesApart store)
    {scanned : Scanned} {now : Nat} {record : InstalledModel}
    (unreserved : isReserved (idBase scanned) = false)
    (added : ((store.chooseId scanned).bind fun id => store.add scanned id now) =
      .ok (record, after)) : NamesApart after := by
  cases given : scanned.id with
  | none =>
      have free := store.freeId_free (slugFor_isSlug scanned.fileName)
      have missing := CatalogStore.get_of_free free.1
      simp only [CatalogStore.chooseId, CatalogStore.add, CatalogStore.insert, given, Except.bind,
        InstalledModel.new, missing, Option.isSome_none, Bool.false_eq_true, if_false, Except.map,
        Except.ok.injEq, Prod.mk.injEq] at added
      rw [idBase, given] at unreserved
      rw [← added.2]
      exact names.replace (fits_import store scanned now unreserved)
  | some planned =>
      simp only [CatalogStore.chooseId, CatalogStore.add, given, Option.isSome_some,
        if_true] at added
      rw [idBase, given] at unreserved
      cases unaliased : store.ensureIdUnaliased planned.text with
      | error refused =>
          rw [unaliased] at added
          cases added
      | ok _ =>
          rw [unaliased] at added
          cases added
          exact names.replace (names.fits_download unaliased unreserved scanned now)

/-- A commit whose id is not reserved keeps the names apart. -/
theorem NamesApart.commit {state : CatalogState} (names : NamesApart state.store)
    (scanned : Scanned) (now : Nat) (saving : Except CatalogError Unit)
    (unreserved : (state.store.alreadyImported scanned).isSome = true ∨
      isReserved (idBase scanned) = false) :
    NamesApart (state.commit scanned now saving).2.store := by
  unfold CatalogState.commit
  cases imported : state.store.alreadyImported scanned with
  | some existing => exact names
  | none =>
      have base : isReserved (idBase scanned) = false := by
        rcases unreserved with deduped | base
        · rw [imported] at deduped
          cases deduped
        · exact base
      cases added : (state.store.chooseId scanned).bind fun id => state.store.add scanned id now with
      | error error => exact names
      | ok written =>
          rcases written with ⟨record, store⟩
          have kept : NamesApart store := names.added base added
          cases saving with
          | ok _ => exact kept
          | error _ => exact kept

end Commits

section Runs

variable [Lowercase]

/-- One change of the catalog and whether the disk takes it. -/
abbrev CatalogStep := CatalogChange × Except CatalogError Unit

def catalogStep (state : CatalogState) (action : CatalogStep) : Option CatalogState :=
  some (changeCatalog state action.1 action.2).2

/-- The commits of a run are not of files whose name gives the id `default`. -/
def TakesNoReservedId (state : CatalogState) (action : CatalogStep) : Prop :=
  match action.1 with
  | .commit scanned _ => (state.store.alreadyImported scanned).isSome = true ∨
      isReserved (idBase scanned) = false
  | _ => True

/-- Every name means one model: the aliases and the ids of a catalog are all different, and an id
resolves to its model. -/
structure Unambiguous (store : CatalogStore) : Prop where
  aliases : ∀ model ∈ store.list, ∀ other ∈ store.list, model.id ≠ other.id →
    ∀ name held, model.aliasName = some name → other.aliasName = some held →
      sameName name held = false
  aliasIsNoId : ∀ model ∈ store.list, ∀ name, model.aliasName = some name →
    ∀ other ∈ store.list, sameName name other.id = false
  ids : (store.list.map InstalledModel.id).Nodup
  resolves : ∀ model ∈ store.list, store.resolve model.id = some model

theorem NamesApart.change {state : CatalogState} {action : CatalogStep}
    (names : NamesApart state.store) (met : TakesNoReservedId state action) :
    NamesApart (changeCatalog state action.1 action.2).2.store := by
  rcases action with ⟨change, saving⟩
  cases change with
  | setAlias name aliasName =>
      simp only [changeCatalog, Gateway.setAlias]
      split
      · exact names
      · split
        · exact names
        · rename_i written
          have kept := names.setAlias written
          cases saving with
          | ok _ => exact kept
          | error _ => exact kept.putBack _ _
  | remove name deleteFile resident fileRemoved =>
      simp only [changeCatalog, remove, CatalogStore.remove]
      split
      · exact names
      · rename_i model resolved
        have found := CatalogStore.mem_list.mp (CatalogStore.resolve_mem resolved)
        rw [found]
        split
        · exact names
        · cases saving with
          | ok _ => exact names.erase model.id
          | error _ => exact names.erase model.id
  | commit scanned now => exact names.commit scanned now saving met

omit [Lowercase] in
/-- The ids are the keys of the map, in their order. -/
theorem ids_eq_keys (store : CatalogStore) :
    store.list.map InstalledModel.id = store.models.keys := by
  rw [← Std.ExtTreeMap.map_fst_toList_eq_keys, CatalogStore.list, List.map_map]
  apply List.map_congr_left
  rintro ⟨id, model⟩ listed
  exact store.keyed id model (Std.ExtTreeMap.mem_toList_iff_getElem?_eq_some.mp listed)

theorem NamesApart.resolves {store : CatalogStore} (names : NamesApart store)
    {model : InstalledModel} (listed : model ∈ store.list) :
    store.resolve model.id = some model := by
  have slug := names.slugs model listed
  have unheld : store.byAlias model.id = none := by
    unfold CatalogStore.byAlias
    rw [List.find?_eq_none]
    intro other also
    simp [names.apart model listed other also]
  have selected : ModelSelector.parse (some model.id) = .named model.id := by
    unfold ModelSelector.parse
    simp [slug.trim, slug.1, names.unreserved model listed]
  unfold CatalogStore.resolve
  rw [selected]
  dsimp only
  rw [unheld, Option.none_or]
  exact CatalogStore.mem_list.mp listed

theorem NamesApart.unambiguous {store : CatalogStore} (names : NamesApart store) :
    Unambiguous store := by
  constructor
  · intro model listed other also different name held named own
    by_contra same
    rw [Bool.not_eq_false, sameName_comm, ← holdsAlias_of_alias own] at same
    exact different (names.distinct model listed other also name named same).symm
  · intro model listed name named other also
    rw [← holdsAlias_of_alias named]
    exact names.apart other also model listed
  · rw [ids_eq_keys]
    exact Std.ExtTreeMap.nodup_keys
  · intro model listed
    exact names.resolves listed

/-- A run from the empty catalog in which no commit gets the reserved name for its id keeps every
name unambiguous. -/
theorem names_unambiguous {state : CatalogState}
    (reached : Reaches catalogStep TakesNoReservedId ⟨.empty, ∅⟩ state) :
    Unambiguous state.store := by
  apply NamesApart.unambiguous
  apply reached.invariant (fun state => NamesApart state.store)
  · constructor <;> simp [CatalogStore.list, CatalogStore.empty]
  · intro before action after met names stepped
    cases stepped
    exact names.change met

end Runs

section Sample

attribute [local instance] asciiLowercase

theorem names_unambiguous_after_rename :
    Unambiguous (changeCatalog oneModel (.setAlias ['q'] (some ['F', 'a', 's', 't']))
      (.ok ())).2.store := by
  have added : TakesNoReservedId ⟨.empty, ∅⟩
      (.commit (scannedFile ['q', '.', 'g'] ['0']) 1, .ok ()) := Or.inr (by decide)
  apply names_unambiguous
  exact (Reaches.start.act (.commit (scannedFile ['q', '.', 'g'] ['0']) 1, .ok ()) added rfl).act
    (.setAlias ['q'] (some ['F', 'a', 's', 't']), .ok ()) trivial rfl

/-- The catalog after the import of `default.gguf`. -/
def defaultModel : CatalogState :=
  (changeCatalog ⟨.empty, ∅⟩ (.commit (scannedFile
    ['d', 'e', 'f', 'a', 'u', 'l', 't', '.', 'g', 'g', 'u', 'f'] ['0']) 1) (.ok ())).2

/-- It is listed under an id that resolves to nothing. -/
theorem default_import_unresolved :
    ¬ ∀ state, Reaches catalogStep Always ⟨.empty, ∅⟩ state → Unambiguous state.store := by
  intro every
  have reached : Reaches catalogStep Always ⟨.empty, ∅⟩ defaultModel :=
    Reaches.start.act (.commit (scannedFile
      ['d', 'e', 'f', 'a', 'u', 'l', 't', '.', 'g', 'g', 'u', 'f'] ['0']) 1, .ok ()) trivial rfl
  have resolves := (every defaultModel reached).resolves
  have listed : ∃ model ∈ defaultModel.store.list, defaultModel.store.resolve model.id = none := by
    decide
  rcases listed with ⟨model, member, missing⟩
  rw [resolves model member] at missing
  cases missing

end Sample

end Lightweight.Gateway
