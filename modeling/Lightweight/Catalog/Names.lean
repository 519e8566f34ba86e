import Lightweight.Catalog.FreeId

/-! What the checks on a name promise, and what giving and taking names does to a catalog. -/

namespace Lightweight.Catalog

open Lightweight.Core

theorem trim_idempotent (text : List Char) : trim (trim text) = trim text := by
  unfold Core.trim
  generalize front : text.dropWhile isWhitespace = visible
  have same : (visible.rdropWhile isWhitespace).dropWhile isWhitespace =
      visible.rdropWhile isWhitespace := by
    rw [List.dropWhile_eq_self_iff]
    intro some'
    have head := (List.rdropWhile_prefix isWhitespace visible).getElem some'
    rw [head]
    have long := lt_of_lt_of_le some' (List.rdropWhile_prefix isWhitespace visible).length_le
    have kept := List.dropWhile_idempotent isWhitespace text
    rw [front, List.dropWhile_eq_self_iff] at kept
    exact kept long
  rw [same, List.rdropWhile_idempotent]

/-- A name that was accepted is accepted again as it is. -/
theorem validateAlias_idempotent {raw name : List Char} (accepted : validateAlias raw = .ok name) :
    validateAlias name = .ok name := by
  have trimmed : name = trim raw := by
    unfold validateAlias at accepted
    dsimp only at accepted
    split_ifs at accepted
    split at accepted
    · cases accepted
    · exact (Except.ok.inj accepted).symm
  unfold validateAlias at accepted ⊢
  rw [trimmed, trim_idempotent]
  rw [trimmed] at accepted
  exact accepted

theorem isReserved_iff {name : List Char} : isReserved name = true ↔
    (trim name).map Char.toLower = ['d', 'e', 'f', 'a', 'u', 'l', 't'] := by
  have lower : ['d', 'e', 'f', 'a', 'u', 'l', 't'].map Char.toLower =
      ['d', 'e', 'f', 'a', 'u', 'l', 't'] := by decide
  simp only [isReserved, reservedSelectors, List.any_cons, List.any_nil, Bool.or_false,
    eqIgnoreAsciiCase, lower, beq_iff_eq]
  exact eq_comm

namespace CatalogStore

theorem mem_replace {store : CatalogStore} {added model : InstalledModel} :
    model ∈ (store.replace added).list ↔
      model = added ∨ (model.id ≠ added.id ∧ model ∈ store.list) := by
  rw [mem_list, mem_list, get_replace]
  by_cases same : added.id = model.id
  · rw [if_pos same, Option.some.injEq]
    constructor
    · intro equal
      exact Or.inl equal.symm
    · rintro (rfl | ⟨different, _⟩)
      · rfl
      · exact absurd same.symm different
  · rw [if_neg same]
    constructor
    · intro found
      exact Or.inr ⟨fun equal => same equal.symm, found⟩
    · rintro (rfl | ⟨_, found⟩)
      · exact absurd rfl same
      · exact found

theorem mem_erase {store : CatalogStore} {id : List Char} {model : InstalledModel} :
    model ∈ (store.erase id).list ↔ model.id ≠ id ∧ model ∈ store.list := by
  rw [mem_list, mem_list, get_erase]
  by_cases same : id = model.id
  · simp [same]
  · simp [same, Ne.symm same]

theorem replace_replace (store : CatalogStore) {model other : InstalledModel}
    (same : model.id = other.id) : (store.replace model).replace other = store.replace other := by
  apply ext_get
  intro id
  rw [get_replace, get_replace, get_replace, same]
  split <;> rfl

theorem replace_eq_self_iff {store : CatalogStore} {model : InstalledModel} :
    store.replace model = store ↔ store.get model.id = some model := by
  constructor
  · intro equal
    rw [← equal, get_replace, if_pos rfl]
  · intro found
    apply ext_get
    intro id
    rw [get_replace]
    split
    · rename_i same
      rw [← same]
      exact found.symm
    · rfl

section Checks

variable [Lowercase]

theorem checkAlias_eq_ok {store : CatalogStore} {raw name : List Char}
    {forId : Option (List Char)} :
    store.checkAlias raw forId = .ok name ↔
      validateAlias raw = .ok name ∧ (∀ model ∈ store.list, sameName model.id name = false) ∧
        ∀ other ∈ store.list, some other.id ≠ forId → holdsAlias other name = false := by
  unfold checkAlias
  cases validateAlias raw with
  | error problem => simp
  | ok accepted =>
      dsimp only
      constructor
      · intro checked
        split at checked
        · cases checked
        · rename_i unnamed
          split at checked
          · cases checked
          · rename_i unheld
            cases checked
            refine ⟨rfl, ?_, ?_⟩
            · intro model listed
              simpa using List.find?_eq_none.mp unnamed model listed
            · intro other listed different
              simpa [different] using List.find?_eq_none.mp unheld other listed
      · rintro ⟨same, unnamed, unheld⟩
        cases same
        have noId : store.list.find? (fun model => sameName model.id name) = none := by
          rw [List.find?_eq_none]
          intro model listed
          simp [unnamed model listed]
        have noOwner : store.list.find? (fun other =>
            decide (some other.id ≠ forId) && holdsAlias other name) = none := by
          rw [List.find?_eq_none]
          intro other listed
          by_cases own : some other.id = forId
          · simp [own]
          · simp [own, unheld other listed own]
        rw [noId]
        dsimp only
        rw [noOwner]

theorem checkAlias_idempotent {store : CatalogStore} {raw name : List Char}
    {forId : Option (List Char)} (checked : store.checkAlias raw forId = .ok name) :
    store.checkAlias name forId = .ok name := by
  rw [checkAlias_eq_ok] at checked ⊢
  exact ⟨validateAlias_idempotent checked.1, checked.2⟩

/-- What a model may be called does not depend on what it is called. -/
theorem checkAlias_rename {store : CatalogStore} {model : InstalledModel}
    (found : store.get model.id = some model) (given : Option (List Char))
    (raw name : List Char) :
    (store.replace { model with aliasName := given }).checkAlias raw (some model.id) = .ok name ↔
      store.checkAlias raw (some model.id) = .ok name := by
  rw [checkAlias_eq_ok, checkAlias_eq_ok]
  have listed : model ∈ store.list := mem_list.mpr found
  constructor
  · rintro ⟨accepted, unnamed, unheld⟩
    refine ⟨accepted, ?_, ?_⟩
    · intro other member
      by_cases own : other.id = model.id
      · rw [own]
        exact unnamed { model with aliasName := given } (mem_replace.mpr (Or.inl rfl))
      · exact unnamed other (mem_replace.mpr (Or.inr ⟨own, member⟩))
    · intro other member different
      apply unheld other (mem_replace.mpr (Or.inr ⟨?_, member⟩)) different
      exact fun own => different (congrArg some own)
  · rintro ⟨accepted, unnamed, unheld⟩
    refine ⟨accepted, ?_, ?_⟩
    · intro other member
      rcases mem_replace.mp member with rfl | ⟨_, old⟩
      · exact unnamed model listed
      · exact unnamed other old
    · intro other member different
      rcases mem_replace.mp member with rfl | ⟨_, old⟩
      · exact absurd rfl different
      · exact unheld other old different

theorem resolve_mem {store : CatalogStore} {name : List Char} {model : InstalledModel}
    (resolved : store.resolve name = some model) : model ∈ store.list := by
  unfold resolve at resolved
  split at resolved
  · cases resolved
  · rcases Option.or_eq_some_iff.mp resolved with held | ⟨_, named⟩
    · exact List.mem_of_find?_eq_some held
    · rw [mem_list, get_id named]
      exact named

theorem ensureIdUnaliased_eq_ok {store : CatalogStore} {id : List Char} :
    store.ensureIdUnaliased id = .ok () ↔
      ∀ model ∈ store.list, model.id ≠ id → holdsAlias model id = false := by
  unfold ensureIdUnaliased
  split
  · rename_i owner found
    have held := List.find?_some found
    rw [Bool.and_eq_true, decide_eq_true_eq] at held
    constructor
    · intro impossible
      cases impossible
    · intro unheld
      rw [unheld owner (List.mem_of_find?_eq_some found) held.1] at held
      cases held.2
  · rename_i missing
    simp only [true_iff]
    intro model listed different
    simpa [different] using List.find?_eq_none.mp missing model listed

end Checks

end CatalogStore

end Lightweight.Catalog
