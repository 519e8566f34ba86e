import Mathlib.Data.List.Sort

/-! The file of API keys, read and written whole. -/

namespace Lightweight.Store

/-- How much a key may be used; nothing on an axis is unlimited. -/
structure RateLimit where
  perMinute : Option UInt32
  perDay : Option UInt32
deriving DecidableEq, Repr

def RateLimit.isUnlimited (limit : RateLimit) : Bool :=
  limit.perMinute.isNone && limit.perDay.isNone

/-- A key as it is stored: all but the key itself. -/
structure ApiKeyRecord where
  id : String
  name : String
  /-- The digest of the key. -/
  hash : String
  createdAt : Nat
  limit : RateLimit
deriving DecidableEq, Repr

/-- What is written of the keys: in the order of their creation. -/
def written (keys : List ApiKeyRecord) : List ApiKeyRecord :=
  keys.insertionSort fun first second => first.createdAt ≤ second.createdAt

/-- The new ceiling for the first record with an id. -/
def withLimit (id : String) (limit : RateLimit) : List ApiKeyRecord → List ApiKeyRecord
  | [] => []
  | record :: records =>
      if record.id = id then { record with limit } :: records
      else record :: withLimit id limit records

/-- A request that changes the file. -/
inductive KeyOp where
  | create (record : ApiKeyRecord)
  | revoke (id : String)
  | setLimit (id : String) (limit : RateLimit)
deriving DecidableEq

/-- What a request writes for what it has read, and nothing where the key is not found. -/
def KeyOp.change (file : List ApiKeyRecord) : KeyOp → Option (List ApiKeyRecord)
  | .create record => some (written (file ++ [record]))
  | .revoke id =>
      let kept := file.filter fun record => record.id ≠ id
      if kept.length = file.length then none else some (written kept)
  | .setLimit id limit =>
      if file.any fun record => record.id = id then some (written (withLimit id limit file)) else none

/-- The last key that a digest matches. -/
def verifyAgainst (keys : List ApiKeyRecord) (hash : String) : Option ApiKeyRecord :=
  keys.foldl (fun matched record => if record.hash = hash then some record else matched) none

theorem mem_written {keys : List ApiKeyRecord} {record : ApiKeyRecord} :
    record ∈ written keys ↔ record ∈ keys :=
  List.mem_insertionSort _

/-- The ids of the keys. -/
def ids (keys : List ApiKeyRecord) : List String := keys.map ApiKeyRecord.id

theorem mem_ids {keys : List ApiKeyRecord} {id : String} :
    id ∈ ids keys ↔ ∃ record ∈ keys, record.id = id :=
  List.mem_map

theorem mem_ids_written {keys : List ApiKeyRecord} {id : String} :
    id ∈ ids (written keys) ↔ id ∈ ids keys := by
  simp only [mem_ids, mem_written]

theorem ids_withLimit (id : String) (limit : RateLimit) (keys : List ApiKeyRecord) :
    ids (withLimit id limit keys) = ids keys := by
  induction keys with
  | nil => rfl
  | cons record records ih =>
      unfold withLimit
      split
      · rfl
      · exact congrArg (record.id :: ·) ih

/-- The ids that a request leaves, from those that there are. -/
def KeyOp.leaves (before : List String) : KeyOp → List String
  | .create record => before ++ [record.id]
  | .revoke id => before.filter (· ≠ id)
  | .setLimit _ _ => before

theorem KeyOp.mem_leaves {op : KeyOp} {before : List String} {id : String} :
    id ∈ op.leaves before ↔
      (∃ record, op = .create record ∧ record.id = id) ∨ id ∈ before ∧ op ≠ .revoke id := by
  cases op with
  | create record =>
      simp only [KeyOp.leaves, List.mem_append, List.mem_singleton, KeyOp.create.injEq,
        exists_eq_left', ne_eq, reduceCtorEq, not_false_eq_true, and_true]
      rw [or_comm, eq_comm]
  | revoke target =>
      simp only [KeyOp.leaves, List.mem_filter, decide_eq_true_eq, KeyOp.revoke.injEq, reduceCtorEq,
        false_and, exists_false, false_or, ne_eq]
      rw [eq_comm]
  | setLimit target limit =>
      simp only [KeyOp.leaves, reduceCtorEq, false_and, exists_false, false_or, ne_eq,
        not_false_eq_true, and_true]

/-- The keys that a request writes are those that it leaves. -/
theorem KeyOp.mem_ids_change {op : KeyOp} {file keys : List ApiKeyRecord}
    (changed : op.change file = some keys) (id : String) : id ∈ ids keys ↔ id ∈ op.leaves (ids file) := by
  cases op with
  | create record =>
      cases changed
      rw [mem_ids_written]
      simp only [ids, List.map_append, List.map_cons, List.map_nil, KeyOp.leaves]
  | revoke target =>
      simp only [KeyOp.change] at changed
      split at changed
      · cases changed
      · cases changed
        rw [mem_ids_written]
        simp only [KeyOp.leaves, ids, List.mem_map, List.mem_filter, decide_eq_true_eq]
        constructor
        · rintro ⟨record, ⟨listed, other⟩, rfl⟩
          exact ⟨⟨record, listed, rfl⟩, other⟩
        · rintro ⟨⟨record, listed, rfl⟩, other⟩
          exact ⟨record, ⟨listed, other⟩, rfl⟩
  | setLimit target limit =>
      simp only [KeyOp.change] at changed
      split at changed
      · cases changed
        rw [mem_ids_written, ids_withLimit]
        rfl
      · cases changed

/-- A revoke that writes has found its key. -/
theorem KeyOp.mem_of_revoke {id : String} {file keys : List ApiKeyRecord}
    (changed : (KeyOp.revoke id).change file = some keys) : id ∈ ids file := by
  simp only [KeyOp.change] at changed
  split at changed
  · cases changed
  · rename_i shorter
    by_contra absent
    apply shorter
    congr 1
    apply List.filter_eq_self.mpr
    intro record listed
    rw [decide_eq_true_eq]
    rintro rfl
    exact absent (List.mem_map_of_mem listed)

/-- A digest matches only a key that is there. -/
theorem mem_of_verifyAgainst {keys : List ApiKeyRecord} {hash : String} {record : ApiKeyRecord}
    (verified : verifyAgainst keys hash = some record) : record ∈ keys := by
  have general : ∀ (matched : Option ApiKeyRecord),
      keys.foldl (fun matched record => if record.hash = hash then some record else matched) matched =
        some record → matched = some record ∨ record ∈ keys := by
    clear verified
    induction keys with
    | nil => exact fun matched same => Or.inl same
    | cons head tail ih =>
        intro matched same
        rw [List.foldl_cons] at same
        rcases ih _ same with here | later
        · split at here
          · cases here
            exact Or.inr List.mem_cons_self
          · exact Or.inl here
        · exact Or.inr (List.mem_cons_of_mem _ later)
  rcases general none verified with none_matched | listed
  · cases none_matched
  · exact listed

end Lightweight.Store
