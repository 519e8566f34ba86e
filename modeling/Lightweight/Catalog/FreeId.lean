import Mathlib.Data.List.Nodup
import Mathlib.Data.List.Perm.Subperm
import Lightweight.Catalog.Store

/-! Ids are slugs: ASCII in lower case, compared as they are. A search for a free one ends, because
each model takes two names at most. -/

namespace Lightweight.Catalog

open Lightweight.Core

def isSlugChar (c : Char) : Bool :=
  (97 ≤ c.toNat && c.toNat ≤ 122) || (48 ≤ c.toNat && c.toNat ≤ 57) || c.toNat == 45 ||
    c.toNat == 46 || c.toNat == 95

def IsSlug (text : List Char) : Prop :=
  text ≠ [] ∧ ∀ c ∈ text, isSlugChar c = true

theorem isSlugChar_cases {c : Char} (slug : isSlugChar c = true) :
    (97 ≤ c.toNat ∧ c.toNat ≤ 122) ∨ (48 ≤ c.toNat ∧ c.toNat ≤ 57) ∨ c.toNat = 45 ∨
      c.toNat = 46 ∨ c.toNat = 95 := by
  simp only [isSlugChar, Bool.or_eq_true, Bool.and_eq_true, decide_eq_true_eq, beq_iff_eq] at slug
  tauto

theorem isSlugChar_ascii {c : Char} (slug : isSlugChar c = true) : c.toNat < 128 := by
  have := isSlugChar_cases slug
  omega

theorem isSlugChar_not_whitespace {c : Char} (slug : isSlugChar c = true) :
    isWhitespace c = false := by
  have := isSlugChar_cases slug
  simp only [isWhitespace, Bool.or_eq_false_iff, Bool.and_eq_false_iff, decide_eq_false_iff_not,
    beq_eq_false_iff_ne]
  omega

theorem toLower_of_not_upper {c : Char} (other : ¬ (65 ≤ c.toNat ∧ c.toNat ≤ 90)) :
    c.toLower = c := by
  unfold Char.toLower
  exact dif_neg other

theorem toNat_toLower_of_upper {c : Char} (upper : 65 ≤ c.toNat ∧ c.toNat ≤ 90) :
    c.toLower.toNat = c.toNat + 32 := by
  have held : c.val ≥ 'A'.val ∧ c.val ≤ 'Z'.val := upper
  unfold Char.toLower
  rw [dif_pos held]
  have sum : (c.val + ('a'.val - 'A'.val)).toNat = c.val.toNat + 32 := by
    rw [UInt32.toNat_add]
    exact Nat.mod_eq_of_lt (Nat.lt_of_le_of_lt (Nat.add_le_add_right upper.2 32) (by decide))
  exact sum

theorem isSlugChar_toLower {c : Char} (slug : isSlugChar c = true) : c.toLower = c := by
  have low := isSlugChar_cases slug
  exact toLower_of_not_upper (by omega)

theorem isAsciiAlphanumeric_cases {c : Char} (plain : isAsciiAlphanumeric c = true) :
    (97 ≤ c.toNat ∧ c.toNat ≤ 122) ∨ (65 ≤ c.toNat ∧ c.toNat ≤ 90) ∨
      (48 ≤ c.toNat ∧ c.toNat ≤ 57) := by
  simp only [isAsciiAlphanumeric, Bool.or_eq_true, Bool.and_eq_true, decide_eq_true_eq,
    Char.le_def, UInt32.le_iff_toNat_le] at plain
  rcases plain with (lower | upper) | digit
  · exact Or.inl lower
  · exact Or.inr (Or.inl upper)
  · exact Or.inr (Or.inr digit)

theorem isSlugChar_of_range {c : Char} (low : (97 ≤ c.toNat ∧ c.toNat ≤ 122) ∨
    (48 ≤ c.toNat ∧ c.toNat ≤ 57) ∨ c.toNat = 45 ∨ c.toNat = 46 ∨ c.toNat = 95) :
    isSlugChar c = true := by
  simp only [isSlugChar, Bool.or_eq_true, Bool.and_eq_true, decide_eq_true_eq, beq_iff_eq]
  tauto

/-- The characters that `slug_for` writes. -/
theorem isSlugChar_slugged (c : Char) :
    isSlugChar (if isAsciiAlphanumeric c || c == '.' || c == '-' || c == '_' then c.toLower
      else '-') = true := by
  split
  · rename_i kept
    simp only [Bool.or_eq_true, beq_iff_eq] at kept
    rcases kept with ((plain | rfl) | rfl) | rfl
    · rcases isAsciiAlphanumeric_cases plain with lower | upper | digit
      · rw [toLower_of_not_upper (by omega)]
        exact isSlugChar_of_range (Or.inl lower)
      · apply isSlugChar_of_range
        rw [toNat_toLower_of_upper upper]
        omega
      · rw [toLower_of_not_upper (by omega)]
        exact isSlugChar_of_range (Or.inr (Or.inl digit))
    · decide
    · decide
    · decide
  · decide

theorem slugFor_isSlug (fileName : Option (List Char)) : IsSlug (slugFor fileName) := by
  unfold slugFor
  dsimp only
  split
  · exact ⟨by simp, by simp [isSlugChar]⟩
  · rename_i some'
    refine ⟨by simpa using some', ?_⟩
    intro c member
    have kept := (List.dropWhile_sublist _).subset ((List.rdropWhile_prefix _ _).subset member)
    rcases List.mem_map.mp kept with ⟨original, _, rfl⟩
    exact isSlugChar_slugged original

theorem PinnedModel.id_isSlug (model : PinnedModel) : IsSlug model.id := by
  cases model <;> exact ⟨by simp [PinnedModel.id], by simp [PinnedModel.id, isSlugChar]⟩

theorem PlannedId.text_isSlug (planned : PlannedId) : IsSlug planned.text := by
  cases planned with
  | pinned model => exact model.id_isSlug
  | link fileName => exact slugFor_isSlug (some fileName)

theorem IsSlug.trim {text : List Char} (slug : IsSlug text) : trim text = text := by
  have visible : ∀ c ∈ text, ¬ isWhitespace c = true := fun c member => by
    simp [isSlugChar_not_whitespace (slug.2 c member)]
  unfold Core.trim
  have front : text.dropWhile isWhitespace = text := by
    cases text with
    | nil => rfl
    | cons c rest => exact List.dropWhile_cons_of_neg (visible c List.mem_cons_self)
  rw [front]
  exact List.rdropWhile_eq_self_iff.mpr fun some' => visible _ (List.getLast_mem some')

section Keys

variable [Lowercase]

/-- A slug is its own lookup key. -/
theorem IsSlug.lookupKey {text : List Char} (slug : IsSlug text) : lookupKey text = text := by
  unfold Catalog.lookupKey
  rw [slug.trim, Lowercase.ascii text fun c member => isSlugChar_ascii (slug.2 c member)]
  calc
    text.map Char.toLower = text.map id :=
      List.map_congr_left fun c member => isSlugChar_toLower (slug.2 c member)
    _ = text := List.map_id text

end Keys

theorem isSlugChar_digit {n : Nat} {c : Char} (member : c ∈ Nat.toDigits 10 n) :
    isSlugChar c = true := by
  have digit := Nat.isDigit_of_mem_toDigits (by decide) (by decide) member
  simp only [Char.isDigit, Bool.and_eq_true, decide_eq_true_eq, ge_iff_le,
    UInt32.le_iff_toNat_le] at digit
  exact isSlugChar_of_range (Or.inr (Or.inl digit))

theorem IsSlug.numbered {base : List Char} (slug : IsSlug base) (n : Nat) :
    IsSlug (CatalogStore.numbered base n) := by
  refine ⟨by simp [CatalogStore.numbered], ?_⟩
  intro c member
  rcases List.mem_append.mp member with front | back
  · exact slug.2 c front
  · rcases List.mem_cons.mp back with rfl | digit
    · decide
    · exact isSlugChar_digit digit

theorem numbered_injective {base : List Char} {m n : Nat}
    (same : CatalogStore.numbered base m = CatalogStore.numbered base n) : m = n := by
  have digits : Nat.toDigits 10 m = Nat.toDigits 10 n := by
    simpa [CatalogStore.numbered] using same
  calc
    m = Nat.ofDigitChars 10 (Nat.toDigits 10 m) 0 := Nat.ofDigitChars_ten_toDigits.symm
    _ = Nat.ofDigitChars 10 (Nat.toDigits 10 n) 0 := by rw [digits]
    _ = n := Nat.ofDigitChars_ten_toDigits

namespace CatalogStore

variable [Lowercase]

/-- The lookup keys of every id and every alias. -/
def takenKeys (store : CatalogStore) : List (List Char) :=
  store.list.map (fun model => lookupKey model.id) ++
    store.list.filterMap fun model => model.aliasName.map lookupKey

theorem takenKeys_length (store : CatalogStore) :
    store.takenKeys.length ≤ 2 * store.list.length := by
  have aliases := List.length_filterMap_le (fun model : InstalledModel =>
    model.aliasName.map lookupKey) store.list
  rw [takenKeys, List.length_append, List.length_map]
  omega

theorem holdsAlias_iff {model : InstalledModel} {name : List Char} :
    holdsAlias model name = true ↔ ∃ held, model.aliasName = some held ∧
      lookupKey held = lookupKey name := by
  unfold holdsAlias
  cases model.aliasName with
  | none => simp
  | some held => simp [sameName_iff]

theorem isTaken_iff {store : CatalogStore} {name : List Char} :
    store.isTaken name = true ↔ lookupKey name ∈ store.takenKeys := by
  simp only [isTaken, byAlias, takenKeys, Bool.or_eq_true, List.any_eq_true, List.find?_isSome,
    List.mem_append, List.mem_map, List.mem_filterMap, sameName_iff, holdsAlias_iff,
    Option.map_eq_some_iff]

theorem freeFrom_eq_some {store : CatalogStore} {base name : List Char} {tries n : Nat}
    (found : store.freeFrom base tries n = some name) :
    store.isTaken name = false ∧ ∃ k, name = numbered base k := by
  induction tries generalizing n with
  | zero => cases found
  | succ tries ih =>
      rw [freeFrom] at found
      split at found
      · exact ih found
      · rename_i free
        rw [← Option.some.inj found]
        exact ⟨by simpa using free, n, rfl⟩

theorem freeFrom_eq_none {store : CatalogStore} {base : List Char} {tries n : Nat}
    (missing : store.freeFrom base tries n = none) :
    ∀ i < tries, store.isTaken (numbered base (n + i)) = true := by
  induction tries generalizing n with
  | zero => simp
  | succ tries ih =>
      rw [freeFrom] at missing
      split at missing
      · rename_i taken
        intro i small
        cases i with
        | zero => exact taken
        | succ i =>
            have later := ih missing i (by omega)
            rwa [Nat.add_right_comm, Nat.add_assoc] at later
      · cases missing

/-- More numbered names than there are taken ones cannot all be taken. -/
theorem freeFrom_enough (store : CatalogStore) {base : List Char} (slug : IsSlug base) (n : Nat) :
    store.freeFrom base (2 * store.list.length + 1) n ≠ none := by
  intro missing
  have taken := freeFrom_eq_none missing
  have distinct : ((List.range (2 * store.list.length + 1)).map
      fun i => numbered base (n + i)).Nodup := by
    apply List.Nodup.map ?_ List.nodup_range
    intro i j same
    exact Nat.add_left_cancel (numbered_injective same)
  have covered : ((List.range (2 * store.list.length + 1)).map
      fun i => numbered base (n + i)) ⊆ store.takenKeys := by
    intro name member
    rcases List.mem_map.mp member with ⟨i, small, rfl⟩
    have key := isTaken_iff.mp (taken i (List.mem_range.mp small))
    rwa [(slug.numbered (n + i)).lookupKey] at key
  have bounded := (List.Nodup.subperm distinct covered).length_le
  rw [List.length_map, List.length_range] at bounded
  exact absurd (le_trans bounded store.takenKeys_length) (by omega)

theorem freeId_free (store : CatalogStore) {base : List Char} (slug : IsSlug base) :
    store.isTaken (store.freeId base) = false ∧ IsSlug (store.freeId base) := by
  unfold freeId
  split
  · rename_i free
    exact ⟨by simpa using free, slug⟩
  · cases found : store.freeFrom base (2 * store.list.length + 1) 2 with
    | none => exact absurd found (store.freeFrom_enough slug 2)
    | some name =>
        rcases freeFrom_eq_some found with ⟨free, k, rfl⟩
        exact ⟨free, slug.numbered k⟩

/-- A name that is not taken is nobody's id. -/
theorem get_of_free {store : CatalogStore} {name : List Char} (free : store.isTaken name = false) :
    store.get name = none := by
  cases found : store.get name with
  | none => rfl
  | some model =>
      have taken : store.isTaken name = true := by
        rw [isTaken_iff, takenKeys, List.mem_append, List.mem_map]
        have listed : model ∈ store.list := mem_list.mpr (by rw [get_id found]; exact found)
        exact Or.inl ⟨model, listed, by rw [get_id found]⟩
      rw [taken] at free
      cases free

end CatalogStore

end Lightweight.Catalog
