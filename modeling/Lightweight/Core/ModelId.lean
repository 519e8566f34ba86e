import Mathlib.Data.Nat.Digits.Defs

/-! A model's name with the context it is served at, `{slug}@{context}`
(`lightweight-core/src/ids.rs`): whatever the slug, both are read back from the name. -/

namespace Lightweight.Core

/-- `str::rsplit_once`: what stands before and after the last `mark`. -/
def rsplitOnce (mark : Char) (text : List Char) : Option (List Char × List Char) :=
  if mark ∈ text then
    let suffix := (text.reverse.takeWhile (· ≠ mark)).reverse
    some (text.take (text.length - suffix.length - 1), suffix)
  else none

/-- `u32::from_str`: digits behind an optional plus sign, of a number that fits. -/
def parseU32 (text : List Char) : Option Nat :=
  let digits := match text with
    | '+' :: rest => rest
    | _ => text
  if digits.isEmpty || !digits.all Char.isDigit then none
  else
    let value := Nat.ofDigitChars 10 digits 0
    if value < UInt32.size then some value else none

theorem rsplitOnce_append {mark : Char} {before after : List Char} (last : mark ∉ after) :
    rsplitOnce mark (before ++ mark :: after) = some (before, after) := by
  have suffix : ((before ++ mark :: after).reverse.takeWhile (· ≠ mark)).reverse = after := by
    rw [List.reverse_append, List.reverse_cons, List.append_assoc, List.takeWhile_append_of_pos]
    · simp
    · intro c member
      have other : c ≠ mark := fun same => last (same ▸ List.mem_reverse.mp member)
      simpa using other
  have front : (before ++ mark :: after).length - after.length - 1 = before.length := by
    rw [List.length_append, List.length_cons]
    omega
  unfold rsplitOnce
  simp only [suffix, front]
  simp

theorem parseU32_toDigits {n : Nat} (small : n < UInt32.size) :
    parseU32 (Nat.toDigits 10 n) = some n := by
  have digits : ∀ c ∈ Nat.toDigits 10 n, c.isDigit = true :=
    fun c member => Nat.isDigit_of_mem_toDigits (by decide) (by decide) member
  have unsigned : ∀ rest, Nat.toDigits 10 n ≠ '+' :: rest := by
    intro rest signed
    have plus := digits '+' (by simp [signed])
    exact absurd plus (by decide)
  have filled : Nat.toDigits 10 n ≠ [] := Nat.toDigits_ne_nil
  unfold parseU32
  split
  · rename_i rest signed
    exact absurd signed (unsigned rest)
  · simp [filled, List.all_eq_true.mpr digits, Nat.ofDigitChars_ten_toDigits, small]

namespace ModelId

def formatContext (nCtx : Nat) : List Char :=
  if 1024 ≤ nCtx ∧ nCtx % 1024 = 0 then Nat.toDigits 10 (nCtx / 1024) ++ ['k']
  else Nat.toDigits 10 nCtx

/-- `ModelId::with_context`. -/
def withContext (slug : List Char) (nCtx : Nat) : List Char := slug ++ '@' :: formatContext nCtx

/-- The tokens a suffix spells: a count, or a multiple of 1024 behind a `k`. -/
def parseContext (suffix : List Char) : Option Nat :=
  let tokens :=
    if suffix.getLast? = some 'k' then
      (parseU32 suffix.dropLast).bind fun kibi =>
        if kibi * 1024 < UInt32.size then some (kibi * 1024) else none
    else parseU32 suffix
  tokens.filter (0 < ·)

/-- The portion before the context suffix, or the whole id if there is none. -/
def slug (id : List Char) : List Char :=
  match rsplitOnce '@' id with
  | some (slug, suffix) => if (parseContext suffix).isSome then slug else id
  | none => id

/-- The context that the suffix of an id spells. -/
def context (id : List Char) : Option Nat :=
  (rsplitOnce '@' id).bind fun parts => parseContext parts.2

section RoundTrip

variable {nCtx : Nat}

theorem parseContext_formatContext (positive : 0 < nCtx) (small : nCtx < UInt32.size) :
    parseContext (formatContext nCtx) = some nCtx := by
  unfold formatContext parseContext
  split
  · rename_i whole
    have kibi : nCtx / 1024 * 1024 = nCtx := Nat.div_mul_cancel (Nat.dvd_of_mod_eq_zero whole.2)
    have smaller : nCtx / 1024 < UInt32.size := lt_of_le_of_lt (Nat.div_le_self _ _) small
    simp [parseU32_toDigits smaller, kibi, small, positive]
  · have last : (Nat.toDigits 10 nCtx).getLast? ≠ some 'k' := by
      intro ends
      have digit := Nat.isDigit_of_mem_toDigits (by decide) (by decide) (List.mem_of_getLast? ends)
      exact absurd digit (by decide)
    simp [last, parseU32_toDigits small, positive]

/-- A context is digits, and at most one letter. -/
theorem formatContext_unmarked (nCtx : Nat) : '@' ∉ formatContext nCtx := by
  have digitless : ∀ n, '@' ∉ Nat.toDigits 10 n := by
    intro n member
    have digit := Nat.isDigit_of_mem_toDigits (by decide) (by decide) member
    exact absurd digit (by decide)
  unfold formatContext
  split
  · simp [digitless]
  · exact digitless nCtx

/-- What the slug looks like does not matter: the last mark is the one behind it. -/
theorem rsplitOnce_withContext (slug : List Char) (nCtx : Nat) :
    rsplitOnce '@' (withContext slug nCtx) = some (slug, formatContext nCtx) :=
  rsplitOnce_append (formatContext_unmarked nCtx)

theorem slug_withContext (slug : List Char) (positive : 0 < nCtx) (small : nCtx < UInt32.size) :
    ModelId.slug (withContext slug nCtx) = slug := by
  rw [ModelId.slug, rsplitOnce_withContext]
  simp [parseContext_formatContext positive small]

theorem context_withContext (slug : List Char) (positive : 0 < nCtx) (small : nCtx < UInt32.size) :
    context (withContext slug nCtx) = some nCtx := by
  rw [context, rsplitOnce_withContext, Option.bind_some, parseContext_formatContext positive small]

/-- A name tells its slug and its context, so no two models and no two contexts of one model share
one. -/
theorem name_tells_slug_and_context (slug : List Char) (positive : 0 < nCtx)
    (small : nCtx < UInt32.size) :
    ModelId.slug (withContext slug nCtx) = slug ∧
    context (withContext slug nCtx) = some nCtx ∧
    ∀ other otherCtx, 0 < otherCtx → otherCtx < UInt32.size →
      (withContext slug nCtx = withContext other otherCtx ↔ slug = other ∧ nCtx = otherCtx) := by
  have own_slug := slug_withContext slug positive small
  have own_context := context_withContext slug positive small
  refine ⟨own_slug, own_context, ?_⟩
  intro other otherCtx other_positive other_small
  constructor
  · intro same
    rw [same, slug_withContext other other_positive other_small] at own_slug
    rw [same, context_withContext other other_positive other_small] at own_context
    exact ⟨own_slug.symm, (Option.some.inj own_context).symm⟩
  · intro both
    rw [both.1, both.2]

/-- A slug that ends like a context itself. -/
theorem name_tells_slug_and_context_imitated :
    context (withContext "m@8k".toList 8192) = some 8192 ∧
      withContext "m@8k".toList 8192 ≠ withContext "m".toList 8192 := by
  obtain ⟨-, told, apart⟩ :=
    name_tells_slug_and_context "m@8k".toList (by decide : 0 < 8192) (by decide)
  exact ⟨told, fun same => absurd ((apart _ _ (by decide) (by decide)).mp same).1 (by decide)⟩

end RoundTrip

end ModelId

end Lightweight.Core
