import Mathlib.Data.Nat.Digits.Defs
import Lightweight.Store.JsonText

/-! JSON texts as `serde_json` writes them without white space. -/

namespace Lightweight.Store

open Lightweight.Core Lightweight.Router

/-- The short escapes; other control characters are written by their number. -/
def escaped (c : Char) : List Char :=
  if c = '"' then ['\\', '"']
  else if c = '\\' then ['\\', '\\']
  else if c.toNat = 0x8 then ['\\', 'b']
  else if c.toNat = 0x9 then ['\\', 't']
  else if c.toNat = 0xA then ['\\', 'n']
  else if c.toNat = 0xC then ['\\', 'f']
  else if c.toNat = 0xD then ['\\', 'r']
  else if c.toNat < 0x20 then
    ['\\', 'u', '0', '0', Nat.digitChar (c.toNat / 16), Nat.digitChar (c.toNat % 16)]
  else [c]

def quoted (text : List Char) : List Char :=
  '"' :: text.flatMap escaped ++ ['"']

/-- The digits of a float are the printer's own. -/
def Number.compact (float : UInt64 → List Char) : Number → List Char
  | .posInt n => Nat.toDigits 10 n
  | .negInt n => '-' :: Nat.toDigits 10 n.natAbs
  | .float bits => float bits

mutual

def Content.compact (float : UInt64 → List Char) : Content → List Char
  | .null => ['n', 'u', 'l', 'l']
  | .bool true => ['t', 'r', 'u', 'e']
  | .bool false => ['f', 'a', 'l', 's', 'e']
  | .number n => Number.compact float n
  | .string text => quoted text
  | .seq items => '[' :: compactItems float items ++ [']']
  | .map members => '{' :: compactMembers float members ++ ['}']

def compactItems (float : UInt64 → List Char) : List Content → List Char
  | [] => []
  | item :: items =>
      item.compact float ++ if items.isEmpty then [] else ',' :: compactItems float items

def compactMembers (float : UInt64 → List Char) : List (List Char × Content) → List Char
  | [] => []
  | (key, content) :: members =>
      quoted key ++ ':' :: content.compact float ++
        if members.isEmpty then [] else ',' :: compactMembers float members

end

/-- A text on one line. -/
def OneLine (text : List Char) : Prop := ∀ c ∈ text, isBreak c = false

instance (text : List Char) : Decidable (OneLine text) :=
  List.decidableBAll (fun c => isBreak c = false) text

@[simp]
theorem oneLine_nil : OneLine [] := fun _ member => absurd member List.not_mem_nil

@[simp]
theorem oneLine_cons {c : Char} {text : List Char} :
    OneLine (c :: text) ↔ isBreak c = false ∧ OneLine text :=
  List.forall_mem_cons

@[simp]
theorem oneLine_append {xs ys : List Char} : OneLine (xs ++ ys) ↔ OneLine xs ∧ OneLine ys :=
  List.forall_mem_append

theorem isBreak_iff (c : Char) : isBreak c = false ↔ c.toNat ≠ 0xA ∧ c.toNat ≠ 0xD := by
  have number (d : Char) : c = d ↔ c.toNat = d.toNat :=
    ⟨congrArg Char.toNat, fun same => Char.ext (UInt32.toNat_inj.mp same)⟩
  rw [isBreak, Bool.or_eq_false_iff, beq_eq_false_iff_ne, beq_eq_false_iff_ne, ne_eq, ne_eq,
    number '\n', number '\r']
  rfl

theorem isBreak_digitChar (n : Nat) : isBreak (Nat.digitChar n) = false := by
  have small : ∀ n < 16, isBreak (Nat.digitChar n) = false := by decide
  by_cases digit : n < 16
  · exact small n digit
  · have star : Nat.digitChar n = '*' := by
      unfold Nat.digitChar
      repeat rw [if_neg (by omega)]
    rw [star]
    rfl

theorem oneLine_escaped (c : Char) : OneLine (escaped c) := by
  unfold escaped
  repeat' split
  · decide
  · decide
  · decide
  · decide
  · decide
  · decide
  · decide
  · have letters : isBreak '\\' = false ∧ isBreak 'u' = false ∧ isBreak '0' = false := by decide
    simp [isBreak_digitChar, letters]
  · rename_i feed _ return_ _
    simp [isBreak_iff, feed, return_]

theorem oneLine_quoted (text : List Char) : OneLine (quoted text) := by
  have inner : OneLine (text.flatMap escaped) := by
    intro c member
    obtain ⟨d, -, inside⟩ := List.mem_flatMap.mp member
    exact oneLine_escaped d c inside
  simp [quoted, inner, isBreak]

theorem oneLine_toDigits (n : Nat) : OneLine (Nat.toDigits 10 n) := by
  intro c member
  have digit := Nat.isDigit_of_mem_toDigits (by decide) (by decide) member
  have low : 48 ≤ c.toNat := by
    simpa [Char.isDigit, Char.le_def, UInt32.le_iff_toNat_le] using (Bool.and_eq_true_iff.mp digit).1
  rw [isBreak_iff]
  omega

/-! ### Where the breaks are not -/

variable {float : UInt64 → List Char}

theorem oneLine_number (plain : ∀ bits, OneLine (float bits)) (n : Number) :
    OneLine (Number.compact float n) := by
  cases n with
  | posInt n => exact oneLine_toDigits n
  | negInt n => exact oneLine_cons.mpr ⟨rfl, oneLine_toDigits _⟩
  | float bits => exact plain bits

mutual

/-- What is written has no line break, whatever the texts in it are. -/
theorem oneLine_compact (plain : ∀ bits, OneLine (float bits)) :
    ∀ content : Content, OneLine (content.compact float)
  | .null => by simp [Content.compact, isBreak]
  | .bool true => by simp [Content.compact, isBreak]
  | .bool false => by simp [Content.compact, isBreak]
  | .number n => oneLine_number plain n
  | .string text => oneLine_quoted text
  | .seq items => by
      have inner := oneLine_compactItems plain items
      simp [Content.compact, inner, isBreak]
  | .map members => by
      have inner := oneLine_compactMembers plain members
      simp [Content.compact, inner, isBreak]

theorem oneLine_compactItems (plain : ∀ bits, OneLine (float bits)) :
    ∀ items : List Content, OneLine (compactItems float items)
  | [] => oneLine_nil
  | item :: items => by
      have here := oneLine_compact plain item
      have later := oneLine_compactItems plain items
      cases items with
      | nil => simp [compactItems, here]
      | cons next items =>
          rw [compactItems, oneLine_append]
          exact ⟨here, oneLine_cons.mpr ⟨rfl, later⟩⟩

theorem oneLine_compactMembers (plain : ∀ bits, OneLine (float bits)) :
    ∀ members : List (List Char × Content), OneLine (compactMembers float members)
  | [] => oneLine_nil
  | (key, content) :: members => by
      have name := oneLine_quoted key
      have here := oneLine_compact plain content
      have later := oneLine_compactMembers plain members
      cases members with
      | nil => simp [compactMembers, name, here, isBreak]
      | cons next members =>
          rw [compactMembers, oneLine_append, oneLine_append]
          exact ⟨⟨name, oneLine_cons.mpr ⟨rfl, here⟩⟩, oneLine_cons.mpr ⟨rfl, later⟩⟩

end

end Lightweight.Store
