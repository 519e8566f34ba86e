import Lightweight.Core.Sse

/-! Names a person chose for their models, and how a requested name is read
(`lightweight-catalog/src/alias.rs`). -/

namespace Lightweight.Catalog

open Lightweight.Core

/-- `str::to_lowercase`, of which only what it does to ASCII text is relied on. -/
class Lowercase where
  toLowercase : List Char → List Char
  ascii : ∀ text : List Char, (∀ c ∈ text, c.toNat < 128) → toLowercase text = text.map Char.toLower

/-- A lower case that leaves everything outside ASCII as it is. -/
@[reducible]
def asciiLowercase : Lowercase where
  toLowercase text := text.map Char.toLower
  ascii _ _ := rfl

def eqIgnoreAsciiCase (a b : List Char) : Bool :=
  a.map Char.toLower == b.map Char.toLower

def maxAliasChars : Nat := 64

def reservedSelectors : List (List Char) := [['d', 'e', 'f', 'a', 'u', 'l', 't']]

def isReserved (name : List Char) : Bool :=
  reservedSelectors.any fun reserved => eqIgnoreAsciiCase reserved (trim name)

inductive ModelSelector where
  | default
  | named (name : List Char)
deriving DecidableEq, Repr

def ModelSelector.parse (requested : Option (List Char)) : ModelSelector :=
  let trimmed := trim (requested.getD [])
  if trimmed.isEmpty || isReserved trimmed then .default else .named trimmed

section Names

variable [Lowercase]

/-- The form an alias is compared in. -/
def lookupKey (name : List Char) : List Char :=
  Lowercase.toLowercase (trim name)

def sameName (a b : List Char) : Bool :=
  lookupKey a == lookupKey b

theorem sameName_iff {a b : List Char} : sameName a b = true ↔ lookupKey a = lookupKey b := by
  simp [sameName]

theorem sameName_comm (a b : List Char) : sameName a b = sameName b a := by
  rw [Bool.eq_iff_iff, sameName_iff, sameName_iff, eq_comm]

end Names

inductive AliasProblem where
  | empty
  | tooLong
  | reserved
  | character (c : Char)
  | dotSegment
deriving DecidableEq, Repr

/-- `char::is_control`: the characters of the Unicode category `Cc`. -/
def isControl (c : Char) : Bool :=
  c.toNat ≤ 0x1F || (0x7F ≤ c.toNat && c.toNat ≤ 0x9F)

/-- Characters that would break a URL path, a context suffix or a terminal. -/
def breaksAlias (c : Char) : Bool :=
  c == '/' || c == '\\' || c == '@' || isControl c

/-- Check an alias on its own, and return it trimmed. -/
def validateAlias (raw : List Char) : Except AliasProblem (List Char) :=
  let name := trim raw
  if name.isEmpty then .error .empty
  else if maxAliasChars < name.length then .error .tooLong
  else if isReserved name then .error .reserved
  else if name = ['.'] || name = ['.', '.'] then .error .dotSegment
  else match name.find? breaksAlias with
    | some bad => .error (.character bad)
    | none => .ok name

end Lightweight.Catalog
