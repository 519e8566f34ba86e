import Lightweight.Core.SseRoundTrip

/-! JSON as the router sees it: the values of `serde_json`, and its parser and printer as a parameter
with the laws that the router relies on. -/

namespace Lightweight.Router

inductive Number where
  | posInt (n : Nat)
  | negInt (n : Int)
  | float (bits : UInt64)
deriving DecidableEq, Repr

/-- The members of an object are listed in the order of their keys. -/
inductive Value where
  | null
  | bool (b : Bool)
  | number (n : Number)
  | string (text : List Char)
  | array (items : List Value)
  | object (members : List (List Char × Value))

abbrev Map := List (List Char × Value)

namespace Map

def get (key : List Char) : Map → Option Value
  | [] => none
  | (other, value) :: rest => if key = other then some value else get key rest

def containsKey (key : List Char) (map : Map) : Bool :=
  (get key map).isSome

def insert (key : List Char) (value : Value) : Map → Map
  | [] => [(key, value)]
  | (other, old) :: rest =>
      if key = other then (key, value) :: rest
      else if key < other then (key, value) :: (other, old) :: rest
      else (other, old) :: insert key value rest

theorem get_insert (key other : List Char) (value : Value) (map : Map) :
    get other (insert key value map) = if other = key then some value else get other map := by
  induction map with
  | nil => simp [insert, get]
  | cons entry map ih =>
      obtain ⟨name, old⟩ := entry
      by_cases first : key = name
      · subst first
        by_cases same : other = key <;> simp [insert, get, same]
      · by_cases before : key < name
        · by_cases same : other = key <;> simp [insert, get, first, before, same]
        · by_cases here : other = name
          · have different : name ≠ key := fun equal => first equal.symm
            simp [insert, get, first, before, here, different]
          · simp [insert, get, first, before, here, ih]

end Map

/-- A member of an object; other values have none. -/
def Value.get (key : List Char) : Value → Option Value
  | .object members => Map.get key members
  | _ => none

def asStr : Value → Option (List Char)
  | .string text => some text
  | _ => none

def Value.asU64 : Value → Option Nat
  | .number (.posInt n) => some n
  | _ => none

/-- The parser and the printer of `serde_json`. -/
structure Serde where
  fromStr : List Char → Option Value
  toString : Value → List Char

open Lightweight.Core

/-- The value is printed on one line and read back as it is. -/
structure Serde.Reads (serde : Serde) (value : Value) : Prop where
  back : serde.fromStr (serde.toString value) = some value
  oneLine : ∀ c ∈ serde.toString value, isBreak c = false

/-- A reading of texts that takes a further line break, next to another one or at either end, for
white space. -/
structure SkipsBlank {β : Type} (reading : List Char → β) : Prop where
  between : ∀ front back,
    reading (front ++ ['\n', '\n'] ++ back) = reading (front ++ ['\n'] ++ back)
  leading : ∀ text, reading ('\n' :: text) = reading text
  trailing : ∀ text, reading (text ++ ['\n']) = reading text

/-- `kept` are the values without some of the empty ones. -/
inductive Thins : List (List Char) → List (List Char) → Prop where
  | nil : Thins [] []
  | keep (value : List Char) {values kept : List (List Char)} :
      Thins values kept → Thins (value :: values) (value :: kept)
  | drop {values kept : List (List Char)} : Thins values kept → Thins ([] :: values) kept

variable {β : Type} {reading : List Char → β}

theorem SkipsBlank.drop (skips : SkipsBlank reading) {front back : List (List Char)}
    (nonempty : front ++ back ≠ []) :
    reading (['\n'].intercalate (front ++ [] :: back)) =
      reading (['\n'].intercalate (front ++ back)) := by
  by_cases first : front = []
  · subst first
    have later : back ≠ [] := nonempty
    rw [List.nil_append, List.nil_append, List.intercalate_cons_of_ne_nil later]
    exact skips.leading _
  · by_cases last : back = []
    · subst last
      rw [List.append_nil, intercalate_append first (List.cons_ne_nil _ _),
        List.intercalate_singleton, List.append_nil]
      exact skips.trailing _
    · rw [intercalate_append first (List.cons_ne_nil _ _), intercalate_append first last,
        List.intercalate_cons_of_ne_nil last]
      simpa using skips.between (['\n'].intercalate front) (['\n'].intercalate back)

theorem Thins.ne_nil {values kept : List (List Char)} (thins : Thins values kept)
    (nonempty : kept ≠ []) : values ≠ [] := by
  cases thins with
  | nil => exact nonempty
  | keep value thins => exact List.cons_ne_nil _ _
  | drop thins => exact List.cons_ne_nil _ _

theorem Thins.append {xs ys as bs : List (List Char)} (left : Thins xs ys) (right : Thins as bs) :
    Thins (xs ++ as) (ys ++ bs) := by
  induction left with
  | nil => exact right
  | keep value _ ih => exact .keep value ih
  | drop _ ih => exact .drop ih

/-- Empty values make no difference beside another value. -/
theorem SkipsBlank.thins (skips : SkipsBlank reading) {values kept : List (List Char)}
    (thins : Thins values kept) (front : List (List Char)) (nonempty : front ++ kept ≠ []) :
    reading (['\n'].intercalate (front ++ values)) =
      reading (['\n'].intercalate (front ++ kept)) := by
  induction thins generalizing front with
  | nil => rfl
  | keep value thins ih => simpa using ih (front ++ [value]) (by simp)
  | drop thins ih =>
      rw [← ih front nonempty]
      apply skips.drop
      by_cases first : front = []
      · subst first
        exact thins.ne_nil nonempty
      · simp [first]

/-! ### The end marker -/

theorem rdropWhile_append {p : Char → Bool} (xs ys : List Char) :
    (xs ++ ys).rdropWhile p =
      if (ys.rdropWhile p).isEmpty then xs.rdropWhile p else xs ++ ys.rdropWhile p := by
  simp only [List.rdropWhile, List.reverse_append, List.dropWhile_append, List.isEmpty_reverse]
  split <;> simp

theorem trim_append_left {front : List Char} (blank : ∀ c ∈ front, isWhitespace c = true)
    (text : List Char) : trim (front ++ text) = trim text := by
  rw [trim, List.dropWhile_append_of_pos blank, trim]

theorem trim_append_right {back : List Char} (blank : ∀ c ∈ back, isWhitespace c = true)
    (text : List Char) : trim (text ++ back) = trim text := by
  have nothing : back.rdropWhile isWhitespace = [] := List.rdropWhile_eq_nil_iff.mpr blank
  have nothing' : back.dropWhile isWhitespace = [] := List.dropWhile_eq_nil_iff.mpr blank
  rw [trim, List.dropWhile_append, trim]
  split
  · rename_i empty
    rw [List.isEmpty_iff.mp empty, nothing']
  · rw [rdropWhile_append, nothing, List.isEmpty_nil, if_pos rfl]

theorem trim_between {front back : List Char} (c : Char)
    (left : ¬∀ x ∈ front, isWhitespace x = true) (right : ¬∀ x ∈ back, isWhitespace x = true) :
    c ∈ trim (front ++ c :: back) := by
  have some : (front.dropWhile isWhitespace).isEmpty = false := by
    rw [List.isEmpty_eq_false_iff]
    exact fun empty => left (List.dropWhile_eq_nil_iff.mp empty)
  have last : (back.rdropWhile isWhitespace).isEmpty = false := by
    rw [List.isEmpty_eq_false_iff]
    exact fun empty => right (List.rdropWhile_eq_nil_iff.mp empty)
  rw [trim, List.dropWhile_append, some, if_neg Bool.false_ne_true,
    List.append_cons, rdropWhile_append, last, if_neg Bool.false_ne_true]
  simp

/-- A line break among the data shows, but for white space around the marker. -/
theorem trim_between_ne_done {front back : List Char}
    (left : ¬∀ x ∈ front, isWhitespace x = true) (right : ¬∀ x ∈ back, isWhitespace x = true) :
    trim (front ++ '\n' :: back) ≠ doneData := by
  intro done
  have member := trim_between '\n' left right
  rw [done] at member
  exact absurd member (by decide)

theorem skipsBlank_done : SkipsBlank fun text => decide (trim text = doneData) := by
  have newline : ∀ c ∈ ['\n'], isWhitespace c = true := by simp [isWhitespace]
  have newlines : ∀ c ∈ ['\n', '\n'], isWhitespace c = true := by simp [isWhitespace]
  constructor
  · intro front back
    by_cases left : ∀ c ∈ front, isWhitespace c = true
    · rw [List.append_assoc, List.append_assoc, trim_append_left left, trim_append_left left,
        trim_append_left newline, trim_append_left newlines]
    · by_cases right : ∀ c ∈ back, isWhitespace c = true
      · rw [trim_append_right right, trim_append_right right, trim_append_right newline,
          trim_append_right newlines]
      · have right' : ¬∀ c ∈ '\n' :: back, isWhitespace c = true := fun all =>
          right fun c member => all c (List.mem_cons_of_mem _ member)
        have one := trim_between_ne_done left right
        have two := trim_between_ne_done left right'
        simp [one, two]
  · intro text
    exact congrArg (fun trimmed => decide (trimmed = doneData)) (trim_append_left newline text)
  · intro text
    exact congrArg (fun trimmed => decide (trimmed = doneData)) (trim_append_right newline text)

end Lightweight.Router
