import Mathlib.Data.List.Basic

/-! The text format of metrics: one sample on a line, its labels in braces with their values quoted. What
is written of any samples is read back, whatever stands in the values of their labels. -/

namespace Lightweight.TextFormat

structure Sample where
  name : List Char
  labels : List (List Char × List Char)
  value : List Char
deriving DecidableEq, Repr

/-! ### Writing -/

def escapedChar (c : Char) : List Char :=
  if c = '\\' then ['\\', '\\'] else if c = '"' then ['\\', '"'] else if c = '\n' then ['\\', 'n']
  else [c]

def escaped (value : List Char) : List Char := value.flatMap escapedChar

def writeLabel (label : List Char × List Char) : List Char :=
  label.1 ++ ['=', '"'] ++ escaped label.2 ++ ['"']

def writeLabels (labels : List (List Char × List Char)) : List Char :=
  [','].intercalate (labels.map writeLabel)

/-- Without labels there are no braces. -/
def Sample.line (sample : Sample) : List Char :=
  sample.name ++
    (if sample.labels.isEmpty then [] else '{' :: writeLabels sample.labels ++ ['}']) ++
      ' ' :: sample.value

/-- A line of a text: a comment or a sample. -/
inductive Line where
  | comment (text : List Char)
  | sample (sample : Sample)
deriving DecidableEq, Repr

def Line.text : Line → List Char
  | .comment said => '#' :: said
  | .sample one => one.line

def Line.sample? : Line → Option Sample
  | .comment _ => none
  | .sample one => some one

def writeText (lines : List Line) : List Char := lines.flatMap fun line => line.text ++ ['\n']

theorem writeText_append (lines others : List Line) :
    writeText (lines ++ others) = writeText lines ++ writeText others := List.flatMap_append

/-! ### Reading -/

/-- The text up to the closing quote, and what is behind it; whether a backslash is before it. -/
def readQuoted : Bool → List Char → Option (List Char × List Char)
  | _, [] => none
  | true, c :: rest =>
      (readQuoted false rest).map fun read => ((if c = 'n' then '\n' else c) :: read.1, read.2)
  | false, c :: rest =>
      if c = '"' then some ([], rest)
      else if c = '\\' then readQuoted true rest
      else (readQuoted false rest).map fun read => (c :: read.1, read.2)

/-- The labels up to the closing brace; every label uses up fuel. -/
def readLabels : Nat → List Char → Option (List (List Char × List Char) × List Char)
  | 0, _ => none
  | fuel + 1, text =>
      match text.dropWhile (· != '=') with
      | '=' :: '"' :: quoted =>
          match readQuoted false quoted with
          | some (value, ',' :: rest) =>
              (readLabels fuel rest).map fun read =>
                ((text.takeWhile (· != '='), value) :: read.1, read.2)
          | some (value, '}' :: rest) => some ([(text.takeWhile (· != '='), value)], rest)
          | _ => none
      | _ => none

def inName (c : Char) : Bool := c != '{' && c != ' '

/-- A line takes more characters than it has labels. -/
def readSample (line : List Char) : Option Sample :=
  let name := line.takeWhile inName
  match line.dropWhile inName with
  | '{' :: rest =>
      match readLabels rest.length rest with
      | some (labels, ' ' :: value) => some { name, labels, value }
      | _ => none
  | ' ' :: value => some { name, labels := [], value }
  | _ => none

/-- Comments and blank lines are passed over. -/
def holdsSample (line : List Char) : Bool := !line.isEmpty && line.head? != some '#'

def readText (text : List Char) : Option (List Sample) :=
  ((text.splitOn '\n').filter holdsSample).mapM readSample

/-! ### What is written is read back -/

/-- What a sample can be written of: only the values of its labels may hold anything. -/
structure Sample.Writable (sample : Sample) : Prop where
  named : sample.name ≠ []
  hash : sample.name.head? ≠ some '#'
  name : ∀ c ∈ sample.name, inName c = true ∧ c ≠ '\n'
  keys : ∀ label ∈ sample.labels, ∀ c ∈ label.1, c ≠ '=' ∧ c ≠ '\n'
  value : '\n' ∉ sample.value

theorem readQuoted_escaped (value rest : List Char) :
    readQuoted false (escaped value ++ '"' :: rest) = some (value, rest) := by
  induction value with
  | nil => simp [escaped, readQuoted]
  | cons c value ih =>
      have split : escaped (c :: value) = escapedChar c ++ escaped value := List.flatMap_cons
      rw [split, List.append_assoc, escapedChar]
      split
      · rename_i same
        simp [readQuoted, ih, same]
      · rename_i plain
        split
        · rename_i same
          simp [readQuoted, ih, same]
        · rename_i open_
          split
          · rename_i same
            simp [readQuoted, ih, same]
          · simp [readQuoted, ih, plain, open_]

theorem takeWhile_before {p : Char → Bool} {front : List Char} (inside : ∀ c ∈ front, p c = true)
    {stop : Char} (outside : p stop = false) (rest : List Char) :
    (front ++ stop :: rest).takeWhile p = front ∧
      (front ++ stop :: rest).dropWhile p = stop :: rest := by
  constructor
  · rw [List.takeWhile_append_of_pos inside, List.takeWhile_cons_of_neg (by simp [outside]),
      List.append_nil]
  · rw [List.dropWhile_append_of_pos inside, List.dropWhile_cons_of_neg (by simp [outside])]

theorem length_le_writeLabels (labels : List (List Char × List Char)) :
    labels.length ≤ (writeLabels labels).length := by
  induction labels with
  | nil => exact Nat.zero_le _
  | cons label labels ih =>
      have short : 1 ≤ (writeLabel label).length := by
        simp [writeLabel]
        omega
      cases labels with
      | nil => simpa [writeLabels] using short
      | cons next labels =>
          have split : writeLabels (label :: next :: labels) =
              writeLabel label ++ [','] ++ writeLabels (next :: labels) := by
            simp [writeLabels, List.intercalate_cons_cons]
          rw [split, List.length_append, List.length_append, List.length_cons]
          omega

theorem isEmpty_writeLabels (labels : List (List Char × List Char)) :
    (writeLabels labels).isEmpty = labels.isEmpty := by
  cases labels with
  | nil => rfl
  | cons label labels =>
      have short := length_le_writeLabels (label :: labels)
      cases written : writeLabels (label :: labels) with
      | nil => simp [written] at short
      | cons c rest => rfl

theorem readLabels_writeLabels {labels : List (List Char × List Char)} (some_ : labels ≠ [])
    (keys : ∀ label ∈ labels, ∀ c ∈ label.1, c ≠ '=' ∧ c ≠ '\n') {fuel : Nat}
    (enough : labels.length ≤ fuel) (rest : List Char) :
    readLabels fuel (writeLabels labels ++ '}' :: rest) = some (labels, rest) := by
  induction labels generalizing fuel with
  | nil => exact absurd rfl some_
  | cons label labels ih =>
      obtain ⟨key, value⟩ := label
      rw [List.length_cons] at enough
      obtain ⟨fuel, rfl⟩ := Nat.exists_eq_succ_of_ne_zero (Nat.ne_zero_of_lt enough)
      rw [List.forall_mem_cons] at keys
      have plain : ∀ c ∈ key, (c != '=') = true := fun c member => by simp [(keys.1 c member).1]
      cases labels with
      | nil =>
          have text : writeLabels [(key, value)] ++ '}' :: rest =
              key ++ '=' :: '"' :: (escaped value ++ '"' :: '}' :: rest) := by
            simp [writeLabels, writeLabel]
          obtain ⟨before, behind⟩ := takeWhile_before plain (by decide : ('=' != '=') = false)
            ('"' :: (escaped value ++ '"' :: '}' :: rest))
          rw [text, readLabels, before, behind]
          simp only [readQuoted_escaped]
      | cons next labels =>
          have text : writeLabels ((key, value) :: next :: labels) ++ '}' :: rest =
              key ++ '=' :: '"' :: (escaped value ++ '"' :: ',' ::
                (writeLabels (next :: labels) ++ '}' :: rest)) := by
            simp [writeLabels, writeLabel, List.intercalate_cons_cons]
          obtain ⟨before, behind⟩ := takeWhile_before plain (by decide : ('=' != '=') = false)
            ('"' :: (escaped value ++ '"' :: ',' :: (writeLabels (next :: labels) ++ '}' :: rest)))
          have later := ih (List.cons_ne_nil _ _) keys.2 (Nat.le_of_succ_le_succ enough)
          rw [text, readLabels, before, behind]
          simp only [readQuoted_escaped, later, Option.map_some]

theorem Sample.readSample_line {sample : Sample} (writable : sample.Writable) :
    readSample sample.line = some sample := by
  have inside : ∀ c ∈ sample.name, inName c = true := fun c member => (writable.name c member).1
  cases labels : sample.labels with
  | nil =>
      have text : sample.line = sample.name ++ ' ' :: sample.value := by
        simp [Sample.line, labels]
      obtain ⟨before, behind⟩ := takeWhile_before inside (by decide : inName ' ' = false) sample.value
      have same : ({ name := sample.name, labels := [], value := sample.value } : Sample) = sample := by
        rw [← labels]
      rw [text, readSample, before, behind]
      exact congrArg some same
  | cons label others =>
      have text : sample.line =
          sample.name ++ '{' :: (writeLabels sample.labels ++ '}' :: ' ' :: sample.value) := by
        simp [Sample.line, labels]
      obtain ⟨before, behind⟩ := takeWhile_before inside (by decide : inName '{' = false)
        (writeLabels sample.labels ++ '}' :: ' ' :: sample.value)
      have some_ : sample.labels ≠ [] := by simp [labels]
      have enough : sample.labels.length ≤
          (writeLabels sample.labels ++ '}' :: ' ' :: sample.value).length := by
        have short := length_le_writeLabels sample.labels
        rw [List.length_append]
        omega
      rw [text, readSample, before, behind]
      simp only [readLabels_writeLabels some_ writable.keys enough]

/-! ### Lines -/

def Line.Writable : Line → Prop
  | .comment said => '\n' ∉ said
  | .sample one => one.Writable

theorem newline_not_mem_escaped (value : List Char) : '\n' ∉ escaped value := by
  intro member
  obtain ⟨c, -, inside⟩ := List.mem_flatMap.mp member
  rw [escapedChar] at inside
  split at inside
  · revert inside
    decide
  · split at inside
    · revert inside
      decide
    · split at inside
      · revert inside
        decide
      · rename_i other
        exact other (List.mem_singleton.mp inside).symm

theorem newline_not_mem_writeLabels {labels : List (List Char × List Char)}
    (keys : ∀ label ∈ labels, ∀ c ∈ label.1, c ≠ '=' ∧ c ≠ '\n') : '\n' ∉ writeLabels labels := by
  induction labels with
  | nil => exact List.not_mem_nil
  | cons label labels ih =>
      rw [List.forall_mem_cons] at keys
      have key : '\n' ∉ label.1 := fun member => (keys.1 _ member).2 rfl
      have one : '\n' ∉ writeLabel label := by
        simp [writeLabel, key, newline_not_mem_escaped]
      cases labels with
      | nil => simpa [writeLabels] using one
      | cons next labels =>
          have split : writeLabels (label :: next :: labels) =
              writeLabel label ++ [','] ++ writeLabels (next :: labels) := by
            simp [writeLabels, List.intercalate_cons_cons]
          rw [split, List.mem_append, List.mem_append, not_or, not_or]
          exact ⟨⟨one, by decide⟩, ih keys.2⟩

theorem Line.newline_not_mem {line : Line} (writable : line.Writable) : '\n' ∉ line.text := by
  cases line with
  | comment text =>
      have absent : '\n' ∉ text := writable
      simp [Line.text, absent]
  | sample sample =>
      have name : '\n' ∉ sample.name := fun member => (writable.name _ member).2 rfl
      have labels := newline_not_mem_writeLabels writable.keys
      have value := writable.value
      rw [Line.text, Sample.line]
      split
      · simp [name, value]
      · simp [name, labels, value]

theorem splitOn_writeText {lines : List Line} (writable : ∀ line ∈ lines, line.Writable) :
    (writeText lines).splitOn '\n' = lines.map Line.text ++ [[]] := by
  induction lines with
  | nil => rfl
  | cons line lines ih =>
      rw [List.forall_mem_cons] at writable
      have split : writeText (line :: lines) = line.text ++ '\n' :: writeText lines := by
        simp [writeText]
      rw [split, List.splitOn_append_cons_self, List.splitOn_eq_singleton
        (Line.newline_not_mem writable.1), ih writable.2, List.map_cons]
      rfl

/-- The samples of a written text are read back, and nothing else is. -/
theorem readText_writeText {lines : List Line} (writable : ∀ line ∈ lines, line.Writable) :
    readText (writeText lines) = some (lines.filterMap Line.sample?) := by
  rw [readText, splitOn_writeText writable, List.filter_append]
  have last : ([[]] : List (List Char)).filter holdsSample = [] := rfl
  rw [last, List.append_nil]
  induction lines with
  | nil => rfl
  | cons line lines ih =>
      rw [List.forall_mem_cons] at writable
      cases line with
      | comment text => exact ih writable.2
      | sample sample =>
          have shown : Sample.Writable sample := writable.1
          cases name : sample.name with
          | nil => exact absurd name shown.named
          | cons first others =>
              have head : sample.line.head? = some first := by simp [Sample.line, name]
              have other : first ≠ '#' := fun same => shown.hash (by simp [name, same])
              have filled : sample.line.isEmpty = false := by
                cases shape : sample.line with
                | nil =>
                    rw [shape] at head
                    cases head
                | cons c rest => rfl
              have kept : holdsSample sample.line = true := by
                simp [holdsSample, filled, head, other]
              rw [List.map_cons, Line.text, List.filter_cons_of_pos kept, List.mapM_cons,
                Sample.readSample_line shown, ih writable.2]
              rfl

end Lightweight.TextFormat
