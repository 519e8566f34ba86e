import Lightweight.Framing

/-! Writing a text letter by letter in another alphabet, as a character in bytes. Where the symbols
the terminators are made of keep a letter of their own, the written text has the frames and the lines
of the text it was written from. -/

namespace Lightweight.Framing

variable {α β : Type} [DecidableEq α] [DecidableEq β]

/-- `spell` writes each mark among `xs` as its own letter, and every other symbol as a nonempty word
without such letters. -/
structure Spells (marks : List α) (letter : α → β) (spell : α → List β) (xs : List α) : Prop where
  mark : ∀ x ∈ xs, x ∈ marks → spell x = [letter x]
  word : ∀ x ∈ xs, x ∉ marks → spell x ≠ [] ∧ ∀ m ∈ marks, letter m ∉ spell x
  distinct : ∀ m ∈ marks, ∀ n ∈ marks, letter m = letter n → m = n

variable {marks : List α} {letter : α → β} {spell : α → List β}

omit [DecidableEq α] [DecidableEq β] in
theorem Spells.of_subset {xs ys : List α} (spells : Spells marks letter spell xs) (part : ys ⊆ xs) :
    Spells marks letter spell ys :=
  ⟨fun x member => spells.mark x (part member), fun x member => spells.word x (part member),
    spells.distinct⟩

omit [DecidableEq β] in
theorem Spells.ne_nil {xs : List α} (spells : Spells marks letter spell xs) {x : α}
    (member : x ∈ xs) : spell x ≠ [] := by
  by_cases marked : x ∈ marks
  · rw [spells.mark x member marked]
    exact List.cons_ne_nil _ _
  · exact (spells.word x member marked).1

omit [DecidableEq β] in
theorem Spells.eq_nil {xs : List α} (spells : Spells marks letter spell xs)
    (empty : xs.flatMap spell = []) : xs = [] := by
  cases xs with
  | nil => rfl
  | cons x xs =>
      simp only [List.flatMap_cons, List.append_eq_nil_iff] at empty
      exact absurd empty.1 (spells.ne_nil List.mem_cons_self)

omit [DecidableEq β] in
/-- A mark's letter in the written text stands for that mark. -/
theorem Spells.mark_occurs {xs : List α} (spells : Spells marks letter spell xs) {m : α}
    (marked : m ∈ marks) (front : List β) {back : List β}
    (occurs : xs.flatMap spell = front ++ letter m :: back) :
    ∃ before after, xs = before ++ m :: after ∧ front = before.flatMap spell ∧
      back = after.flatMap spell := by
  induction xs generalizing front with
  | nil => simp at occurs
  | cons x xs ih =>
      have rest := spells.of_subset (List.subset_cons_self x xs)
      rw [List.flatMap_cons] at occurs
      rcases List.append_eq_append_iff.mp occurs with ⟨gap, left, right⟩ | ⟨gap, left, right⟩
      · obtain ⟨before, after, rfl, same, last⟩ := ih rest gap right
        exact ⟨x :: before, after, rfl, by simp [left, same], last⟩
      · cases gap with
        | nil =>
            obtain ⟨before, after, rfl, same, last⟩ := ih rest [] (by simpa using right.symm)
            refine ⟨x :: before, after, rfl, ?_, last⟩
            simp [← same, left]
        | cons y gap =>
            simp only [List.cons_append, List.cons.injEq] at right
            obtain ⟨rfl, right⟩ := right
            have here : x ∈ marks := by
              by_contra other
              have absent := (spells.word x List.mem_cons_self other).2 m marked
              simp [left] at absent
            have single := spells.mark x List.mem_cons_self here
            rw [left] at single
            obtain ⟨rfl, rfl⟩ : front = [] ∧ gap = [] := by
              have lengths := congrArg List.length single
              simp only [List.length_append, List.length_cons, List.length_nil] at lengths
              exact ⟨List.eq_nil_of_length_eq_zero (by omega), List.eq_nil_of_length_eq_zero (by omega)⟩
            have same : m = x := spells.distinct m marked x here (by simpa using single)
            subst same
            exact ⟨[], xs, rfl, rfl, by simpa using right⟩

omit [DecidableEq β] in
theorem Spells.starts {xs : List α} (spells : Spells marks letter spell xs) {needle : List α}
    (marked : ∀ m ∈ needle, m ∈ marks) {back : List β}
    (occurs : xs.flatMap spell = needle.map letter ++ back) :
    ∃ after, xs = needle ++ after ∧ back = after.flatMap spell := by
  induction needle generalizing xs with
  | nil => exact ⟨xs, rfl, by simpa using occurs.symm⟩
  | cons m needle ih =>
      obtain ⟨before, after, rfl, nothing, last⟩ :=
        spells.mark_occurs (marked m List.mem_cons_self) [] (by simpa using occurs)
      have none_before := (spells.of_subset (List.subset_append_left before (m :: after))).eq_nil
        nothing.symm
      subst none_before
      have part : after ⊆ [] ++ m :: after := by simp
      obtain ⟨final, rfl, same⟩ := ih (spells.of_subset part)
        (fun n member => marked n (List.mem_cons_of_mem m member)) last.symm
      exact ⟨final, rfl, same⟩

omit [DecidableEq β] in
theorem Spells.needle_occurs {xs : List α} (spells : Spells marks letter spell xs) {needle : List α}
    (marked : ∀ m ∈ needle, m ∈ marks) (some : needle ≠ []) {front back : List β}
    (occurs : xs.flatMap spell = front ++ needle.map letter ++ back) :
    ∃ before after, xs = before ++ needle ++ after ∧ front = before.flatMap spell := by
  cases needle with
  | nil => exact absurd rfl some
  | cons m needle =>
      obtain ⟨before, after, rfl, same, last⟩ :=
        spells.mark_occurs (marked m List.mem_cons_self) front (by simpa using occurs)
      have part : after ⊆ before ++ m :: after := by simp
      obtain ⟨final, rfl, -⟩ := (spells.of_subset part).starts
        (fun n member => marked n (List.mem_cons_of_mem m member)) last.symm
      exact ⟨before, final, by simp, same⟩

omit [DecidableEq α] [DecidableEq β] in
theorem Spells.marks_flatMap {xs needle : List α} (spells : Spells marks letter spell xs)
    (part : needle ⊆ xs) (marked : ∀ m ∈ needle, m ∈ marks) :
    needle.flatMap spell = needle.map letter := by
  induction needle with
  | nil => rfl
  | cons m needle ih =>
      rw [List.flatMap_cons, spells.mark m (part List.mem_cons_self) (marked m List.mem_cons_self),
        ih (List.Subset.trans (List.subset_cons_self m needle) part)
          fun n member => marked n (List.mem_cons_of_mem m member)]
      rfl

variable {needles : List (List α)}

/-- The terminators as they are written. -/
def written (letter : α → β) (needles : List (List α)) : List (List β) :=
  needles.map (List.map letter)

omit [DecidableEq β] in
theorem Spells.cut {xs : List α} (spells : Spells marks letter spell xs)
    (marked : ∀ needle ∈ needles, ∀ m ∈ needle, m ∈ marks) (settled : Settled needles)
    {content total : Nat} (cut : Cut needles xs content total) :
    Cut (written letter needles) (xs.flatMap spell) ((xs.take content).flatMap spell).length
      ((xs.take total).flatMap spell).length := by
  obtain ⟨⟨needle, listed, rest, split, room, size⟩, first⟩ := cut
  have width : (xs.take content).length = content := by simpa using room
  have inside : needle ⊆ xs := by
    rw [split]
    simp
  have letters := spells.marks_flatMap inside (marked needle listed)
  have whole : xs.flatMap spell =
      (xs.take content).flatMap spell ++ needle.map letter ++ rest.flatMap spell := by
    conv_lhs => rw [split]
    simp [letters]
  have upTo : xs.take total = xs.take content ++ needle := by
    conv_lhs => rw [split]
    rw [size]
    exact List.take_left' (by simp [width])
  constructor
  · refine ⟨needle.map letter, List.mem_map_of_mem listed, rest.flatMap spell, ?_, ?_, ?_⟩
    · conv_lhs => rw [whole]
      congr 2
      rw [whole, List.append_assoc]
      exact (List.take_left' rfl).symm
    · rw [whole]
      simp
    · rw [upTo]
      simp [letters]
  · intro other listed' front back occurs
    obtain ⟨original, member, rfl⟩ := List.mem_map.mp listed'
    obtain ⟨before, after, same, rfl⟩ :=
      spells.needle_occurs (marked original member) (settled.nonempty original member) occurs
    have bound := first original member before after same
    have start : xs.take content <+: before := by
      have left : xs.take content <+: xs := List.take_prefix _ _
      have right : before <+: xs := ⟨original ++ after, by rw [same, List.append_assoc]⟩
      exact List.prefix_of_prefix_length_le left right (by omega)
    obtain ⟨more, rfl⟩ := start
    simp

omit [DecidableEq α] [DecidableEq β] in
theorem map_letter_injective (distinct : ∀ m ∈ marks, ∀ n ∈ marks, letter m = letter n → m = n)
    {xs ys : List α} (left : ∀ m ∈ xs, m ∈ marks) (right : ∀ m ∈ ys, m ∈ marks)
    (same : xs.map letter = ys.map letter) : xs = ys := by
  induction xs generalizing ys with
  | nil => simpa using same.symm
  | cons x xs ih =>
      cases ys with
      | nil => simp at same
      | cons y ys =>
          simp only [List.map_cons, List.cons.injEq] at same
          rw [distinct x (left x List.mem_cons_self) y (right y List.mem_cons_self) same.1,
            ih (fun m member => left m (List.mem_cons_of_mem x member))
              (fun m member => right m (List.mem_cons_of_mem y member)) same.2]

omit [DecidableEq α] [DecidableEq β] in
theorem Settled.written (settled : Settled needles)
    (marked : ∀ needle ∈ needles, ∀ m ∈ needle, m ∈ marks)
    (distinct : ∀ m ∈ marks, ∀ n ∈ marks, letter m = letter n → m = n) :
    Settled (written letter needles) := by
  constructor
  · intro needle listed
    obtain ⟨original, member, rfl⟩ := List.mem_map.mp listed
    simpa using settled.nonempty original member
  · intro outer listed inner listed' front back occurs
    obtain ⟨large, member, rfl⟩ := List.mem_map.mp listed
    obtain ⟨small, member', rfl⟩ := List.mem_map.mp listed'
    obtain ⟨start, tail, rfl, same, rfl⟩ := List.map_eq_append_iff.mp occurs
    obtain ⟨head, middle, rfl, rfl, equal⟩ := List.map_eq_append_iff.mp same
    have inside : ∀ m ∈ middle, m ∈ marks := fun m within => marked _ member m (by simp [within])
    have found := map_letter_injective distinct inside (marked small member') equal
    subst found
    rw [settled.inside _ member _ member' head tail rfl]
    rfl

/-- Writing a buffer keeps its frames. -/
theorem Spells.frames {xs : List α} (spells : Spells marks letter spell xs)
    (marked : ∀ needle ∈ needles, ∀ m ∈ needle, m ∈ marks) (settled : Settled needles) :
    Framing.frames (Framing.written letter needles) (xs.flatMap spell) =
      ((Framing.frames needles xs).1.map fun frame =>
        (frame.1.flatMap spell, frame.2.flatMap spell),
        (Framing.frames needles xs).2.flatMap spell) := by
  generalize size : xs.length = length
  induction length using Nat.strong_induction_on generalizing xs with
  | _ length ih =>
      have settled' : Settled (Framing.written letter needles) :=
        settled.written marked spells.distinct
      cases found : earliest needles xs with
      | none =>
          have nothing : earliest (Framing.written letter needles) (xs.flatMap spell) = none := by
            apply earliest_eq_none.mpr
            intro needle listed front back occurs
            obtain ⟨original, member, rfl⟩ := List.mem_map.mp listed
            obtain ⟨before, after, same, -⟩ := spells.needle_occurs (marked original member)
              (settled.nonempty original member) occurs
            exact earliest_eq_none.mp found original member before after same
          rw [frames_of_none found, frames_of_none nothing]
          rfl
      | some cut =>
          obtain ⟨content, total⟩ := cut
          have positive := settled.total_pos found
          have found' := settled'.earliest_eq (spells.cut marked settled (earliest_cut found))
          have part (k : Nat) : xs.flatMap spell =
              (xs.take k).flatMap spell ++ (xs.drop k).flatMap spell := by
            rw [← List.flatMap_append, List.take_append_drop]
          have taken (k : Nat) : (xs.flatMap spell).take ((xs.take k).flatMap spell).length =
              (xs.take k).flatMap spell := by
            conv_lhs => rw [part k]
            exact List.take_left' rfl
          have dropped : (xs.flatMap spell).drop ((xs.take total).flatMap spell).length =
              (xs.drop total).flatMap spell := by
            conv_lhs => rw [part total]
            exact List.drop_left' rfl
          have shorter : (xs.drop total).length < length := by
            rw [List.length_drop]
            omega
          have rest := ih _ shorter (spells.of_subset (List.drop_subset total xs)) rfl
          rw [settled.frames_of_some found, settled'.frames_of_some found', taken, taken, dropped, rest]
          rfl

omit [DecidableEq α] in
theorem mem_splitOnP {p : α → Bool} {xs line : List α} (listed : line ∈ xs.splitOnP p) :
    ∀ x ∈ line, x ∈ xs ∧ p x = false := by
  induction xs generalizing line with
  | nil =>
      have empty : line = [] := by simpa using listed
      simp [empty]
  | cons y xs ih =>
      intro x member
      obtain ⟨first, later, same⟩ := List.exists_cons_of_ne_nil (List.splitOnP_ne_nil p xs)
      rw [List.splitOnP_cons_eq_if_modifyHead] at listed
      cases ends : p y with
      | true =>
          rw [ends, if_pos rfl] at listed
          rcases List.mem_cons.mp listed with rfl | rest
          · exact absurd member List.not_mem_nil
          · exact ⟨List.mem_cons_of_mem y (ih rest x member).1, (ih rest x member).2⟩
      | false =>
          rw [ends, if_neg Bool.false_ne_true, same, List.modifyHead_cons] at listed
          rcases List.mem_cons.mp listed with rfl | rest
          · rcases List.mem_cons.mp member with rfl | inside
            · exact ⟨List.mem_cons_self, ends⟩
            · have part := ih (by rw [same]; exact List.mem_cons_self) x inside
              exact ⟨List.mem_cons_of_mem y part.1, part.2⟩
          · have part := ih (by rw [same]; exact List.mem_cons_of_mem first rest) x member
            exact ⟨List.mem_cons_of_mem y part.1, part.2⟩

omit [DecidableEq β] in
theorem splitOnP_append_of_inner {q : β → Bool} {word ys : List β}
    (inner : ∀ y ∈ word, q y = false) :
    (word ++ ys).splitOnP q = (ys.splitOnP q).modifyHead (word ++ ·) := by
  obtain ⟨first, later, same⟩ := List.exists_cons_of_ne_nil (List.splitOnP_ne_nil q ys)
  induction word with
  | nil => simp [same]
  | cons y word ih =>
      have rest := ih fun z member => inner z (List.mem_cons_of_mem y member)
      have within := inner y List.mem_cons_self
      simp [List.splitOnP_cons_eq_if_modifyHead, within, rest, same]

omit [DecidableEq α] [DecidableEq β] in
/-- Writing a text keeps its lines, where its line breaks are written as line breaks. -/
theorem splitOnP_flatMap {p : α → Bool} {q : β → Bool} {xs : List α}
    (ends : ∀ x ∈ xs, p x = true → ∃ y, spell x = [y] ∧ q y = true)
    (inner : ∀ x ∈ xs, p x = false → ∀ y ∈ spell x, q y = false) :
    (xs.flatMap spell).splitOnP q = (xs.splitOnP p).map (List.flatMap spell) := by
  induction xs with
  | nil => rfl
  | cons x xs ih =>
      have rest := ih (fun y member => ends y (List.mem_cons_of_mem x member))
        (fun y member => inner y (List.mem_cons_of_mem x member))
      cases line : p x with
      | true =>
          obtain ⟨y, single, last⟩ := ends x List.mem_cons_self line
          simp [List.splitOnP_cons_eq_if_modifyHead, line, single, last, rest]
      | false =>
          obtain ⟨first, later, same⟩ := List.exists_cons_of_ne_nil (List.splitOnP_ne_nil p xs)
          rw [List.flatMap_cons, splitOnP_append_of_inner (inner x List.mem_cons_self line), rest,
            List.splitOnP_cons_eq_if_modifyHead, line, same]
          rfl

end Lightweight.Framing
