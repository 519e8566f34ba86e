import Mathlib.Data.List.Basic
import Lightweight.MinByKey

/-! Cutting a growing buffer into frames at the earliest of several terminators. The results hold for
any terminators none of which contains another one before its end; for these, what has been cut off
a buffer does not depend on what is still to arrive. -/

namespace Lightweight.Framing

variable {α : Type} [DecidableEq α]

/-- The offset of the first occurrence. -/
def find (needle : List α) : List α → Option Nat
  | [] => if needle.isPrefixOf [] then some 0 else none
  | x :: xs =>
      if needle.isPrefixOf (x :: xs) then some 0 else (find needle xs).map (· + 1)

/-- The first offset at which a needle occurs, and the offset behind that needle; of two needles at
one offset the one listed first. -/
def earliest (needles : List (List α)) (hay : List α) : Option (Nat × Nat) :=
  (minByKey Prod.fst (needles.filterMap fun needle =>
    (find needle hay).map fun offset => (offset, offset + needle.length))).map fun found => found.2.1

theorem find_eq_some {needle hay : List α} {offset : Nat} (found : find needle hay = some offset) :
    (∃ rest, hay = hay.take offset ++ needle ++ rest ∧ offset ≤ hay.length) ∧
      ∀ front back, hay = front ++ needle ++ back → offset ≤ front.length := by
  induction hay generalizing offset with
  | nil =>
      simp only [find, Option.ite_none_right_eq_some, Option.some.injEq] at found
      obtain ⟨start, rfl⟩ := found
      obtain ⟨rest, same⟩ := List.isPrefixOf_iff_prefix.mp start
      exact ⟨⟨rest, by simpa using same.symm, le_rfl⟩, fun _ _ _ => Nat.zero_le _⟩
  | cons x xs ih =>
      by_cases start : needle.isPrefixOf (x :: xs) = true
      · simp only [find, if_pos start, Option.some.injEq] at found
        subst found
        obtain ⟨rest, same⟩ := List.isPrefixOf_iff_prefix.mp start
        exact ⟨⟨rest, by simpa using same.symm, Nat.zero_le _⟩, fun _ _ _ => Nat.zero_le _⟩
      · simp only [find, if_neg start] at found
        obtain ⟨before, tail, rfl⟩ := Option.map_eq_some_iff.mp found
        obtain ⟨⟨rest, same, bound⟩, least⟩ := ih tail
        refine ⟨⟨rest, ?_, Nat.succ_le_succ bound⟩, ?_⟩
        · simpa using same
        · intro front back occurs
          cases front with
          | nil =>
              refine absurd ?_ start
              exact List.isPrefixOf_iff_prefix.mpr ⟨back, by simpa using occurs.symm⟩
          | cons y front =>
              simp only [List.cons_append, List.cons.injEq] at occurs
              exact Nat.succ_le_succ (least front back occurs.2)

theorem find_eq_none {needle hay : List α} (missing : find needle hay = none) :
    ∀ front back, hay ≠ front ++ needle ++ back := by
  induction hay with
  | nil =>
      intro front back occurs
      have nothing : needle = [] := by
        have lengths := congrArg List.length occurs
        simp only [List.length_nil, List.length_append] at lengths
        exact List.eq_nil_of_length_eq_zero (by omega)
      simp [find, nothing] at missing
  | cons x xs ih =>
      by_cases start : needle.isPrefixOf (x :: xs) = true
      · simp [find, start] at missing
      · simp only [find, if_neg start, Option.map_eq_none_iff] at missing
        intro front back occurs
        cases front with
        | nil =>
            refine absurd ?_ start
            exact List.isPrefixOf_iff_prefix.mpr ⟨back, by simpa using occurs.symm⟩
        | cons y front =>
            simp only [List.cons_append, List.cons.injEq] at occurs
            exact ih missing front back occurs.2

/-- Where `earliest` cuts: `content`, a needle, and what follows. -/
structure Cut (needles : List (List α)) (hay : List α) (content total : Nat) : Prop where
  occurs : ∃ needle ∈ needles, ∃ rest, hay = hay.take content ++ needle ++ rest ∧
    content ≤ hay.length ∧ total = content + needle.length
  first : ∀ needle ∈ needles, ∀ front back, hay = front ++ needle ++ back → content ≤ front.length

theorem earliest_cut {needles : List (List α)} {hay : List α} {content total : Nat}
    (found : earliest needles hay = some (content, total)) : Cut needles hay content total := by
  obtain ⟨⟨before, ⟨least, bound⟩, after⟩, picked, same⟩ := Option.map_eq_some_iff.mp found
  cases same
  have inside := (minByKey_spec picked).1
  have member : (content, total) ∈ needles.filterMap fun needle =>
      (find needle hay).map fun offset => (offset, offset + needle.length) := by
    rw [inside]
    simp
  obtain ⟨needle, listed, located⟩ := List.mem_filterMap.mp member
  obtain ⟨offset, place, same⟩ := Option.map_eq_some_iff.mp located
  cases same
  obtain ⟨⟨rest, split, room⟩, -⟩ := find_eq_some place
  refine ⟨⟨needle, listed, rest, split, room, rfl⟩, ?_⟩
  intro other listed front back occurs
  cases place : find other hay with
  | none => exact absurd occurs (find_eq_none place front back)
  | some position =>
      have candidate : (position, position + other.length) ∈ needles.filterMap fun needle =>
          (find needle hay).map fun offset => (offset, offset + needle.length) :=
        List.mem_filterMap.mpr ⟨other, listed, by simp [place]⟩
      exact le_trans (minByKey_le picked _ candidate) ((find_eq_some place).2 front back occurs)

theorem earliest_eq_none {needles : List (List α)} {hay : List α} :
    earliest needles hay = none ↔
      ∀ needle ∈ needles, ∀ front back, hay ≠ front ++ needle ++ back := by
  constructor
  · intro missing needle listed front back occurs
    have empty := minByKey_eq_none.mp (Option.map_eq_none_iff.mp missing)
    cases place : find needle hay with
    | none => exact find_eq_none place front back occurs
    | some position =>
        have candidate : (position, position + needle.length) ∈ needles.filterMap fun needle =>
            (find needle hay).map fun offset => (offset, offset + needle.length) :=
          List.mem_filterMap.mpr ⟨needle, listed, by simp [place]⟩
        rw [empty] at candidate
        exact List.not_mem_nil candidate
  · intro absent
    cases found : earliest needles hay with
    | none => rfl
    | some cut =>
        obtain ⟨needle, listed, rest, split, -⟩ := (earliest_cut found).occurs
        exact absurd split (absent needle listed _ rest)

/-- No needle is empty, and a needle occurs in another one only at its end. -/
structure Settled (needles : List (List α)) : Prop where
  nonempty : ∀ needle ∈ needles, needle ≠ []
  inside : ∀ outer ∈ needles, ∀ inner ∈ needles, ∀ front back,
    outer = front ++ inner ++ back → back = []

omit [DecidableEq α] in
/-- The offsets inside a needle are finitely many, so that a list of needles can be checked. -/
theorem Settled.of_offsets {needles : List (List α)} (nonempty : ∀ needle ∈ needles, needle ≠ [])
    (offsets : ∀ outer ∈ needles, ∀ inner ∈ needles, ∀ offset ≤ outer.length,
      (outer.drop offset).take inner.length = inner → outer.length ≤ offset + inner.length) :
    Settled needles := by
  refine ⟨nonempty, ?_⟩
  intro outer listed inner listed' front back occurs
  have bound := offsets outer listed inner listed' front.length (by simp [occurs]) (by simp [occurs])
  have lengths := congrArg List.length occurs
  simp only [List.length_append] at lengths
  exact List.eq_nil_of_length_eq_zero (by omega)

omit [DecidableEq α] in
theorem append_split {front mid back xs ys : List α} (same : front ++ mid ++ back = xs ++ ys)
    (within : front.length + mid.length ≤ xs.length) :
    ∃ rest, xs = front ++ mid ++ rest ∧ back = rest ++ ys := by
  rcases List.append_eq_append_iff.mp same with ⟨rest, left, right⟩ | ⟨rest, left, right⟩
  · exact ⟨rest, left, right⟩
  · have nothing : rest = [] := by
      have lengths := congrArg List.length left
      simp only [List.length_append] at lengths
      exact List.eq_nil_of_length_eq_zero (by omega)
    subst nothing
    exact ⟨[], by simpa using left.symm, by simpa using right.symm⟩

omit [DecidableEq α] in
/-- Two needles at one offset are the same needle. -/
theorem Settled.eq_of_append_eq {needles : List (List α)} (settled : Settled needles)
    {first second a b : List α} (left : first ∈ needles) (right : second ∈ needles)
    (same : first ++ a = second ++ b) : first = second := by
  rcases List.append_eq_append_iff.mp same with ⟨rest, longer, -⟩ | ⟨rest, longer, -⟩
  · have nothing := settled.inside second right first left [] rest (by simpa using longer)
    simpa [nothing] using longer.symm
  · have nothing := settled.inside first left second right [] rest (by simpa using longer)
    simpa [nothing] using longer

omit [DecidableEq α] in
/-- A needle ahead of the cut would reach beyond `xs`, so that it held the needle at the cut before
its own end. -/
theorem Settled.cut_append {needles : List (List α)} (settled : Settled needles) {xs : List α}
    (ys : List α) {content total : Nat} (cut : Cut needles xs content total) :
    Cut needles (xs ++ ys) content total := by
  obtain ⟨⟨needle, listed, rest, split, room, size⟩, first⟩ := cut
  have width : (xs.take content).length = content := by simpa using room
  have heads : (xs ++ ys).take content = xs.take content := List.take_append_of_le_length room
  have whole : xs ++ ys = xs.take content ++ needle ++ (rest ++ ys) := by
    rw [← List.append_assoc, ← split]
  have lengths := congrArg List.length split
  simp only [List.length_append, width] at lengths
  constructor
  · refine ⟨needle, listed, rest ++ ys, by rw [heads]; exact whole, ?_, size⟩
    rw [List.length_append]
    omega
  · intro other listed' front back occurs
    by_contra ahead
    by_cases within : front.length + other.length ≤ xs.length
    · obtain ⟨tail, inner, -⟩ := append_split occurs.symm within
      exact ahead (first other listed' front tail inner)
    · have joined : front ++ (other ++ back) = xs.take content ++ (needle ++ (rest ++ ys)) := by
        rw [← List.append_assoc, ← occurs, whole, List.append_assoc]
      rcases List.append_eq_append_iff.mp joined with ⟨gap, left, right⟩ | ⟨gap, left, -⟩
      · have gapped := congrArg List.length left
        simp only [List.length_append, width] at gapped
        rw [← List.append_assoc] at right
        obtain ⟨tail, holds, -⟩ := append_split right.symm (by omega)
        have nothing := settled.inside other listed' needle listed gap tail holds
        have sizes := congrArg List.length holds
        simp only [List.length_append, nothing, List.length_nil] at sizes
        omega
      · have gapped := congrArg List.length left
        simp only [List.length_append, width] at gapped
        omega

/-- A cut is the one `earliest` finds. -/
theorem Settled.earliest_eq {needles : List (List α)} (settled : Settled needles) {hay : List α}
    {content total : Nat} (cut : Cut needles hay content total) :
    earliest needles hay = some (content, total) := by
  obtain ⟨⟨needle, listed, rest, split, room, rfl⟩, first⟩ := cut
  cases found : earliest needles hay with
  | none => exact absurd split (earliest_eq_none.mp found needle listed _ rest)
  | some other =>
      obtain ⟨content', total'⟩ := other
      obtain ⟨⟨needle', listed', rest', split', room', rfl⟩, first'⟩ := earliest_cut found
      have width : (hay.take content).length = content := by simpa using room
      have width' : (hay.take content').length = content' := by simpa using room'
      have before := first needle' listed' _ _ split'
      have after := first' needle listed _ _ split
      have equal : content' = content := by omega
      subst equal
      rw [List.append_assoc] at split split'
      have tails := List.append_cancel_left (split'.symm.trans split)
      rw [settled.eq_of_append_eq listed' listed tails]

/-- What has been found does not depend on what is still to arrive. -/
theorem Settled.earliest_append {needles : List (List α)} (settled : Settled needles)
    {xs : List α} (ys : List α) {content total : Nat}
    (found : earliest needles xs = some (content, total)) :
    earliest needles (xs ++ ys) = some (content, total) :=
  settled.earliest_eq (settled.cut_append ys (earliest_cut found))

/-- A frame cut off the buffer is a frame on its own. -/
theorem Settled.earliest_take {needles : List (List α)} (settled : Settled needles)
    {xs : List α} {content total : Nat} (found : earliest needles xs = some (content, total)) :
    earliest needles (xs.take total) = some (content, total) := by
  obtain ⟨⟨needle, listed, rest, split, room, rfl⟩, -⟩ := earliest_cut found
  have width : (xs.take content).length = content := by simpa using room
  have front : xs.take (content + needle.length) = xs.take content ++ needle := by
    conv_lhs => rw [split]
    exact List.take_left' (by simp [width])
  cases again : earliest needles (xs.take (content + needle.length)) with
  | none =>
      refine absurd ?_ (earliest_eq_none.mp again needle listed (xs.take content) [])
      simpa using front
  | some cut =>
      have grown := settled.earliest_append (xs.drop (content + needle.length)) again
      rw [List.take_append_drop, found] at grown
      exact grown.symm

/-- The frames a buffer holds, each as its content and as its content with its terminator, and what
is left; every frame uses up fuel. -/
def cutFrames (needles : List (List α)) : Nat → List α → List (List α × List α) × List α
  | 0, buffer => ([], buffer)
  | fuel + 1, buffer =>
      match earliest needles buffer with
      | none => ([], buffer)
      | some (content, total) =>
          let later := cutFrames needles fuel (buffer.drop total)
          ((buffer.take content, buffer.take total) :: later.1, later.2)

/-- A frame takes at least one element off the buffer, so its length is enough fuel. -/
def frames (needles : List (List α)) (buffer : List α) : List (List α × List α) × List α :=
  cutFrames needles buffer.length buffer

variable {needles : List (List α)}

theorem Settled.total_pos (settled : Settled needles) {buffer : List α} {content total : Nat}
    (found : earliest needles buffer = some (content, total)) :
    0 < total ∧ total ≤ buffer.length ∧ content ≤ total := by
  obtain ⟨⟨needle, listed, rest, split, room, rfl⟩, -⟩ := earliest_cut found
  have some := List.length_pos_iff.mpr (settled.nonempty needle listed)
  have lengths := congrArg List.length split
  simp only [List.length_append, List.length_take] at lengths
  omega

theorem Settled.cutFrames_enough (settled : Settled needles) {fuel : Nat} {buffer : List α}
    (enough : buffer.length ≤ fuel) : cutFrames needles fuel buffer = frames needles buffer := by
  unfold frames
  induction fuel using Nat.strong_induction_on generalizing buffer with
  | _ fuel ih =>
      cases fuel with
      | zero =>
          have empty : buffer.length = 0 := Nat.le_zero.mp enough
          rw [empty]
      | succ fuel =>
          cases size : buffer.length with
          | zero =>
              have empty := List.eq_nil_of_length_eq_zero size
              subst empty
              have nothing : earliest needles [] = none := by
                cases found : earliest needles [] with
                | none => rfl
                | some cut =>
                    have positive := settled.total_pos found
                    simp only [List.length_nil] at positive
                    omega
              simp [cutFrames, nothing]
          | succ length =>
              simp only [cutFrames]
              cases found : earliest needles buffer with
              | none => rfl
              | some cut =>
                  obtain ⟨content, total⟩ := cut
                  have positive := settled.total_pos found
                  have shorter : (buffer.drop total).length ≤ length := by
                    rw [List.length_drop]
                    omega
                  have rest : (buffer.drop total).length ≤ fuel := by omega
                  simp only
                  rw [ih fuel (Nat.lt_succ_self _) rest, ih length (by omega) shorter]

theorem frames_of_none {buffer : List α} (nothing : earliest needles buffer = none) :
    frames needles buffer = ([], buffer) := by
  unfold frames
  cases buffer.length with
  | zero => rfl
  | succ length => simp [cutFrames, nothing]

theorem Settled.frames_of_some (settled : Settled needles) {buffer : List α} {content total : Nat}
    (found : earliest needles buffer = some (content, total)) :
    frames needles buffer =
      ((buffer.take content, buffer.take total) :: (frames needles (buffer.drop total)).1,
        (frames needles (buffer.drop total)).2) := by
  have positive := settled.total_pos found
  have enough : (buffer.drop total).length ≤ buffer.length - 1 := by
    rw [List.length_drop]
    omega
  have size : buffer.length = (buffer.length - 1) + 1 := by omega
  rw [← settled.cutFrames_enough enough]
  conv_lhs => unfold frames
  rw [size]
  simp [cutFrames, found]

/-- The frames of a stream are those of its first part, then those of what was left of it together
with the second part. -/
theorem Settled.frames_append (settled : Settled needles) (xs ys : List α) :
    frames needles (xs ++ ys) =
      ((frames needles xs).1 ++ (frames needles ((frames needles xs).2 ++ ys)).1,
        (frames needles ((frames needles xs).2 ++ ys)).2) := by
  generalize size : xs.length = length
  induction length using Nat.strong_induction_on generalizing xs with
  | _ length ih =>
      cases found : earliest needles xs with
      | none => simp [frames_of_none found]
      | some cut =>
          obtain ⟨content, total⟩ := cut
          obtain ⟨positive, bound, inside⟩ := settled.total_pos found
          have shorter : (xs.drop total).length < length := by
            rw [List.length_drop]
            omega
          rw [settled.frames_of_some found, settled.frames_of_some (settled.earliest_append ys found),
            List.drop_append_of_le_length bound, List.take_append_of_le_length bound,
            List.take_append_of_le_length (le_trans inside bound), ih _ shorter _ rfl]
          simp

theorem Settled.frames_rest (settled : Settled needles) (xs : List α) :
    earliest needles (frames needles xs).2 = none := by
  generalize size : xs.length = length
  induction length using Nat.strong_induction_on generalizing xs with
  | _ length ih =>
      cases found : earliest needles xs with
      | none =>
          rw [frames_of_none found]
          exact found
      | some cut =>
          have positive := settled.total_pos found
          rw [settled.frames_of_some found]
          refine ih _ ?_ _ rfl
          rw [List.length_drop]
          omega

/-- Nothing is lost: the frames with their terminators, and the rest, are the buffer. -/
theorem Settled.frames_flatten (settled : Settled needles) (xs : List α) :
    ((frames needles xs).1.map Prod.snd).flatten ++ (frames needles xs).2 = xs := by
  generalize size : xs.length = length
  induction length using Nat.strong_induction_on generalizing xs with
  | _ length ih =>
      cases found : earliest needles xs with
      | none => simp [frames_of_none found]
      | some cut =>
          have positive := settled.total_pos found
          rw [settled.frames_of_some found]
          simp only [List.map_cons, List.flatten_cons, List.append_assoc]
          rw [ih (xs.drop cut.2).length (by rw [List.length_drop]; omega) _ rfl]
          exact List.take_append_drop _ _

/-- Every frame is its content and the terminator found first. -/
theorem Settled.frame_of_mem (settled : Settled needles) {xs : List α} {frame : List α × List α}
    (listed : frame ∈ (frames needles xs).1) :
    earliest needles frame.2 = some (frame.1.length, frame.2.length) ∧ frame.1 <+: frame.2 := by
  generalize size : xs.length = length
  induction length using Nat.strong_induction_on generalizing xs with
  | _ length ih =>
      cases found : earliest needles xs with
      | none => simp [frames_of_none found] at listed
      | some cut =>
          obtain ⟨content, total⟩ := cut
          obtain ⟨positive, bound, inside⟩ := settled.total_pos found
          have shorter : (xs.drop total).length < length := by
            rw [List.length_drop]
            omega
          rw [settled.frames_of_some found] at listed
          rcases List.mem_cons.mp listed with rfl | later
          · have short : (xs.take content).length = content := by
              rw [List.length_take]
              omega
            have long : (xs.take total).length = total := by
              rw [List.length_take]
              omega
            rw [short, long]
            exact ⟨settled.earliest_take found, List.take_prefix_take_left inside⟩
          · exact ih _ shorter later rfl

theorem Settled.frame_subset (settled : Settled needles) {xs : List α} {frame : List α × List α}
    (listed : frame ∈ (frames needles xs).1) : frame.1 ⊆ xs := by
  have inner : frame.1 ⊆ frame.2 := (settled.frame_of_mem listed).2.subset
  have outer : frame.2 ⊆ ((frames needles xs).1.map Prod.snd).flatten := fun x member =>
    List.mem_flatten.mpr ⟨frame.2, List.mem_map_of_mem listed, member⟩
  intro x member
  rw [← settled.frames_flatten xs]
  exact List.mem_append_left _ (outer (inner member))

/-- A buffer that holds no frame is the beginning of the first frame it grows into. -/
theorem unfinished_lt {xs ys : List α} {content total : Nat}
    (unfinished : earliest needles xs = none)
    (found : earliest needles (xs ++ ys) = some (content, total)) : xs.length < total := by
  by_contra short
  obtain ⟨⟨needle, listed, rest, split, room, rfl⟩, -⟩ := earliest_cut found
  have width : ((xs ++ ys).take content).length = content := by simpa using room
  have within : ((xs ++ ys).take content).length + needle.length ≤ xs.length := by omega
  obtain ⟨tail, inner, -⟩ := append_split split.symm within
  exact earliest_eq_none.mp unfinished needle listed _ _ inner

/-- A bound on all the frames of a stream and on its end bounds what is left of any beginning of it,
by whatever measure grows with a text. -/
theorem Settled.rest_bounded (settled : Settled needles) {size : List α → Nat}
    (grows : ∀ xs ys, size xs ≤ size (xs ++ ys)) {limit : Nat} {xs ys : List α}
    (finished : ∀ frame ∈ (frames needles (xs ++ ys)).1, size frame.2 ≤ limit)
    (last : size (frames needles (xs ++ ys)).2 ≤ limit) :
    size (frames needles xs).2 ≤ limit := by
  rw [settled.frames_append] at finished last
  have unfinished := settled.frames_rest xs
  generalize (frames needles xs).2 = rest at finished last unfinished
  cases found : earliest needles (rest ++ ys) with
  | none =>
      rw [frames_of_none found] at last
      exact le_trans (grows rest ys) last
  | some cut =>
      have longer := unfinished_lt unfinished found
      have first : ((rest ++ ys).take cut.1, (rest ++ ys).take cut.2) ∈
          (frames needles (rest ++ ys)).1 := by
        rw [settled.frames_of_some found]
        exact List.mem_cons_self
      have bound : size ((rest ++ ys).take cut.2) ≤ limit :=
        finished _ (List.mem_append_right _ first)
      rw [List.take_append, List.take_of_length_le (le_of_lt longer)] at bound
      exact le_trans (grows rest _) bound

end Lightweight.Framing
