import Lightweight.Utf8

/-! A UTF-8 decoder that is handed a stream in chunks and keeps back the sequence that the end of a
chunk cuts off: the one that browsers call `TextDecoder`, in its streaming mode. -/

namespace Lightweight.Utf8

/-- There is nothing to show yet: no byte, or the beginning of a sequence that calls for more. -/
def waits : List UInt8 → Bool
  | [] => true
  | lead :: bytes =>
      decide (bytes.length < (following lead).length) &&
        matched (following lead) bytes == bytes.length

/-- The pieces that no later byte changes, and what is kept back behind them; every piece uses up
fuel. -/
def cutDecided : Nat → List UInt8 → List (List UInt8) × List UInt8
  | 0, bytes => ([], bytes)
  | fuel + 1, bytes =>
      if waits bytes then ([], bytes)
      else
        let later := cutDecided fuel (bytes.drop (width bytes))
        (bytes.take (width bytes) :: later.1, later.2)

def decided (bytes : List UInt8) : List (List UInt8) × List UInt8 :=
  cutDecided bytes.length bytes

def byteOrderMark : Char := '\uFEFF'

/-- A byte order mark at the very start of a stream is no text. -/
def dropMark (bomSeen : Bool) : List Char → List Char
  | [] => []
  | c :: text => if !bomSeen && c == byteOrderMark then text else c :: text

structure TextDecoder where
  pending : List UInt8
  bomSeen : Bool
deriving DecidableEq, Repr

def TextDecoder.new : TextDecoder := { pending := [], bomSeen := false }

/-- `decode` with `stream` set. -/
def TextDecoder.decode (decoder : TextDecoder) (chunk : List UInt8) : List Char × TextDecoder :=
  let cut := decided (decoder.pending ++ chunk)
  let text := cut.1.map shownAs
  (dropMark decoder.bomSeen text,
    { pending := cut.2, bomSeen := decoder.bomSeen || !text.isEmpty })

/-! ### What is decided -/

theorem ne_nil_of_ready {bytes : List UInt8} (ready : ¬waits bytes = true) : bytes ≠ [] := by
  intro empty
  exact ready (empty ▸ rfl)

theorem decided_of_waiting {bytes : List UInt8} (waiting : waits bytes = true) :
    decided bytes = ([], bytes) := by
  unfold decided
  cases bytes.length with
  | zero => rfl
  | succ fuel => exact if_pos waiting

theorem length_drop_width_lt {bytes : List UInt8} (some : bytes ≠ []) :
    (bytes.drop (width bytes)).length < bytes.length := by
  have positive := width_pos bytes some
  have length := List.length_pos_iff.mpr some
  rw [List.length_drop]
  omega

theorem cutDecided_enough {fuel : Nat} {bytes : List UInt8} (enough : bytes.length ≤ fuel) :
    cutDecided fuel bytes = decided bytes := by
  induction fuel using Nat.strong_induction_on generalizing bytes with
  | _ fuel ih =>
      by_cases waiting : waits bytes = true
      · rw [decided_of_waiting waiting]
        cases fuel with
        | zero => rfl
        | succ fuel => exact if_pos waiting
      · have shorter := length_drop_width_lt (ne_nil_of_ready waiting)
        cases fuel with
        | zero => omega
        | succ fuel =>
            obtain ⟨length, size⟩ : ∃ length, bytes.length = length + 1 :=
              ⟨bytes.length - 1, by omega⟩
            have small : cutDecided fuel (bytes.drop (width bytes)) =
                cutDecided length (bytes.drop (width bytes)) := by
              rw [ih fuel (Nat.lt_succ_self fuel) (by omega), ih length (by omega) (by omega)]
            rw [decided, size, cutDecided, cutDecided, if_neg waiting, if_neg waiting, small]

theorem decided_of_ready {bytes : List UInt8} (ready : ¬waits bytes = true) :
    decided bytes = (bytes.take (width bytes) :: (decided (bytes.drop (width bytes))).1,
      (decided (bytes.drop (width bytes))).2) := by
  have shorter := length_drop_width_lt (ne_nil_of_ready ready)
  obtain ⟨length, size⟩ : ∃ length, bytes.length = length + 1 := ⟨bytes.length - 1, by omega⟩
  have rest : cutDecided length (bytes.drop (width bytes)) = decided (bytes.drop (width bytes)) :=
    cutDecided_enough (by omega)
  rw [← rest, decided, size, cutDecided, if_neg ready]

/-- A piece that can be shown stays what it is, whatever follows. -/
theorem ready_append {xs : List UInt8} (ready : ¬waits xs = true) (ys : List UInt8) :
    ¬waits (xs ++ ys) = true ∧ width (xs ++ ys) = width xs := by
  cases xs with
  | nil => exact absurd rfl ready
  | cons lead bytes =>
      have bound := matched_le (following lead) bytes
      have joined := matched_append (following lead) bytes ys
      simp only [waits, Bool.and_eq_true, decide_eq_true_eq, beq_iff_eq] at ready
      by_cases short : matched (following lead) bytes < bytes.length
      · -- the piece ends at a byte that does not fit
        rw [if_pos short] at joined
        have longer : bytes.length ≤ (bytes ++ ys).length := by simp
        simp only [List.cons_append, waits, width, Bool.and_eq_true, decide_eq_true_eq, beq_iff_eq]
        omega
      · -- the piece has all it calls for
        have all : (following lead).length = bytes.length := by omega
        have nothing : matched ((following lead).drop bytes.length) ys = 0 := by
          rw [List.drop_eq_nil_iff.mpr all.le]
          rfl
        rw [if_neg short, nothing] at joined
        have longer : bytes.length ≤ (bytes ++ ys).length := by simp
        simp only [List.cons_append, waits, width, Bool.and_eq_true, decide_eq_true_eq, beq_iff_eq]
        omega

/-- What is decided of a stream is what is decided of its beginning, and then of what was kept back
together with the rest. -/
theorem decided_append (xs ys : List UInt8) :
    decided (xs ++ ys) =
      ((decided xs).1 ++ (decided ((decided xs).2 ++ ys)).1, (decided ((decided xs).2 ++ ys)).2) := by
  generalize size : xs.length = length
  induction length using Nat.strong_induction_on generalizing xs with
  | _ length ih =>
      by_cases waiting : waits xs = true
      · simp [decided_of_waiting waiting]
      · have shorter := length_drop_width_lt (ne_nil_of_ready waiting)
        obtain ⟨ready, same⟩ := ready_append waiting ys
        rw [decided_of_ready ready, decided_of_ready waiting, same,
          List.take_append_of_le_length (width_le xs), List.drop_append_of_le_length (width_le xs),
          ih _ (size ▸ shorter) _ rfl]
        rfl

theorem decided_rest (bytes : List UInt8) : waits (decided bytes).2 = true := by
  generalize size : bytes.length = length
  induction length using Nat.strong_induction_on generalizing bytes with
  | _ length ih =>
      by_cases waiting : waits bytes = true
      · rw [decided_of_waiting waiting]
        exact waiting
      · rw [decided_of_ready waiting]
        exact ih _ (size ▸ length_drop_width_lt (ne_nil_of_ready waiting)) _ rfl

theorem ready_of_whole {piece : List UInt8} (complete : whole piece = true)
    (rest : List UInt8) : ¬waits (piece ++ rest) = true := by
  cases piece with
  | nil => cases complete
  | cons lead bytes =>
      have enough : (following lead).length ≤ bytes.length := by
        by_cases low : lead.toNat < 0x80
        · rw [following_ascii low]
          exact Nat.zero_le _
        · simp only [whole, low, if_false, Bool.and_eq_true, beq_iff_eq] at complete
          omega
      simp only [List.cons_append, waits, Bool.and_eq_true, decide_eq_true_eq, List.length_append]
      omega

/-- Of the encoding of a text nothing is kept back. -/
theorem decided_encode (text : List Char) :
    decided (encode text) = (text.map String.utf8EncodeChar, []) := by
  induction text with
  | nil => rfl
  | cons c text ih =>
      have complete := (whole_utf8EncodeChar c).1
      have size := whole_width (encode text) complete
      have first : encode (c :: text) = String.utf8EncodeChar c ++ encode text := rfl
      rw [first, decided_of_ready (ready_of_whole complete _), size, List.take_left,
        List.drop_left, ih]
      rfl

/-! ### The decoder -/

theorem dropMark_append (bomSeen : Bool) (xs ys : List Char) :
    dropMark bomSeen (xs ++ ys) =
      dropMark bomSeen xs ++ dropMark (bomSeen || !xs.isEmpty) ys := by
  cases xs with
  | nil => simp [dropMark]
  | cons c xs =>
      have later : dropMark true ys = ys := by cases ys <;> rfl
      rw [List.isEmpty_cons, Bool.not_false, Bool.or_true, later]
      simp only [List.cons_append, dropMark]
      split <;> rfl

/-- Two chunks are decoded like the one they make up. -/
theorem TextDecoder.decode_append (decoder : TextDecoder) (xs ys : List UInt8) :
    decoder.decode (xs ++ ys) =
      ((decoder.decode xs).1 ++ ((decoder.decode xs).2.decode ys).1,
        ((decoder.decode xs).2.decode ys).2) := by
  have cut := decided_append (decoder.pending ++ xs) ys
  rw [List.append_assoc] at cut
  simp only [TextDecoder.decode, cut, List.map_append, dropMark_append]
  cases decoder.bomSeen with
  | true => simp
  | false => cases (decided (decoder.pending ++ xs)).1 <;> simp

/-- Between chunks the decoder holds at most the beginning of a sequence. -/
theorem TextDecoder.decode_waiting (decoder : TextDecoder) (chunk : List UInt8) :
    waits (decoder.decode chunk).2.pending = true :=
  decided_rest _

theorem TextDecoder.decode_nil {decoder : TextDecoder} (waiting : waits decoder.pending = true) :
    decoder.decode [] = ([], decoder) := by
  simp [TextDecoder.decode, decided_of_waiting waiting, dropMark]

/-- A text that was encoded is decoded to itself. -/
theorem TextDecoder.decode_encode {text : List Char} (unmarked : text.head? ≠ some byteOrderMark) :
    (TextDecoder.new.decode (encode text)).1 = text := by
  have shown : (text.map String.utf8EncodeChar).map shownAs = text := by
    rw [List.map_map]
    refine List.map_id'' (fun c => ?_) text
    simp [shownAs, character_utf8EncodeChar]
  simp only [TextDecoder.decode, TextDecoder.new, List.nil_append, decided_encode, shown]
  cases text with
  | nil => rfl
  | cons c text =>
      have other : c ≠ byteOrderMark := fun same => unmarked (by rw [same, List.head?_cons])
      simp [dropMark, other]

end Lightweight.Utf8
