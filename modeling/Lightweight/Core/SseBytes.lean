import Lightweight.Core.Sse
import Lightweight.Spelling

/-! Frames of bytes and frames of text. A terminator is ASCII, so cutting the bytes of a stream and
cutting its text come to the same frames, for a text that is encoded and for any bytes that are
decoded with replacement. -/

namespace Lightweight.Core

open Framing Utf8

def byteTerminators : List (List UInt8) :=
  [[0x0D, 0x0A, 0x0D, 0x0A], [0x0A, 0x0A], [0x0D, 0x0D], [0x0A, 0x0D, 0x0A]]

theorem byteTerminators_settled : Settled byteTerminators :=
  Settled.of_offsets (by decide) (by decide)

/-! ### Encoded text -/

def asciiByte (c : Char) : UInt8 := UInt8.ofNat c.toNat

theorem toNat_asciiByte {c : Char} (low : c.toNat < 0x80) : (asciiByte c).toNat = c.toNat := by
  rw [asciiByte, UInt8.toNat_ofNat']
  omega

theorem utf8EncodeChar_ascii {c : Char} (low : c.toNat < 0x80) :
    String.utf8EncodeChar c = [asciiByte c] := by
  have bound : c.val.toNat ≤ 0x7f := Nat.le_of_lt_succ low
  rw [String.utf8EncodeChar]
  exact if_pos bound

/-- The bytes of a character beyond ASCII are beyond ASCII. -/
theorem utf8EncodeChar_high {c : Char} (high : 0x80 ≤ c.toNat) :
    ∀ b ∈ String.utf8EncodeChar c, 0x80 ≤ b.toNat := by
  have lone : Piece (String.utf8EncodeChar c) := by
    apply Piece.of_mem (encode [c])
    rw [pieces_encode]
    simp
  rcases lone.ascii_or_high with ⟨b, -, low, shown⟩ | beyond
  · rw [shownAs, character_utf8EncodeChar, Option.getD_some] at shown
    have small : c.toNat = b.toNat := by
      rw [shown, toNat_ofNat (Or.inl (by omega))]
    omega
  · exact beyond.1

def textBreaks : List Char := ['\n', '\r']

theorem spells_encode (text : List Char) :
    Spells textBreaks asciiByte String.utf8EncodeChar text := by
  have low : ∀ m ∈ textBreaks, m.toNat < 0x80 := by simp [textBreaks]
  constructor
  · exact fun c _ marked => utf8EncodeChar_ascii (low c marked)
  · intro c member other
    refine ⟨String.utf8EncodeChar_ne_nil, fun m marked inside => ?_⟩
    have value := toNat_asciiByte (low m marked)
    by_cases ascii : c.toNat < 0x80
    · rw [utf8EncodeChar_ascii ascii, List.mem_singleton] at inside
      have same : m.toNat = c.toNat := by
        rw [← value, inside, toNat_asciiByte ascii]
      exact other (Char.toNat_inj.mp same ▸ marked)
    · have high := utf8EncodeChar_high (Nat.not_lt.mp ascii) _ inside
      have bound := low m marked
      omega
  · have different : asciiByte '\n' ≠ asciiByte '\r' := by decide
    simp [textBreaks, different, different.symm]

theorem length_encode (text : List Char) : (encode text).length = byteLen text := by
  induction text with
  | nil => rfl
  | cons c text ih =>
      rw [encode, List.flatMap_cons, List.length_append, String.length_utf8EncodeChar, byteLen, ← ih]
      rfl

theorem frames_encode (text : List Char) :
    frames byteTerminators (encode text) =
      ((frames terminators text).1.map fun frame => (encode frame.1, encode frame.2),
        encode (frames terminators text).2) := by
  have same : written asciiByte terminators = byteTerminators := by decide
  have marked : ∀ terminator ∈ terminators, ∀ m ∈ terminator, m ∈ textBreaks := by
    simp [terminators, textBreaks]
  rw [← same]
  exact (spells_encode text).frames marked terminators_settled

/-! ### Decoded bytes -/

def pieceBreaks : List (List UInt8) := [[0x0A], [0x0D]]

def pieceTerminators : List (List (List UInt8)) :=
  byteTerminators.map fun terminator => terminator.map ([·])

theorem pieceTerminators_settled : Settled pieceTerminators :=
  Settled.of_offsets (by decide) (by decide)

theorem pieceTerminators_marked :
    ∀ terminator ∈ pieceTerminators, ∀ m ∈ terminator, m ∈ pieceBreaks := by
  decide

theorem pieceBreaks_byte :
    ∀ m ∈ pieceBreaks, ∃ b, m = [b] ∧ b.toNat < 0x80 ∧ shownAs m = Char.ofNat b.toNat := by
  intro m marked
  simp only [pieceBreaks, List.mem_cons, List.not_mem_nil, or_false] at marked
  rcases marked with rfl | rfl
  · exact ⟨0x0A, rfl, by decide, by decide⟩
  · exact ⟨0x0D, rfl, by decide, by decide⟩

theorem spells_bytes {parts : List (List UInt8)} (lone : ∀ piece ∈ parts, Piece piece) :
    Spells pieceBreaks (fun piece => piece.headD 0) id parts := by
  constructor
  · intro piece _ marked
    obtain ⟨b, rfl, -⟩ := pieceBreaks_byte piece marked
    rfl
  · intro piece member other
    refine ⟨(lone piece member).some, fun m marked inside => ?_⟩
    obtain ⟨b, rfl, low, -⟩ := pieceBreaks_byte m marked
    rcases (lone piece member).ascii_or_high with ⟨c, rfl, -⟩ | high
    · have same : b = c := by simpa using inside
      exact other (same ▸ marked)
    · have bound := high.1 b inside
      omega
  · decide

theorem spells_text {parts : List (List UInt8)} (lone : ∀ piece ∈ parts, Piece piece) :
    Spells pieceBreaks shownAs (fun piece => [shownAs piece]) parts := by
  constructor
  · exact fun _ _ _ => rfl
  · intro piece member other
    refine ⟨List.cons_ne_nil _ _, fun m marked inside => ?_⟩
    obtain ⟨b, rfl, low, shown⟩ := pieceBreaks_byte m marked
    rw [List.mem_singleton, shown] at inside
    have value := congrArg Char.toNat inside
    rw [toNat_ofNat (Or.inl (by omega))] at value
    rcases (lone piece member).ascii_or_high with ⟨c, rfl, below, same⟩ | high
    · rw [same, toNat_ofNat (Or.inl (by omega))] at value
      have equal : b = c := UInt8.toNat_inj.mp value
      exact other (equal ▸ marked)
    · have bound := high.2
      omega
  · decide

/-- The content of a frame is cut off between pieces. -/
theorem frame_settles {parts : List (List UInt8)} (settles : Settles parts)
    {frame : List (List UInt8) × List (List UInt8)}
    (listed : frame ∈ (frames pieceTerminators parts).1) : Settles frame.1 := by
  generalize size : parts.length = length
  induction length using Nat.strong_induction_on generalizing parts with
  | _ length ih =>
      cases found : earliest pieceTerminators parts with
      | none => simp [frames_of_none found] at listed
      | some cut =>
          obtain ⟨content, total⟩ := cut
          have positive := pieceTerminators_settled.total_pos found
          have shorter : (parts.drop total).length < length := by
            rw [List.length_drop]
            omega
          rw [pieceTerminators_settled.frames_of_some found] at listed
          rcases List.mem_cons.mp listed with rfl | later
          · obtain ⟨⟨terminator, member, rest, split, -⟩, -⟩ := earliest_cut found
            cases terminator with
            | nil => exact absurd rfl (pieceTerminators_settled.nonempty [] member)
            | cons m terminator =>
                have marked := pieceTerminators_marked _ member m List.mem_cons_self
                obtain ⟨b, rfl, low, -⟩ := pieceBreaks_byte m marked
                have whole : parts = parts.take content ++ [b] :: (terminator ++ rest) := by
                  simpa using split
                rw [whole] at settles
                exact settles.front low
          · exact ih _ shorter (settles.drop total) later rfl

/-- What is decoded from a stream are the events of its frames, decoded one by one. -/
theorem eventsOf_fromUtf8Lossy (bytes : List UInt8) :
    eventsOf (fromUtf8Lossy bytes) =
      (frames byteTerminators bytes).1.filterMap fun frame =>
        parseFrame (fromUtf8Lossy frame.1) := by
  have lone : ∀ piece ∈ pieces bytes, Piece piece := fun piece => Piece.of_mem bytes
  have inBytes := (spells_bytes lone).frames pieceTerminators_marked pieceTerminators_settled
  have inText := (spells_text lone).frames pieceTerminators_marked pieceTerminators_settled
  have bytesBack : (pieces bytes).flatMap id = bytes := by
    rw [List.flatMap_id]
    exact piecesBy_flatten id bytes
  have textBack : (pieces bytes).flatMap (fun piece => [shownAs piece]) = fromUtf8Lossy bytes :=
    List.flatMap_pure_eq_map _ _
  have same : written (fun piece => piece.headD 0) pieceTerminators = byteTerminators := by decide
  have same' : written shownAs pieceTerminators = terminators := by decide
  rw [same, bytesBack] at inBytes
  rw [same', textBack] at inText
  rw [eventsOf, inText, inBytes, List.filterMap_map, List.filterMap_map]
  apply List.filterMap_congr
  intro frame listed
  have settles := frame_settles (settles_pieces bytes) listed
  have shown : fromUtf8Lossy frame.1.flatten = frame.1.map shownAs := by
    rw [fromUtf8Lossy, settles]
  have text : frame.1.flatMap (fun piece => [shownAs piece]) = frame.1.map shownAs :=
    List.flatMap_pure_eq_map _ _
  simp [shown, text, List.flatMap_id]

end Lightweight.Core
