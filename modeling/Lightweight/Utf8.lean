import Mathlib.Data.List.Basic
import Mathlib.Data.List.Forall2
import Mathlib.Data.List.TakeWhile
import Mathlib.Tactic.SplitIfs

/-! UTF-8 as a decoder meets it: a byte stream falls into pieces, each a whole sequence or the longest
beginning of one, and a piece that is no whole sequence stands for the replacement character. -/

namespace Lightweight.Utf8

/-- The ranges of the bytes that a lead byte calls for. -/
def following (lead : UInt8) : List (Nat × Nat) :=
  if 0xC2 ≤ lead.toNat ∧ lead.toNat ≤ 0xDF then [(0x80, 0xBF)]
  else if lead.toNat = 0xE0 then [(0xA0, 0xBF), (0x80, 0xBF)]
  else if lead.toNat = 0xED then [(0x80, 0x9F), (0x80, 0xBF)]
  else if 0xE1 ≤ lead.toNat ∧ lead.toNat ≤ 0xEF then [(0x80, 0xBF), (0x80, 0xBF)]
  else if lead.toNat = 0xF0 then [(0x90, 0xBF), (0x80, 0xBF), (0x80, 0xBF)]
  else if 0xF1 ≤ lead.toNat ∧ lead.toNat ≤ 0xF3 then [(0x80, 0xBF), (0x80, 0xBF), (0x80, 0xBF)]
  else if lead.toNat = 0xF4 then [(0x80, 0x8F), (0x80, 0xBF), (0x80, 0xBF)]
  else []

/-- How many of the ranges the bytes meet, one after the other. -/
def matched : List (Nat × Nat) → List UInt8 → Nat
  | (low, high) :: ranges, b :: bytes =>
      if low ≤ b.toNat ∧ b.toNat ≤ high then matched ranges bytes + 1 else 0
  | _, _ => 0

/-- The length of the first piece. -/
def width : List UInt8 → Nat
  | [] => 0
  | lead :: bytes => matched (following lead) bytes + 1

/-- A piece that is a whole sequence: one ASCII byte, or a lead byte with all it calls for. -/
def whole : List UInt8 → Bool
  | [] => false
  | lead :: bytes =>
      if lead.toNat < 0x80 then bytes.isEmpty
      else !(following lead).isEmpty && bytes.length == (following lead).length &&
        matched (following lead) bytes == bytes.length

/-- The bits a lead byte contributes, by the number of bytes after it. -/
def leadBits (lead : UInt8) : Nat → Nat
  | 0 => lead.toNat
  | 1 => lead.toNat % 0x20
  | 2 => lead.toNat % 0x10
  | _ => lead.toNat % 0x08

/-- The number a sequence spells. -/
def value : List UInt8 → Nat
  | [] => 0
  | lead :: bytes =>
      bytes.foldl (fun acc b => acc * 0x40 + b.toNat % 0x40) (leadBits lead bytes.length)

def character (piece : List UInt8) : Option Char :=
  if whole piece then some (Char.ofNat (value piece)) else none

def replacement : Char := '\uFFFD'

variable {α : Type}

/-- The pieces of a list of tagged bytes; a piece takes at least one byte, so the length is enough
fuel. -/
def cutPieces (byte : α → UInt8) : Nat → List α → List (List α)
  | 0, _ => []
  | _, [] => []
  | fuel + 1, x :: xs =>
      let size := width ((x :: xs).map byte)
      (x :: xs).take size :: cutPieces byte fuel ((x :: xs).drop size)

def piecesBy (byte : α → UInt8) (xs : List α) : List (List α) :=
  cutPieces byte xs.length xs

def pieces (bytes : List UInt8) : List (List UInt8) :=
  piecesBy id bytes

def shownAs (piece : List UInt8) : Char :=
  (character piece).getD replacement

/-- Every piece as one character. -/
def fromUtf8Lossy (bytes : List UInt8) : List Char :=
  (pieces bytes).map shownAs

/-- The text, if every piece is a whole sequence. -/
def fromUtf8 (bytes : List UInt8) : Option (List Char) :=
  (pieces bytes).mapM character

def encode (text : List Char) : List UInt8 :=
  text.flatMap String.utf8EncodeChar

theorem matched_le (ranges : List (Nat × Nat)) (bytes : List UInt8) :
    matched ranges bytes ≤ ranges.length ∧ matched ranges bytes ≤ bytes.length := by
  induction ranges generalizing bytes with
  | nil => simp [matched]
  | cons range ranges ih =>
      cases bytes with
      | nil => simp [matched]
      | cons b bytes =>
          obtain ⟨low, high⟩ := range
          have rest := ih bytes
          simp only [matched, List.length_cons]
          split <;> omega

theorem width_le (bytes : List UInt8) : width bytes ≤ bytes.length := by
  cases bytes with
  | nil => exact le_rfl
  | cons lead bytes => exact Nat.succ_le_succ (matched_le _ bytes).2

theorem width_pos (bytes : List UInt8) (some : bytes ≠ []) : 0 < width bytes := by
  cases bytes with
  | nil => exact absurd rfl some
  | cons lead bytes => exact Nat.succ_pos _

theorem cutPieces_enough (byte : α → UInt8) {fuel : Nat} {xs : List α} (enough : xs.length ≤ fuel) :
    cutPieces byte fuel xs = piecesBy byte xs := by
  unfold piecesBy
  induction fuel using Nat.strong_induction_on generalizing xs with
  | _ fuel ih =>
      cases xs with
      | nil => cases fuel <;> rfl
      | cons x xs =>
          cases fuel with
          | zero => simp at enough
          | succ fuel =>
              have size := width_pos ((x :: xs).map byte) (by simp)
              have shorter : ((x :: xs).drop (width ((x :: xs).map byte))).length ≤ xs.length := by
                rw [List.length_drop, List.length_cons]
                omega
              have bound : xs.length ≤ fuel := by simpa using enough
              simp only [cutPieces, List.length_cons]
              rw [ih fuel (Nat.lt_succ_self _) (le_trans shorter bound),
                ih xs.length (Nat.lt_succ_of_le bound) shorter]

theorem piecesBy_cons (byte : α → UInt8) (xs : List α) (some : xs ≠ []) :
    piecesBy byte xs = xs.take (width (xs.map byte)) ::
      piecesBy byte (xs.drop (width (xs.map byte))) := by
  cases xs with
  | nil => exact absurd rfl some
  | cons x xs =>
      have size := width_pos ((x :: xs).map byte) (by simp)
      have shorter : ((x :: xs).drop (width ((x :: xs).map byte))).length ≤ xs.length := by
        rw [List.length_drop, List.length_cons]
        omega
      rw [← cutPieces_enough byte shorter]
      rfl

theorem piecesBy_map (byte : α → UInt8) (xs : List α) :
    (piecesBy byte xs).map (List.map byte) = pieces (xs.map byte) := by
  unfold pieces
  generalize size : xs.length = length
  induction length using Nat.strong_induction_on generalizing xs with
  | _ length ih =>
      by_cases empty : xs = []
      · subst empty
        rfl
      · have positive := width_pos (xs.map byte) (by simpa using empty)
        have shorter : (xs.drop (width (xs.map byte))).length < length := by
          have some := List.length_pos_iff.mpr empty
          rw [List.length_drop]
          omega
        rw [piecesBy_cons byte xs empty, piecesBy_cons id (xs.map byte) (by simpa using empty),
          List.map_cons, ih _ shorter _ rfl]
        simp

theorem piecesBy_flatten (byte : α → UInt8) (xs : List α) : (piecesBy byte xs).flatten = xs := by
  generalize size : xs.length = length
  induction length using Nat.strong_induction_on generalizing xs with
  | _ length ih =>
      by_cases empty : xs = []
      · subst empty
        rfl
      · have positive := width_pos (xs.map byte) (by simpa using empty)
        have shorter : (xs.drop (width (xs.map byte))).length < length := by
          have some := List.length_pos_iff.mpr empty
          rw [List.length_drop]
          omega
        rw [piecesBy_cons byte xs empty, List.flatten_cons, ih _ shorter _ rfl, List.take_append_drop]

theorem matched_append (ranges : List (Nat × Nat)) (xs ys : List UInt8) :
    matched ranges (xs ++ ys) =
      if matched ranges xs < xs.length then matched ranges xs
      else xs.length + matched (ranges.drop xs.length) ys := by
  induction xs generalizing ranges with
  | nil => simp
  | cons x xs ih =>
      cases ranges with
      | nil => simp [matched]
      | cons range ranges =>
          obtain ⟨low, high⟩ := range
          by_cases fits : low ≤ x.toNat ∧ x.toNat ≤ high
          · simp only [List.cons_append, matched, if_pos fits, ih, List.length_cons,
              List.drop_succ_cons, Nat.add_lt_add_iff_right]
            split <;> omega
          · simp [matched, fits]

theorem matched_take (ranges : List (Nat × Nat)) (bytes : List UInt8) :
    matched ranges (bytes.take (matched ranges bytes)) = matched ranges bytes := by
  have bound := matched_le ranges bytes
  have parts := matched_append ranges (bytes.take (matched ranges bytes))
    (bytes.drop (matched ranges bytes))
  have size : (bytes.take (matched ranges bytes)).length = matched ranges bytes := by
    rw [List.length_take]
    omega
  have inner := matched_le ranges (bytes.take (matched ranges bytes))
  rw [List.take_append_drop, size] at parts
  split at parts <;> omega

/-- One piece: it is its own first piece. -/
structure Piece (piece : List UInt8) : Prop where
  some : piece ≠ []
  alone : width piece = piece.length

theorem width_take (bytes : List UInt8) : width (bytes.take (width bytes)) = width bytes := by
  cases bytes with
  | nil => rfl
  | cons lead bytes => simp [width, matched_take]

theorem Piece.first {bytes : List UInt8} (some : bytes ≠ []) : Piece (bytes.take (width bytes)) := by
  have positive := width_pos bytes some
  have bound := width_le bytes
  constructor
  · intro empty
    have lengths := congrArg List.length empty
    rw [List.length_take, List.length_nil] at lengths
    omega
  · rw [width_take, List.length_take]
    omega

theorem Piece.of_mem (bytes : List UInt8) {piece : List UInt8} (member : piece ∈ pieces bytes) : Piece piece := by
  generalize size : bytes.length = length
  induction length using Nat.strong_induction_on generalizing bytes with
  | _ length ih =>
      by_cases empty : bytes = []
      · subst empty
        exact absurd member List.not_mem_nil
      · have positive := width_pos bytes empty
        have shorter : (bytes.drop (width bytes)).length < length := by
          have some := List.length_pos_iff.mpr empty
          rw [List.length_drop]
          omega
        rw [pieces, piecesBy_cons id bytes empty, List.map_id_fun, id_eq] at member
        rcases List.mem_cons.mp member with rfl | later
        · exact Piece.first empty
        · exact ih _ shorter _ later rfl

theorem following_ranges {lead : UInt8} {range : Nat × Nat} (listed : range ∈ following lead) :
    0x80 ≤ range.1 ∧ range.2 ≤ 0xBF ∧ 0xC2 ≤ lead.toNat := by
  unfold following at listed
  grind

theorem following_ascii {lead : UInt8} (low : lead.toNat < 0x80) : following lead = [] := by
  apply List.eq_nil_iff_forall_not_mem.mpr
  intro range listed
  have bound := following_ranges listed
  omega

theorem matched_continuation {ranges : List (Nat × Nat)} {bytes : List UInt8}
    (inside : ∀ range ∈ ranges, 0x80 ≤ range.1 ∧ range.2 ≤ 0xBF)
    (all : matched ranges bytes = bytes.length) :
    ∀ b ∈ bytes, 0x80 ≤ b.toNat ∧ b.toNat ≤ 0xBF := by
  induction bytes generalizing ranges with
  | nil => simp
  | cons x bytes ih =>
      cases ranges with
      | nil => simp [matched] at all
      | cons range ranges =>
          obtain ⟨low, high⟩ := range
          by_cases fits : low ≤ x.toNat ∧ x.toNat ≤ high
          · simp only [matched, if_pos fits, List.length_cons, Nat.add_right_cancel_iff] at all
            have here := inside (low, high) List.mem_cons_self
            intro b member
            rcases List.mem_cons.mp member with rfl | later
            · omega
            · exact ih (fun range listed => inside range (List.mem_cons_of_mem _ listed)) all b later
          · simp [matched, fits] at all

/-- A byte that continues a sequence. -/
def Continuation (b : UInt8) : Prop := 0x80 ≤ b.toNat ∧ b.toNat ≤ 0xBF

/-- A byte in a range. -/
def Fits (range : Nat × Nat) (b : UInt8) : Prop := range.1 ≤ b.toNat ∧ b.toNat ≤ range.2

theorem matched_all_iff {ranges : List (Nat × Nat)} {bytes : List UInt8} :
    bytes.length = ranges.length ∧ matched ranges bytes = bytes.length ↔
      List.Forall₂ Fits ranges bytes := by
  induction ranges generalizing bytes with
  | nil =>
      cases bytes with
      | nil => simp [matched]
      | cons b bytes => simp
  | cons range ranges ih =>
      obtain ⟨low, high⟩ := range
      cases bytes with
      | nil => simp
      | cons b bytes =>
          by_cases fits : low ≤ b.toNat ∧ b.toNat ≤ high
          · simp [matched, Fits, fits, ← ih]
          · simp [matched, Fits, fits]

theorem whole_cons {lead : UInt8} {bytes : List UInt8} (high : 0x80 ≤ lead.toNat) :
    whole (lead :: bytes) = true ↔
      following lead ≠ [] ∧ List.Forall₂ Fits (following lead) bytes := by
  simp only [whole, if_neg (Nat.not_lt.mpr high), Bool.and_eq_true, Bool.not_eq_true',
    List.isEmpty_eq_false_iff, beq_iff_eq, and_assoc, matched_all_iff]

/-- The lead bytes by the number of bytes they call for; the ranges are narrower for the second byte
only. -/
theorem following_cases (lead : UInt8) :
    (0xC2 ≤ lead.toNat ∧ lead.toNat ≤ 0xDF ∧ following lead = [(0x80, 0xBF)]) ∨
    (0xE0 ≤ lead.toNat ∧ lead.toNat ≤ 0xEF ∧ following lead =
      [(if lead.toNat = 0xE0 then 0xA0 else 0x80, if lead.toNat = 0xED then 0x9F else 0xBF),
        (0x80, 0xBF)]) ∨
    (0xF0 ≤ lead.toNat ∧ lead.toNat ≤ 0xF4 ∧ following lead =
      [(if lead.toNat = 0xF0 then 0x90 else 0x80, if lead.toNat = 0xF4 then 0x8F else 0xBF),
        (0x80, 0xBF), (0x80, 0xBF)]) ∨
    ((lead.toNat < 0xC2 ∨ 0xF4 < lead.toNat) ∧ following lead = []) := by
  unfold following
  split_ifs <;> simp <;> omega

theorem fits_narrowed {p q : Prop} [Decidable p] [Decidable q] {low high : Nat} (b : UInt8)
    (above : 0x80 ≤ low) (below : high ≤ 0xBF) :
    Fits (if p then low else 0x80, if q then high else 0xBF) b ↔
      Continuation b ∧ (p → low ≤ b.toNat) ∧ (q → b.toNat ≤ high) := by
  unfold Fits Continuation
  split_ifs with first second <;> simp [*] <;> omega

theorem whole_iff {lead : UInt8} {bytes : List UInt8} (high : 0x80 ≤ lead.toNat) :
    whole (lead :: bytes) = true ↔
      (∃ b, bytes = [b] ∧ 0xC2 ≤ lead.toNat ∧ lead.toNat ≤ 0xDF ∧ Continuation b) ∨
      (∃ b c, bytes = [b, c] ∧ 0xE0 ≤ lead.toNat ∧ lead.toNat ≤ 0xEF ∧ Continuation b ∧
        Continuation c ∧ (lead.toNat = 0xE0 → 0xA0 ≤ b.toNat) ∧
        (lead.toNat = 0xED → b.toNat ≤ 0x9F)) ∨
      (∃ b c d, bytes = [b, c, d] ∧ 0xF0 ≤ lead.toNat ∧ lead.toNat ≤ 0xF4 ∧ Continuation b ∧
        Continuation c ∧ Continuation d ∧ (lead.toNat = 0xF0 → 0x90 ≤ b.toNat) ∧
        (lead.toNat = 0xF4 → b.toNat ≤ 0x8F)) := by
  rw [whole_cons high]
  constructor
  · rintro ⟨some, pairs⟩
    rcases following_cases lead with ⟨low, up, calls⟩ | ⟨low, up, calls⟩ | ⟨low, up, calls⟩ | ⟨-, calls⟩
    · rw [calls] at pairs
      obtain _ | ⟨second, _ | _⟩ := pairs
      exact .inl ⟨_, rfl, low, up, second⟩
    · rw [calls] at pairs
      obtain _ | ⟨second, _ | ⟨third, _ | _⟩⟩ := pairs
      obtain ⟨plain, narrow⟩ := (fits_narrowed _ (by omega) (by omega)).mp second
      exact .inr (.inl ⟨_, _, rfl, low, up, plain, third, narrow⟩)
    · rw [calls] at pairs
      obtain _ | ⟨second, _ | ⟨third, _ | ⟨fourth, _ | _⟩⟩⟩ := pairs
      obtain ⟨plain, narrow⟩ := (fits_narrowed _ (by omega) (by omega)).mp second
      exact .inr (.inr ⟨_, _, _, rfl, low, up, plain, third, fourth, narrow⟩)
    · exact absurd calls some
  · rintro (⟨b, rfl, low, up, second⟩ | ⟨b, c, rfl, low, up, second, third, narrow⟩ |
      ⟨b, c, d, rfl, low, up, second, third, fourth, narrow⟩) <;>
    rcases following_cases lead with ⟨low', up', calls⟩ | ⟨low', up', calls⟩ | ⟨low', up', calls⟩ |
      ⟨outside, calls⟩ <;>
    try omega
    · rw [calls]
      exact ⟨List.cons_ne_nil _ _, .cons second .nil⟩
    · rw [calls]
      exact ⟨List.cons_ne_nil _ _,
        .cons ((fits_narrowed b (by omega) (by omega)).mpr ⟨second, narrow⟩) (.cons third .nil)⟩
    · rw [calls]
      exact ⟨List.cons_ne_nil _ _, .cons ((fits_narrowed b (by omega) (by omega)).mpr ⟨second, narrow⟩)
        (.cons third (.cons fourth .nil))⟩

/-- The number a whole sequence of several bytes spells is a scalar value beyond ASCII. -/
theorem whole_value {lead : UInt8} {bytes : List UInt8} (high : 0x80 ≤ lead.toNat)
    (complete : whole (lead :: bytes) = true) :
    (value (lead :: bytes)).isValidChar ∧ 0x80 ≤ value (lead :: bytes) := by
  unfold Nat.isValidChar
  rcases (whole_iff high).mp complete with ⟨b, rfl, bounds⟩ | ⟨b, c, rfl, bounds⟩ |
    ⟨b, c, d, rfl, bounds⟩ <;>
  simp only [Continuation] at bounds <;>
  simp only [value, leadBits, List.length_cons, List.length_nil, List.foldl_cons, List.foldl_nil] <;>
  omega

theorem toNat_ofNat {n : Nat} (valid : n.isValidChar) : (Char.ofNat n).toNat = n := by
  rw [Char.ofNat, dif_pos valid]
  rfl

/-- A piece is one ASCII byte, or all its bytes and its character lie beyond ASCII. -/
theorem Piece.ascii_or_high {piece : List UInt8} (lone : Piece piece) :
    (∃ b, piece = [b] ∧ b.toNat < 0x80 ∧ shownAs piece = Char.ofNat b.toNat) ∨
      ((∀ b ∈ piece, 0x80 ≤ b.toNat) ∧ 0x80 ≤ (shownAs piece).toNat) := by
  cases piece with
  | nil => exact absurd rfl lone.some
  | cons lead bytes =>
      have all : matched (following lead) bytes = bytes.length := by
        simpa [width] using lone.alone
      by_cases low : lead.toNat < 0x80
      · left
        have nothing := following_ascii low
        have single : bytes = [] := by
          rw [nothing] at all
          exact List.eq_nil_of_length_eq_zero (by simpa [matched] using all.symm)
        subst single
        exact ⟨lead, rfl, low, by simp [shownAs, character, whole, low, value, leadBits]⟩
      · right
        have high : 0x80 ≤ lead.toNat := Nat.not_lt.mp low
        constructor
        · intro b member
          rcases List.mem_cons.mp member with rfl | later
          · exact high
          · have inside : ∀ range ∈ following lead, 0x80 ≤ range.1 ∧ range.2 ≤ 0xBF := fun _ listed =>
              ⟨(following_ranges listed).1, (following_ranges listed).2.1⟩
            exact (matched_continuation inside all b later).1
        · unfold shownAs character
          cases complete : whole (lead :: bytes) with
          | false => exact of_decide_eq_true rfl
          | true =>
              obtain ⟨valid, beyond⟩ := whole_value high complete
              rw [if_pos rfl, Option.getD_some, toNat_ofNat valid]
              exact beyond

theorem whole_width {piece : List UInt8} (rest : List UInt8) (complete : whole piece = true) :
    width (piece ++ rest) = piece.length := by
  cases piece with
  | nil => simp [whole] at complete
  | cons lead bytes =>
      by_cases low : lead.toNat < 0x80
      · have nothing := following_ascii low
        have single : bytes = [] := by simpa [whole, low] using complete
        subst single
        simp [width, nothing, matched]
      · simp only [whole, if_neg low, Bool.and_eq_true, beq_iff_eq] at complete
        obtain ⟨⟨-, sizes⟩, all⟩ := complete
        simp [width, matched_append, all, sizes, matched]

theorem whole_utf8EncodeChar (c : Char) :
    whole (String.utf8EncodeChar c) = true ∧ value (String.utf8EncodeChar c) = c.toNat := by
  have valid : c.toNat.isValidChar := c.valid
  unfold Nat.isValidChar at valid
  have same : c.val.toNat = c.toNat := rfl
  have byte (n : Nat) : (UInt8.ofNat n).toNat = n % 256 := UInt8.toNat_ofNat'
  unfold String.utf8EncodeChar
  simp only [same]
  split_ifs with one two three
  · have low : c.toNat % 256 = c.toNat := by omega
    simp only [whole, value, leadBits, byte, List.isEmpty_nil, List.length_nil, List.foldl_nil, low]
    exact ⟨if_pos (by omega), trivial⟩
  · constructor
    · apply (whole_iff (by rw [byte]; omega)).mpr
      exact Or.inl ⟨_, rfl, by simp only [Continuation, byte]; omega⟩
    · simp only [value, leadBits, byte, List.length_cons, List.length_nil, List.foldl_cons,
        List.foldl_nil]
      omega
  · constructor
    · apply (whole_iff (by rw [byte]; omega)).mpr
      exact Or.inr (Or.inl ⟨_, _, rfl, by simp only [Continuation, byte]; omega⟩)
    · simp only [value, leadBits, byte, List.length_cons, List.length_nil, List.foldl_cons,
        List.foldl_nil]
      omega
  · constructor
    · apply (whole_iff (by rw [byte]; omega)).mpr
      exact Or.inr (Or.inr ⟨_, _, _, rfl, by simp only [Continuation, byte]; omega⟩)
    · simp only [value, leadBits, byte, List.length_cons, List.length_nil, List.foldl_cons,
        List.foldl_nil]
      omega

theorem character_utf8EncodeChar (c : Char) : character (String.utf8EncodeChar c) = some c := by
  obtain ⟨complete, spelled⟩ := whole_utf8EncodeChar c
  rw [character, if_pos complete, spelled, Char.ofNat_toNat]

theorem pieces_encode (text : List Char) : pieces (encode text) = text.map String.utf8EncodeChar := by
  induction text with
  | nil => rfl
  | cons c text ih =>
      have some : encode (c :: text) ≠ [] := by
        simp [encode, String.utf8EncodeChar_ne_nil]
      have first : width (encode (c :: text)) = (String.utf8EncodeChar c).length := by
        rw [encode, List.flatMap_cons]
        exact whole_width _ (whole_utf8EncodeChar c).1
      rw [pieces, piecesBy_cons id _ some, List.map_id_fun, id_eq, first, List.map_cons, ← ih]
      congr 1
      · exact List.take_left' rfl
      · exact congrArg pieces (List.drop_left' rfl)

theorem fromUtf8Lossy_encode (text : List Char) : fromUtf8Lossy (encode text) = text := by
  have shown : shownAs ∘ String.utf8EncodeChar = id := by
    funext c
    simp [shownAs, character_utf8EncodeChar]
  rw [fromUtf8Lossy, pieces_encode, List.map_map, shown, List.map_id]

theorem fromUtf8_encode (text : List Char) : fromUtf8 (encode text) = some text := by
  rw [fromUtf8, pieces_encode]
  induction text with
  | nil => rfl
  | cons c text ih =>
      simp only [List.map_cons, List.mapM_cons, character_utf8EncodeChar, ih]
      rfl

theorem encode_append (xs ys : List Char) : encode (xs ++ ys) = encode xs ++ encode ys :=
  List.flatMap_append

theorem encode_nil : encode [] = [] := rfl

theorem encode_eq_nil_iff {text : List Char} : encode text = [] ↔ text = [] := by
  cases text with
  | nil => simp [encode]
  | cons c text => simp [encode, String.utf8EncodeChar_ne_nil]

/-- What follows a text in the encoding of another one is the encoding of the rest. -/
theorem encode_append_eq {front whole : List Char} {back : List UInt8}
    (same : encode front ++ back = encode whole) :
    ∃ rest, whole = front ++ rest ∧ back = encode rest := by
  induction front generalizing whole with
  | nil => exact ⟨whole, rfl, same⟩
  | cons c front ih =>
      cases whole with
      | nil => simp [encode, String.utf8EncodeChar_ne_nil] at same
      | cons d whole =>
          rw [encode, List.flatMap_cons, List.append_assoc, encode, List.flatMap_cons] at same
          have widths := congrArg width same
          rw [whole_width _ (whole_utf8EncodeChar c).1, whole_width _ (whole_utf8EncodeChar d).1]
            at widths
          obtain ⟨first, others⟩ := List.append_inj same widths
          have character_same := congrArg character first
          rw [character_utf8EncodeChar, character_utf8EncodeChar] at character_same
          cases character_same
          obtain ⟨rest, rfl, encoded⟩ := ih others
          exact ⟨rest, rfl, encoded⟩

/-- A whole sequence is the encoding of the character it spells. -/
theorem utf8EncodeChar_value {piece : List UInt8} (complete : whole piece = true) :
    String.utf8EncodeChar (Char.ofNat (value piece)) = piece := by
  have byte {n : Nat} {b : UInt8} (same : n % 256 = b.toNat) : UInt8.ofNat n = b := by
    apply UInt8.toNat_inj.mp
    rw [UInt8.toNat_ofNat']
    exact same
  cases piece with
  | nil => cases complete
  | cons lead bytes =>
      have size := lead.toNat_lt
      by_cases low : lead.toNat < 0x80
      · have single : bytes = [] := by simpa [whole, low] using complete
        subst single
        have valid : lead.toNat.isValidChar := by
          left
          omega
        have same : (Char.ofNat (value [lead])).val.toNat = lead.toNat := toNat_ofNat valid
        unfold String.utf8EncodeChar
        simp only [same]
        rw [if_pos (by omega), byte (b := lead) (by omega)]
      · have high : 0x80 ≤ lead.toNat := Nat.not_lt.mp low
        have valid := (whole_value high complete).1
        have same : (Char.ofNat (value (lead :: bytes))).val.toNat = value (lead :: bytes) :=
          toNat_ofNat valid
        unfold String.utf8EncodeChar
        simp only [same]
        rcases (whole_iff high).mp complete with ⟨b, rfl, bounds⟩ | ⟨b, c, rfl, bounds⟩ |
          ⟨b, c, d, rfl, bounds⟩ <;>
        simp only [value, leadBits, List.length_cons, List.length_nil, List.foldl_cons,
          List.foldl_nil, Continuation] at bounds ⊢
        · rw [if_neg (by omega), if_pos (by omega), byte (b := lead) (by omega),
            byte (b := b) (by omega)]
        · rw [if_neg (by omega), if_neg (by omega), if_pos (by omega), byte (b := lead) (by omega),
            byte (b := b) (by omega), byte (b := c) (by omega)]
        · rw [if_neg (by omega), if_neg (by omega), if_neg (by omega), byte (b := lead) (by omega),
            byte (b := b) (by omega), byte (b := c) (by omega), byte (b := d) (by omega)]

/-- Only the encoding of a text decodes to it. -/
theorem encode_of_fromUtf8 {bytes : List UInt8} {text : List Char}
    (valid : fromUtf8 bytes = some text) : encode text = bytes := by
  have whole_pieces : ∀ (parts : List (List UInt8)) (text : List Char),
      parts.mapM character = some text → encode text = parts.flatten := by
    intro parts
    induction parts with
    | nil =>
        rintro text ⟨⟩
        rfl
    | cons piece parts ih =>
        intro text decoded
        rw [List.mapM_cons] at decoded
        obtain ⟨c, first, rest⟩ := Option.bind_eq_some_iff.mp decoded
        obtain ⟨others, later, returned⟩ := Option.bind_eq_some_iff.mp rest
        cases returned
        unfold character at first
        split at first
        · rename_i complete
          cases first
          rw [encode, List.flatMap_cons, List.flatten_cons, utf8EncodeChar_value complete]
          exact congrArg (piece ++ ·) (ih others later)
        · cases first
  rw [whole_pieces (pieces bytes) text valid]
  exact piecesBy_flatten id bytes

theorem fromUtf8_eq_some {bytes : List UInt8} {text : List Char} :
    fromUtf8 bytes = some text ↔ bytes = encode text := by
  constructor
  · exact fun valid => (encode_of_fromUtf8 valid).symm
  · rintro rfl
    exact fromUtf8_encode text

/-- What decodes without a fault decodes the same with replacement. -/
theorem fromUtf8Lossy_of_fromUtf8 {bytes : List UInt8} {text : List Char}
    (valid : fromUtf8 bytes = some text) : fromUtf8Lossy bytes = text := by
  unfold fromUtf8 at valid
  unfold fromUtf8Lossy
  generalize pieces bytes = parts at valid
  induction parts generalizing text with
  | nil => simpa using valid
  | cons piece parts ih =>
      simp only [List.mapM_cons, Option.bind_eq_bind, Option.pure_def, Option.bind_eq_some_iff] at valid
      obtain ⟨c, first, rest, later, same⟩ := valid
      cases same
      rw [List.map_cons, ih later, shownAs, first]
      rfl

/-! ### Parts of a stream -/

/-- A list of pieces that are the pieces of the bytes they make up. -/
def Settles (parts : List (List UInt8)) : Prop := pieces parts.flatten = parts

theorem settles_pieces (bytes : List UInt8) : Settles (pieces bytes) :=
  congrArg pieces (piecesBy_flatten id bytes)

/-- An ASCII byte ends every piece before it. -/
theorem pieces_append_ascii (xs : List UInt8) {b : UInt8} (low : b.toNat < 0x80) (ys : List UInt8) :
    pieces (xs ++ b :: ys) = pieces xs ++ pieces (b :: ys) := by
  generalize size : xs.length = length
  induction length using Nat.strong_induction_on generalizing xs with
  | _ length ih =>
      cases xs with
      | nil => rfl
      | cons lead bytes =>
          have stops : matched ((following lead).drop bytes.length) (b :: ys) = 0 := by
            cases ranges : (following lead).drop bytes.length with
            | nil => rfl
            | cons range ranges' =>
                have listed : range ∈ following lead :=
                  List.mem_of_mem_drop (ranges ▸ List.mem_cons_self)
                have bound := following_ranges listed
                obtain ⟨least, most⟩ := range
                have outside : ¬(least ≤ b.toNat ∧ b.toNat ≤ most) := by
                  simp only at bound
                  omega
                rw [matched, if_neg outside]
          have first : width (lead :: bytes ++ b :: ys) = width (lead :: bytes) := by
            have bound := (matched_le (following lead) bytes).2
            simp only [List.cons_append, width, matched_append, stops]
            split <;> omega
          have size_le := width_le (lead :: bytes)
          have positive := width_pos (lead :: bytes) (List.cons_ne_nil _ _)
          have shorter : ((lead :: bytes).drop (width (lead :: bytes))).length < length := by
            rw [List.length_drop]
            omega
          have rest := ih _ shorter _ rfl
          unfold pieces at rest ⊢
          rw [piecesBy_cons id (lead :: bytes ++ b :: ys) (by simp),
            piecesBy_cons id (lead :: bytes) (by simp), List.map_id_fun, id_eq, id_eq, first,
            List.take_append_of_le_length size_le, List.drop_append_of_le_length size_le, rest]
          rfl

theorem Settles.tail {piece : List UInt8} {parts : List (List UInt8)}
    (settles : Settles (piece :: parts)) : Settles parts := by
  have lone : Piece piece := by
    apply Piece.of_mem (piece :: parts).flatten
    rw [settles]
    exact List.mem_cons_self
  have nonempty : (piece :: parts).flatten ≠ [] := by
    simp [lone.some]
  have split := settles
  unfold Settles pieces at split
  rw [piecesBy_cons id _ nonempty, List.map_id_fun, id_eq] at split
  injection split with first rest
  have drop : (piece :: parts).flatten.drop (width (piece :: parts).flatten) = parts.flatten := by
    have whole := List.take_append_drop (width (piece :: parts).flatten) (piece :: parts).flatten
    rw [first, List.flatten_cons] at whole
    exact List.append_cancel_left whole
  rw [drop] at rest
  exact rest

theorem Settles.drop {parts : List (List UInt8)} (settles : Settles parts) (n : Nat) :
    Settles (parts.drop n) := by
  induction n generalizing parts with
  | zero => exact settles
  | succ n ih =>
      cases parts with
      | nil => exact settles
      | cons piece parts => exact ih settles.tail

theorem flatten_injective {xs ys as bs : List (List UInt8)} (same : xs ++ as = ys ++ bs)
    (equal : xs.flatten = ys.flatten) (left : ∀ x ∈ xs, x ≠ []) (right : ∀ y ∈ ys, y ≠ []) :
    xs = ys := by
  induction xs generalizing ys with
  | nil =>
      cases ys with
      | nil => rfl
      | cons y ys =>
          have empty : y = [] := by
            simp only [List.flatten_nil, List.flatten_cons] at equal
            exact (List.append_eq_nil_iff.mp equal.symm).1
          exact absurd empty (right y List.mem_cons_self)
  | cons x xs ih =>
      cases ys with
      | nil =>
          have empty : x = [] := by
            simp only [List.flatten_nil, List.flatten_cons] at equal
            exact (List.append_eq_nil_iff.mp equal).1
          exact absurd empty (left x List.mem_cons_self)
      | cons y ys =>
          simp only [List.cons_append, List.cons.injEq] at same
          obtain ⟨rfl, same⟩ := same
          rw [List.flatten_cons, List.flatten_cons, List.append_cancel_left_eq] at equal
          rw [ih same equal (fun z member => left z (List.mem_cons_of_mem _ member))
            fun z member => right z (List.mem_cons_of_mem _ member)]

/-- The pieces before an ASCII byte are the pieces of their bytes. -/
theorem Settles.front {front back : List (List UInt8)} {b : UInt8}
    (settles : Settles (front ++ [b] :: back)) (low : b.toNat < 0x80) : Settles front := by
  have split := pieces_append_ascii front.flatten low back.flatten
  have joined : (front ++ [b] :: back).flatten = front.flatten ++ b :: back.flatten := by simp
  have parts := settles
  rw [Settles, joined, split] at parts
  refine flatten_injective parts (piecesBy_flatten id _) ?_ ?_
  · exact fun piece listed => (Piece.of_mem _ listed).some
  · intro piece listed
    apply (Piece.of_mem (front ++ [b] :: back).flatten _).some
    rw [settles]
    exact List.mem_append_left _ listed

/-! ### Chunks -/

/-- The bytes of the chunks, each with whether a chunk starts at it. -/
def tagged : List (List UInt8) → List (UInt8 × Bool)
  | [] => []
  | [] :: chunks => tagged chunks
  | (b :: bytes) :: chunks => (b, true) :: bytes.map (·, false) ++ tagged chunks

/-- How many bytes of a piece follow the first cut inside it. -/
def behindCut : List (UInt8 × Bool) → Nat
  | [] => 0
  | _ :: rest => (rest.dropWhile fun b => !b.2).length

/-- The characters of a stream, each with the number of its bytes behind the first cut inside it:
zero where the chunks keep it in one piece. -/
def spans (chunks : List (List UInt8)) : List (Char × Nat) :=
  (piecesBy Prod.fst (tagged chunks)).map fun piece => (shownAs (piece.map Prod.fst), behindCut piece)

/-- What the chunks, decoded one by one, show of a character: what comes before the cut is replaced,
and so is every byte behind it. -/
def showCut : Char × Nat → List Char
  | (c, 0) => [c]
  | (_, behind + 1) => List.replicate (behind + 2) replacement

theorem tagged_map (chunks : List (List UInt8)) : (tagged chunks).map Prod.fst = chunks.flatten := by
  induction chunks with
  | nil => rfl
  | cons chunk chunks ih =>
      cases chunk with
      | nil => simpa [tagged] using ih
      | cons b bytes => simp [tagged, ih, Function.comp_def]

theorem spans_whole (chunks : List (List UInt8)) :
    (spans chunks).map Prod.fst = fromUtf8Lossy chunks.flatten := by
  unfold spans fromUtf8Lossy
  rw [← tagged_map, ← piecesBy_map]
  simp [Function.comp_def]

theorem following_continuation {b : UInt8} (continues : Continuation b) : following b = [] := by
  apply List.eq_nil_iff_forall_not_mem.mpr
  intro range listed
  have bound := following_ranges listed
  unfold Continuation at continues
  omega

theorem shownAs_continuation {b : UInt8} (continues : Continuation b) : shownAs [b] = replacement := by
  have high : ¬b.toNat < 0x80 := Nat.not_lt.mpr continues.1
  simp [shownAs, character, whole, high, following_continuation continues]

/-- Continuation bytes without their lead byte are a piece each. -/
theorem piecesBy_continuation (byte : α → UInt8) {xs : List α}
    (continues : ∀ x ∈ xs, Continuation (byte x)) (ys : List α) :
    piecesBy byte (xs ++ ys) = xs.map ([·]) ++ piecesBy byte ys := by
  induction xs with
  | nil => rfl
  | cons x xs ih =>
      have one : width ((x :: (xs ++ ys)).map byte) = 1 := by
        simp [width, following_continuation (continues x List.mem_cons_self), matched]
      rw [List.cons_append, piecesBy_cons byte _ (List.cons_ne_nil _ _), one, List.take_succ_cons,
        List.take_zero, List.drop_succ_cons, List.drop_zero,
        ih fun y member => continues y (List.mem_cons_of_mem x member)]
      rfl

/-- The characters the chunks show of one piece. -/
def showPiece (piece : List (UInt8 × Bool)) : List Char :=
  showCut (shownAs (piece.map Prod.fst), behindCut piece)

theorem showPiece_uncut {piece : List (UInt8 × Bool)} (inner : ∀ x ∈ piece.tail, x.2 = false) :
    showPiece piece = [shownAs (piece.map Prod.fst)] := by
  have nothing : behindCut piece = 0 := by
    cases piece with
    | nil => rfl
    | cons x rest =>
        have skipped : rest.dropWhile (fun b => !b.2) = [] := by
          apply List.dropWhile_eq_nil_iff.mpr
          intro y member
          rw [inner y member]
          rfl
        simp [behindCut, skipped]
  rw [showPiece, nothing, showCut]

theorem fromUtf8Lossy_cons (bytes : List UInt8) (some : bytes ≠ []) :
    fromUtf8Lossy bytes =
      shownAs (bytes.take (width bytes)) :: fromUtf8Lossy (bytes.drop (width bytes)) := by
  rw [fromUtf8Lossy, pieces, piecesBy_cons id bytes some, List.map_id_fun, id_eq]
  rfl

/-- A sequence that the end of its chunk cuts off: its beginning is replaced in that chunk, and each
of its other bytes in the next ones. -/
theorem showPiece_cut {lead next : UInt8 × Bool} {bytes rest : List (UInt8 × Bool)} {more : Nat}
    (all : matched (following lead.1) (bytes.map Prod.fst) = bytes.length)
    (owed : matched ((following lead.1).drop bytes.length) ((next :: rest).map Prod.fst) = more + 1)
    (inner : ∀ x ∈ bytes, x.2 = false) (cut : next.2 = true) :
    showPiece (lead :: bytes ++ (next :: rest).take (more + 1)) =
        List.replicate (more + 2) replacement ∧
      fromUtf8Lossy ((lead :: bytes).map Prod.fst) = [replacement] ∧
      ∀ x ∈ (next :: rest).take (more + 1), Continuation x.1 := by
  have bounds := matched_le ((following lead.1).drop bytes.length) ((next :: rest).map Prod.fst)
  rw [owed, List.length_drop, List.length_map] at bounds
  refine ⟨?_, ?_, ?_⟩
  · have skipped : bytes.dropWhile (fun b => !b.2) = [] := by
      apply List.dropWhile_eq_nil_iff.mpr
      intro y member
      rw [inner y member]
      rfl
    have behind : behindCut (lead :: bytes ++ (next :: rest).take (more + 1)) = more + 1 := by
      simp only [List.cons_append, behindCut, List.dropWhile_append, skipped, List.isEmpty_nil,
        if_true, List.take_succ_cons, List.dropWhile_cons, cut, Bool.not_true, Bool.false_eq_true,
        if_false, List.length_cons, List.length_take]
      have room := bounds.2
      rw [List.length_cons] at room
      omega
    rw [showPiece, behind, showCut]
  · have taken : width ((lead :: bytes).map Prod.fst) = bytes.length + 1 := by
      simp [width, all]
    have unfinished : whole ((lead :: bytes).map Prod.fst) = false := by
      have called : following lead.1 ≠ [] := by
        intro nothing
        simp [nothing] at bounds
      obtain ⟨range, listed⟩ := List.exists_mem_of_ne_nil _ called
      have high : ¬lead.1.toNat < 0x80 := by
        have bound := following_ranges listed
        omega
      have short : bytes.length ≠ (following lead.1).length := by omega
      simp [whole, high, short]
    have upTo : ((lead :: bytes).map Prod.fst).length ≤ bytes.length + 1 := by simp
    rw [fromUtf8Lossy_cons _ (by simp), taken, List.take_of_length_le upTo,
      List.drop_of_length_le upTo, shownAs, character, unfinished]
    rfl
  · intro x member
    have inside : ∀ range ∈ (following lead.1).drop bytes.length,
        0x80 ≤ range.1 ∧ range.2 ≤ 0xBF := fun range listed =>
      ⟨(following_ranges (List.mem_of_mem_drop listed)).1,
        (following_ranges (List.mem_of_mem_drop listed)).2.1⟩
    have full := matched_take ((following lead.1).drop bytes.length) ((next :: rest).map Prod.fst)
    rw [owed] at full
    refine matched_continuation inside ?_ x.1 (List.mem_map_of_mem member)
    rw [List.map_take, full, List.length_take, List.length_map]
    omega

theorem flatMap_showPiece_continuation {xs : List (UInt8 × Bool)}
    (continues : ∀ x ∈ xs, Continuation x.1) :
    (xs.map ([·])).flatMap showPiece = List.replicate xs.length replacement := by
  induction xs with
  | nil => rfl
  | cons x xs ih =>
      have single : showPiece [x] = [replacement] := by
        rw [showPiece_uncut (by simp), List.map_singleton,
          shownAs_continuation (continues x List.mem_cons_self)]
      rw [List.map_cons, List.flatMap_cons, single,
        ih fun y member => continues y (List.mem_cons_of_mem x member)]
      rfl

/-- A piece that the next chunk goes on with: the chunks show a replacement character for each of
its parts. -/
theorem showPiece_spanned {lead next : UInt8 × Bool} {bytes rest : List (UInt8 × Bool)} {more : Nat}
    (all : matched (following lead.1) (bytes.map Prod.fst) = bytes.length)
    (owed : matched ((following lead.1).drop bytes.length) ((next :: rest).map Prod.fst) = more + 1)
    (inner : ∀ x ∈ bytes, x.2 = false) (starts : next.2 = true) :
    (piecesBy Prod.fst (lead :: bytes ++ next :: rest)).flatMap showPiece =
      fromUtf8Lossy ((lead :: bytes).map Prod.fst) ++
        (piecesBy Prod.fst (next :: rest)).flatMap showPiece := by
  obtain ⟨pieceShown, chunkShown, continues⟩ := showPiece_cut all owed inner starts
  have joined := matched_append (following lead.1) (bytes.map Prod.fst) ((next :: rest).map Prod.fst)
  rw [List.length_map, all, if_neg (lt_irrefl _), owed] at joined
  have first : width ((lead :: bytes ++ next :: rest).map Prod.fst) =
      (lead :: bytes).length + (more + 1) := by
    simp only [List.cons_append, List.map_cons, List.map_append, width, List.length_cons] at joined ⊢
    omega
  have room : ((next :: rest).take (more + 1)).length = more + 1 := by
    have bounds := (matched_le ((following lead.1).drop bytes.length)
      ((next :: rest).map Prod.fst)).2
    rw [owed, List.length_map] at bounds
    rw [List.length_take]
    omega
  rw [piecesBy_cons Prod.fst _ (by simp), first, List.take_length_add_append,
    List.drop_length_add_append, List.flatMap_cons, pieceShown, chunkShown]
  conv_rhs =>
    rw [← List.take_append_drop (more + 1) (next :: rest),
      piecesBy_continuation Prod.fst continues, List.flatMap_append,
      flatMap_showPiece_continuation continues, room, ← List.append_assoc]
  rfl

theorem showPiece_append {xs rest : List (UInt8 × Bool)} (inner : ∀ x ∈ xs.tail, x.2 = false)
    (starts : ∀ x ∈ rest.head?, x.2 = true) :
    (piecesBy Prod.fst (xs ++ rest)).flatMap showPiece =
      fromUtf8Lossy (xs.map Prod.fst) ++ (piecesBy Prod.fst rest).flatMap showPiece := by
  generalize size : xs.length = length
  induction length using Nat.strong_induction_on generalizing xs with
  | _ length ih =>
      cases xs with
      | nil => rfl
      | cons lead bytes =>
          have inner' : ∀ x ∈ bytes, x.2 = false := inner
          have joined := matched_append (following lead.1) (bytes.map Prod.fst) (rest.map Prod.fst)
          rw [List.length_map] at joined
          have bound := (matched_le (following lead.1) (bytes.map Prod.fst)).2
          rw [List.length_map] at bound
          by_cases same : matched (following lead.1) (bytes.map Prod.fst ++ rest.map Prod.fst) =
              matched (following lead.1) (bytes.map Prod.fst)
          · -- the next chunk adds nothing to the first piece
            have first : width ((lead :: bytes ++ rest).map Prod.fst) =
                width ((lead :: bytes).map Prod.fst) := by
              simpa [width] using same
            have size_le : width ((lead :: bytes).map Prod.fst) ≤ (lead :: bytes).length := by
              simpa using width_le ((lead :: bytes).map Prod.fst)
            have positive := width_pos ((lead :: bytes).map Prod.fst) (by simp)
            generalize total : width ((lead :: bytes).map Prod.fst) = w at first size_le positive
            have uncut : ∀ x ∈ ((lead :: bytes).take w).tail, x.2 = false := by
              intro x member
              cases w with
              | zero => simp at member
              | succ w => exact inner' x (List.mem_of_mem_take (by simpa using member))
            have later : ∀ x ∈ ((lead :: bytes).drop w).tail, x.2 = false := by
              intro x member
              cases w with
              | zero => omega
              | succ w => exact inner' x (List.mem_of_mem_drop (List.mem_of_mem_tail member))
            have shorter : ((lead :: bytes).drop w).length < length := by
              rw [List.length_drop]
              omega
            rw [piecesBy_cons Prod.fst _ (by simp), first, List.take_append_of_le_length size_le,
              List.drop_append_of_le_length size_le, List.flatMap_cons, showPiece_uncut uncut,
              ih _ shorter later rfl, fromUtf8Lossy_cons ((lead :: bytes).map Prod.fst) (by simp),
              total, ← List.map_take, ← List.map_drop]
            rfl
          · -- the next chunk would have gone on with it
            have all : matched (following lead.1) (bytes.map Prod.fst) = bytes.length := by
              split at joined <;> omega
            rw [all, if_neg (lt_irrefl _)] at joined
            cases owed : matched ((following lead.1).drop bytes.length) (rest.map Prod.fst) with
            | zero => omega
            | succ more =>
                cases rest with
                | nil => simp [matched] at owed
                | cons next rest => exact showPiece_spanned all owed inner' (starts next rfl)

theorem tagged_starts (chunks : List (List UInt8)) : ∀ x ∈ (tagged chunks).head?, x.2 = true := by
  induction chunks with
  | nil => simp [tagged]
  | cons chunk chunks ih =>
      cases chunk with
      | nil => exact ih
      | cons b bytes => simp [tagged]

/-- The characters that the chunks, decoded one by one, show of the stream. -/
theorem spans_chunks (chunks : List (List UInt8)) :
    (spans chunks).flatMap showCut = chunks.flatMap fromUtf8Lossy := by
  have shown : (spans chunks).flatMap showCut =
      (piecesBy Prod.fst (tagged chunks)).flatMap showPiece := by
    rw [spans, List.flatMap_map]
    rfl
  rw [shown]
  clear shown
  induction chunks with
  | nil => rfl
  | cons chunk chunks ih =>
      cases chunk with
      | nil => exact ih
      | cons b bytes =>
          have inner : ∀ x ∈ ((b, true) :: bytes.map (·, false)).tail, x.2 = false := by simp
          have whole : ((b, true) :: bytes.map (·, false)).map Prod.fst = b :: bytes := by
            simp [Function.comp_def]
          rw [tagged, showPiece_append inner (tagged_starts chunks), ih, whole]
          rfl

/-- A character that is cut lies beyond ASCII. -/
theorem spans_cut {chunks : List (List UInt8)} {span : Char × Nat} (member : span ∈ spans chunks)
    (cut : span.2 ≠ 0) : 0x80 ≤ span.1.toNat := by
  obtain ⟨piece, listed, rfl⟩ := List.mem_map.mp member
  have lone : Piece (piece.map Prod.fst) := by
    apply Piece.of_mem ((tagged chunks).map Prod.fst)
    rw [← piecesBy_map]
    exact List.mem_map_of_mem listed
  rcases lone.ascii_or_high with ⟨b, single, -⟩ | high
  · have one : piece.length = 1 := by simpa using congrArg List.length single
    obtain ⟨x, rfl⟩ := List.length_eq_one_iff.mp one
    simp [behindCut] at cut
  · exact high.2

end Lightweight.Utf8
