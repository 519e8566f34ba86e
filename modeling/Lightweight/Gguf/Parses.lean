import Lightweight.Gguf.Format

/-! What a reading takes from the file, exactly: it succeeds with a value if and only if the bytes at
the cursor begin with some that a grammar gives the value for, and it stops behind those. -/

namespace Lightweight.Gguf

open Lightweight.Core Lightweight.Fallible Lightweight.Word64

theorem length_toLeBytes (width value : Nat) : (toLeBytes width value).length = width := by
  induction width generalizing value with
  | zero => rfl
  | succ width ih => rw [toLeBytes, List.length_cons, ih]

theorem fromLeBytes_toLeBytes {width value : Nat} (fits : value < 256 ^ width) :
    fromLeBytes (toLeBytes width value) = value := by
  induction width generalizing value with
  | zero =>
      have zero : value = 0 := by simpa using fits
      rw [zero]
      rfl
  | succ width ih =>
      have smaller : value / 256 < 256 ^ width := by
        apply Nat.div_lt_of_lt_mul
        rwa [Nat.pow_succ, Nat.mul_comm] at fits
      rw [toLeBytes, fromLeBytes, ih smaller, UInt8.toNat_ofNat']
      exact Nat.mod_add_div value 256

theorem toLeBytes_fromLeBytes (bytes : List UInt8) :
    toLeBytes bytes.length (fromLeBytes bytes) = bytes := by
  induction bytes with
  | nil => rfl
  | cons byte bytes ih =>
      have size := byte.toNat_lt
      have low : UInt8.ofNat (byte.toNat + 256 * fromLeBytes bytes) = byte := by
        apply UInt8.toNat_inj.mp
        rw [UInt8.toNat_ofNat']
        omega
      have high : (byte.toNat + 256 * fromLeBytes bytes) / 256 = fromLeBytes bytes := by
        omega
      rw [List.length_cons, fromLeBytes, toLeBytes, low, high, ih]

theorem fromLeBytes_lt (bytes : List UInt8) : fromLeBytes bytes < 256 ^ bytes.length := by
  induction bytes with
  | nil => exact Nat.one_pos
  | cons byte bytes ih =>
      have size := byte.toNat_lt
      rw [fromLeBytes, List.length_cons, Nat.pow_succ]
      omega

/-- Bytes of a width are the number that they spell, written. -/
theorem eq_toLeBytes_iff {bytes : List UInt8} {width value : Nat} (fits : value < 256 ^ width) :
    bytes = toLeBytes width value ↔ bytes.length = width ∧ fromLeBytes bytes = value := by
  constructor
  · rintro rfl
    exact ⟨length_toLeBytes width value, fromLeBytes_toLeBytes fits⟩
  · rintro ⟨rfl, rfl⟩
    exact (toLeBytes_fromLeBytes bytes).symm

namespace Cursor

/-- A cursor that has the rest of its file before it. -/
structure Sound (limits : ReadLimits) (cursor : Cursor) : Prop where
  limited : cursor.limits = limits
  placed : cursor.offset.toNat + cursor.inner.length = cursor.fileSize.toNat
  bounded : cursor.fileSize.toNat < 2 ^ 63

/-- The cursor, so many bytes on. -/
def past (cursor : Cursor) (count : Nat) : Cursor :=
  { cursor with
    inner := cursor.inner.drop count
    offset := UInt64.ofNat (cursor.offset.toNat + count) }

variable {limits : ReadLimits} {cursor : Cursor}

theorem toNat_offset_past (sound : cursor.Sound limits) {count : Nat}
    (inside : count ≤ cursor.inner.length) :
    (cursor.past count).offset.toNat = cursor.offset.toNat + count := by
  have placed := sound.placed
  have bounded := sound.bounded
  change (UInt64.ofNat (cursor.offset.toNat + count)).toNat = _
  rw [UInt64.toNat_ofNat']
  apply Nat.mod_eq_of_lt
  omega

theorem Sound.past (sound : cursor.Sound limits) {count : Nat}
    (inside : count ≤ cursor.inner.length) : (cursor.past count).Sound limits := by
  refine ⟨sound.limited, ?_, sound.bounded⟩
  rw [toNat_offset_past sound inside]
  have placed := sound.placed
  change cursor.offset.toNat + count + (cursor.inner.drop count).length = cursor.fileSize.toNat
  rw [List.length_drop]
  omega

theorem past_zero (cursor : Cursor) : cursor.past 0 = cursor := by
  simp [Cursor.past]

theorem past_past (sound : cursor.Sound limits) {first second : Nat}
    (inside : first ≤ cursor.inner.length) :
    (cursor.past first).past second = cursor.past (first + second) := by
  have offset := toNat_offset_past sound inside
  unfold Cursor.past at offset ⊢
  simp only [List.drop_drop, offset, Nat.add_assoc]

theorem toNat_remaining (sound : cursor.Sound limits) :
    cursor.remaining.toNat = cursor.inner.length := by
  have placed := sound.placed
  rw [Cursor.remaining, toNat_saturatingSub]
  omega

end Cursor

/-- The bytes that stand for a value, at an offset. -/
abbrev Grammar (α : Type) : Type := Nat → List UInt8 → α → Prop

variable {limits : ReadLimits} {α β : Type}

/-- What a reading does at one cursor is what the grammar says. -/
def ParsesAt (cursor : Cursor) (m : Reading α) (grammar : Grammar α) : Prop :=
  ∀ value final, m cursor = .ok value final ↔
    ∃ bytes rest, cursor.inner = bytes ++ rest ∧ grammar cursor.offset.toNat bytes value ∧
      final = cursor.past bytes.length

/-- What a reading does at every sound cursor is what the grammar says. -/
structure Parses (limits : ReadLimits) (m : Reading α) (grammar : Grammar α) : Prop where
  parsesAt : ∀ cursor, cursor.Sound limits → ParsesAt cursor m grammar

/-- One grammar behind another. -/
def Grammar.andThen (first : Grammar α) (second : α → Grammar β) : Grammar β :=
  fun offset bytes result => ∃ value before after, bytes = before ++ after ∧
    first offset before value ∧ second value (offset + before.length) after result

/-- No bytes, and a condition. -/
def Grammar.guard (condition : Nat → Prop) : Grammar Unit :=
  fun offset bytes _ => bytes = [] ∧ condition offset

theorem ParsesAt.bind {cursor : Cursor} (sound : cursor.Sound limits) {m : Reading α}
    {next : α → Reading β} {first : Grammar α} {second : α → Grammar β}
    (parses : ParsesAt cursor m first) (parses_next : ∀ value, Parses limits (next value) (second value)) :
    ParsesAt cursor (m >>= next) (first.andThen second) := by
  intro result final
  rw [bind_eq_ok]
  constructor
  · rintro ⟨value, middle, read, read_next⟩
    obtain ⟨before, others, split, spelled, rfl⟩ := (parses value middle).mp read
    have inside : before.length ≤ cursor.inner.length := by
      rw [split, List.length_append]
      omega
    obtain ⟨after, rest, split_next, spelled_next, rfl⟩ :=
      ((parses_next value).parsesAt _ (sound.past inside) result final).mp read_next
    have others_eq : others = after ++ rest := by
      rw [← split_next]
      change others = cursor.inner.drop before.length
      rw [split, List.drop_left]
    rw [Cursor.toNat_offset_past sound inside] at spelled_next
    refine ⟨before ++ after, rest, ?_, ⟨value, before, after, rfl, spelled, spelled_next⟩, ?_⟩
    · rw [split, others_eq, List.append_assoc]
    · rw [Cursor.past_past sound inside, List.length_append]
  · rintro ⟨bytes, rest, split, ⟨value, before, after, rfl, spelled, spelled_next⟩, rfl⟩
    rw [List.append_assoc] at split
    have inside : before.length ≤ cursor.inner.length := by
      rw [split, List.length_append]
      omega
    refine ⟨value, cursor.past before.length,
      (parses value _).mpr ⟨before, after ++ rest, split, spelled, rfl⟩, ?_⟩
    apply ((parses_next value).parsesAt _ (sound.past inside) result _).mpr
    refine ⟨after, rest, ?_, ?_, ?_⟩
    · change cursor.inner.drop before.length = after ++ rest
      rw [split, List.drop_left]
    · rw [Cursor.toNat_offset_past sound inside]
      exact spelled_next
    · rw [Cursor.past_past sound inside, List.length_append]

theorem Parses.bind {m : Reading α} {next : α → Reading β} {first : Grammar α}
    {second : α → Grammar β} (parses : Parses limits m first)
    (parses_next : ∀ value, Parses limits (next value) (second value)) :
    Parses limits (m >>= next) (first.andThen second) :=
  ⟨fun cursor sound => ParsesAt.bind sound (parses.parsesAt cursor sound) parses_next⟩

theorem ParsesAt.congr {cursor : Cursor} {m : Reading α} {grammar other : Grammar α}
    (parses : ParsesAt cursor m grammar)
    (same : ∀ bytes rest value, cursor.inner = bytes ++ rest →
      (grammar cursor.offset.toNat bytes value ↔ other cursor.offset.toNat bytes value)) :
    ParsesAt cursor m other := by
  intro value final
  rw [parses value final]
  constructor
  · rintro ⟨bytes, rest, split, spelled, moved⟩
    exact ⟨bytes, rest, split, (same bytes rest value split).mp spelled, moved⟩
  · rintro ⟨bytes, rest, split, spelled, moved⟩
    exact ⟨bytes, rest, split, (same bytes rest value split).mpr spelled, moved⟩

theorem Parses.congr {m : Reading α} {grammar other : Grammar α} (parses : Parses limits m grammar)
    (same : ∀ offset bytes value, grammar offset bytes value ↔ other offset bytes value) :
    Parses limits m other := by
  constructor
  intro cursor sound value final
  rw [parses.parsesAt cursor sound value final]
  simp only [same]

theorem Parses.pure (value : α) :
    Parses limits (pure value : Reading α) fun _ bytes result => bytes = [] ∧ result = value := by
  constructor
  intro cursor sound result final
  constructor
  · rintro ⟨⟩
    exact ⟨[], cursor.inner, rfl, ⟨rfl, rfl⟩, cursor.past_zero.symm⟩
  · rintro ⟨_, rest, _, ⟨rfl, rfl⟩, rfl⟩
    rw [List.length_nil, cursor.past_zero]
    rfl

theorem Parses.map {m : Reading α} {grammar : Grammar α} (f : α → β)
    (parses : Parses limits m grammar) :
    Parses limits (f <$> m) fun offset bytes result =>
      ∃ value, grammar offset bytes value ∧ result = f value := by
  rw [map_eq_pure_bind]
  apply (parses.bind fun value => Parses.pure (f value)).congr
  intro offset bytes result
  constructor
  · rintro ⟨value, before, _, rfl, spelled, rfl, rfl⟩
    rw [List.append_nil]
    exact ⟨value, spelled, rfl⟩
  · rintro ⟨value, spelled, rfl⟩
    exact ⟨value, bytes, [], (List.append_nil bytes).symm, spelled, rfl, rfl⟩

theorem ParsesAt.refuseIf {cursor : Cursor} {condition : Prop} [Decidable condition]
    (error : GgufError) {allowed : Nat → Prop}
    (same : ¬condition ↔ allowed cursor.offset.toNat) :
    ParsesAt cursor (refuseIf condition error) (Grammar.guard allowed) := by
  intro result final
  rw [refuseIf_eq_ok, same]
  constructor
  · rintro ⟨holds, rfl⟩
    exact ⟨[], final.inner, rfl, ⟨rfl, holds⟩, final.past_zero.symm⟩
  · rintro ⟨_, rest, -, ⟨rfl, holds⟩, rfl⟩
    exact ⟨holds, cursor.past_zero⟩

theorem Parses.refuseIf {condition : Prop} [Decidable condition] (error : GgufError) :
    Parses limits (refuseIf condition error) (Grammar.guard fun _ => ¬condition) :=
  ⟨fun _ _ => ParsesAt.refuseIf error Iff.rfl⟩

theorem Parses.okOr (value : Option α) (error : GgufError) :
    Parses limits (okOr value error) fun _ bytes result => bytes = [] ∧ value = some result := by
  cases value with
  | none =>
      constructor
      intro cursor sound result final
      constructor
      · rintro ⟨⟩
      · rintro ⟨_, _, _, ⟨_, ⟨⟩⟩, _⟩
  | some value =>
      apply (Parses.pure value).congr
      intro offset bytes result
      rw [Option.some.injEq, eq_comm (a := value)]

/-- A reading that looks at its cursor first. -/
theorem Parses.get {body : Cursor → Reading α} {grammar : Grammar α}
    (parses : ∀ cursor, cursor.Sound limits → ParsesAt cursor (body cursor) grammar) :
    Parses limits (get >>= body) grammar :=
  ⟨fun cursor sound => parses cursor sound⟩

theorem need_eq_ok {cursor : Cursor} (sound : cursor.Sound limits) {len : UInt64} {final : Cursor} :
    need len cursor = .ok () final ↔ len.toNat ≤ cursor.inner.length ∧ final = cursor := by
  unfold need
  rw [bind_eq_ok]
  constructor
  · rintro ⟨_, _, ⟨⟩, passed⟩
    obtain ⟨enough, rfl⟩ := refuseIf_eq_ok.mp passed
    rw [UInt64.lt_iff_toNat_lt, Cursor.toNat_remaining sound] at enough
    exact ⟨Nat.not_lt.mp enough, rfl⟩
  · rintro ⟨fits, rfl⟩
    refine ⟨final, final, rfl, refuseIf_eq_ok.mpr ⟨?_, rfl⟩⟩
    rw [UInt64.lt_iff_toNat_lt, Cursor.toNat_remaining sound]
    exact Nat.not_lt.mpr fits

/-- The move that every read ends with. -/
theorem advance_apply {cursor : Cursor} (sound : cursor.Sound limits) {len : UInt64}
    (fits : len.toNat ≤ cursor.inner.length) :
    advance len { cursor with inner := cursor.inner.drop len.toNat } =
      .ok () (cursor.past len.toNat) := by
  have placed := sound.placed
  have bounded := sound.bounded
  have moved : saturatingAdd cursor.offset len = UInt64.ofNat (cursor.offset.toNat + len.toNat) := by
    apply UInt64.toNat_inj.mp
    have wide : UInt64.size = 2 ^ 64 := rfl
    rw [toNat_saturatingAdd, UInt64.toNat_ofNat', Nat.mod_eq_of_lt (by omega)]
    omega
  change EStateM.Result.ok () { cursor with
    inner := cursor.inner.drop len.toNat
    offset := saturatingAdd cursor.offset len } = _
  rw [moved]
  rfl

theorem readExact_eq_ok {cursor final : Cursor} {count : Nat} {value : List UInt8} :
    readExact count cursor = .ok value final ↔
      count ≤ cursor.inner.length ∧ value = cursor.inner.take count ∧
        final = { cursor with inner := cursor.inner.drop count } := by
  unfold readExact
  rw [bind_eq_ok]
  constructor
  · rintro ⟨_, _, ⟨⟩, checked⟩
    obtain ⟨_, _, passed, ⟨⟩⟩ := bind_eq_ok.mp checked
    obtain ⟨enough, rfl⟩ := refuseIf_eq_ok.mp passed
    exact ⟨Nat.not_lt.mp enough, rfl, rfl⟩
  · rintro ⟨enough, rfl, rfl⟩
    have passed : refuseIf (cursor.inner.length < count) (GgufError.read cursor.offset) cursor =
        .ok () cursor := refuseIf_eq_ok.mpr ⟨Nat.not_lt.mpr enough, rfl⟩
    exact ⟨cursor, cursor, rfl, bind_eq_ok.mpr ⟨(), cursor, passed, rfl⟩⟩

theorem parses_readBytes (len : UInt64) :
    Parses limits (readBytes len) fun _ bytes value => bytes.length = len.toNat ∧ value = bytes := by
  constructor
  intro cursor sound value final
  unfold readBytes
  rw [bind_eq_ok]
  constructor
  · rintro ⟨_, middle, needed, read⟩
    obtain ⟨fits, rfl⟩ := (need_eq_ok sound).mp needed
    obtain ⟨buffer, taken, exactly, moved⟩ := bind_eq_ok.mp read
    obtain ⟨-, rfl, rfl⟩ := readExact_eq_ok.mp exactly
    obtain ⟨_, after, advanced, returned⟩ := bind_eq_ok.mp moved
    rw [advance_apply sound fits] at advanced
    cases advanced
    cases returned
    have length : (middle.inner.take len.toNat).length = len.toNat := by
      rw [List.length_take]
      omega
    exact ⟨middle.inner.take len.toNat, middle.inner.drop len.toNat,
      (List.take_append_drop _ _).symm, ⟨length, rfl⟩, by rw [length]⟩
  · rintro ⟨bytes, rest, split, ⟨length, rfl⟩, rfl⟩
    have fits : len.toNat ≤ cursor.inner.length := by
      rw [split, List.length_append]
      omega
    have taken : cursor.inner.take len.toNat = value := by
      rw [split, ← length, List.take_left]
    refine ⟨(), cursor, (need_eq_ok sound).mpr ⟨fits, rfl⟩, ?_⟩
    apply bind_eq_ok.mpr
    refine ⟨value, _, readExact_eq_ok.mpr ⟨fits, taken.symm, rfl⟩, ?_⟩
    apply bind_eq_ok.mpr
    refine ⟨(), _, advance_apply sound fits, ?_⟩
    rw [length]
    rfl

theorem parses_skip (len : UInt64) :
    Parses limits (skip len) fun _ bytes _ => bytes.length = len.toNat := by
  constructor
  intro cursor sound value final
  have placed := sound.placed
  have bounded := sound.bounded
  unfold skip
  rw [bind_eq_ok]
  constructor
  · rintro ⟨_, middle, needed, read⟩
    obtain ⟨fits, rfl⟩ := (need_eq_ok sound).mp needed
    obtain ⟨_, _, ⟨⟩, refused⟩ := bind_eq_ok.mp read
    obtain ⟨_, checked, passed, moved⟩ := bind_eq_ok.mp refused
    obtain ⟨-, rfl⟩ := refuseIf_eq_ok.mp passed
    obtain ⟨_, taken, ⟨⟩, advanced⟩ := bind_eq_ok.mp moved
    rw [advance_apply sound fits] at advanced
    cases advanced
    have length : (checked.inner.take len.toNat).length = len.toNat := by
      rw [List.length_take]
      omega
    exact ⟨checked.inner.take len.toNat, checked.inner.drop len.toNat,
      (List.take_append_drop _ _).symm, length, by rw [length]⟩
  · rintro ⟨bytes, rest, split, length, rfl⟩
    have fits : len.toNat ≤ cursor.inner.length := by
      rw [split, List.length_append]
      omega
    refine ⟨(), cursor, (need_eq_ok sound).mpr ⟨fits, rfl⟩, ?_⟩
    apply bind_eq_ok.mpr
    refine ⟨cursor, cursor, rfl, ?_⟩
    apply bind_eq_ok.mpr
    refine ⟨(), cursor, refuseIf_eq_ok.mpr ⟨by omega, rfl⟩, ?_⟩
    apply bind_eq_ok.mpr
    refine ⟨(), _, rfl, ?_⟩
    rw [advance_apply sound fits, length]

theorem parses_readArray {count : Nat} (small : count < UInt64.size) :
    Parses limits (readArray count) fun _ bytes value => bytes.length = count ∧ value = bytes := by
  have width : (UInt64.ofNat count).toNat = count := by
    rw [UInt64.toNat_ofNat']
    exact Nat.mod_eq_of_lt small
  have same : readArray count = readBytes (UInt64.ofNat count) := by
    rw [readArray, readBytes, width]
  rw [same]
  apply (parses_readBytes _).congr
  intro offset bytes value
  rw [width]

/-- A word of some width, of a type with as many values. -/
theorem parses_word {width : Nat} (small : width < UInt64.size) {ofNat : Nat → α} {toNat : α → Nat}
    (ofNat_toNat : ∀ value, ofNat (toNat value) = value)
    (toNat_ofNat : ∀ n < 256 ^ width, toNat (ofNat n) = n)
    (toNat_lt : ∀ value, toNat value < 256 ^ width) :
    Parses limits (readArray width >>= fun bytes => pure (ofNat (fromLeBytes bytes)))
      fun _ bytes value => bytes = toLeBytes width (toNat value) := by
  apply ((parses_readArray small).bind fun bytes => Parses.pure _).congr
  intro offset bytes value
  rw [eq_toLeBytes_iff (toNat_lt value)]
  constructor
  · rintro ⟨_, before, _, rfl, ⟨length, rfl⟩, rfl, rfl⟩
    rw [List.append_nil]
    refine ⟨length, (toNat_ofNat _ ?_).symm⟩
    rw [← length]
    exact fromLeBytes_lt _
  · rintro ⟨length, same⟩
    refine ⟨bytes, bytes, [], (List.append_nil bytes).symm, ⟨length, rfl⟩, rfl, ?_⟩
    rw [same, ofNat_toNat]

theorem parses_readU8 :
    Parses limits readU8 fun _ bytes value => bytes = toLeBytes 1 value.toNat :=
  parses_word (by decide) (fun _ => UInt8.ofNat_toNat)
    (fun _ fits => UInt8.toNat_ofNat_of_lt fits) UInt8.toNat_lt

theorem parses_readU16 :
    Parses limits readU16 fun _ bytes value => bytes = toLeBytes 2 value.toNat :=
  parses_word (by decide) (fun _ => UInt16.ofNat_toNat)
    (fun _ fits => UInt16.toNat_ofNat_of_lt fits) UInt16.toNat_lt

theorem parses_readU32 :
    Parses limits readU32 fun _ bytes value => bytes = toLeBytes 4 value.toNat :=
  parses_word (by decide) (fun _ => UInt32.ofNat_toNat)
    (fun _ fits => UInt32.toNat_ofNat_of_lt fits) UInt32.toNat_lt

theorem parses_readU64 :
    Parses limits readU64 fun _ bytes value => bytes = toLeBytes 8 value.toNat :=
  parses_word (by decide) (fun _ => UInt64.ofNat_toNat)
    (fun _ fits => UInt64.toNat_ofNat_of_lt fits) UInt64.toNat_lt

theorem parses_checkMetadataBudget :
    Parses limits checkMetadataBudget
      (Grammar.guard fun offset => offset ≤ limits.maxMetadataBytes.toNat) := by
  apply Parses.get
  intro cursor sound
  apply ParsesAt.refuseIf
  rw [UInt64.lt_iff_toNat_lt, Nat.not_lt, sound.limited]

theorem parses_checkStringBytes (len : UInt64) :
    Parses limits (checkStringBytes len)
      (Grammar.guard fun _ => len.toNat ≤ limits.maxStringBytes.toNat) := by
  apply Parses.get
  intro cursor sound
  apply ParsesAt.refuseIf
  rw [UInt64.lt_iff_toNat_lt, Nat.not_lt, sound.limited]

/-- Bytes behind their length, no more of them than a string may have. -/
theorem parses_lengthPrefixed {next : UInt64 → Reading α} {grammar : Grammar α}
    (parses : ∀ len, Parses limits (next len) fun offset bytes value =>
      bytes.length = len.toNat ∧ grammar offset bytes value) :
    Parses limits (readU64 >>= fun len => checkStringBytes len >>= fun _ => next len)
      fun offset bytes value => ∃ body, bytes = encodeBytes body ∧
        body.length ≤ limits.maxStringBytes.toNat ∧ grammar (offset + 8) body value := by
  apply (parses_readU64.bind fun len => (parses_checkStringBytes len).bind fun _ => parses len).congr
  intro offset bytes value
  constructor
  · rintro ⟨len, _, _, rfl, rfl, ⟨_, _, body, rfl, ⟨rfl, short⟩, length, spelled⟩⟩
    rw [List.length_nil, length_toLeBytes, Nat.add_zero] at spelled
    refine ⟨body, ?_, by rwa [length], spelled⟩
    rw [encodeBytes, length, List.nil_append]
  · rintro ⟨body, rfl, short, spelled⟩
    have wide : body.length < UInt64.size := by
      have bound := limits.maxStringBytes.toNat_lt
      have size : UInt64.size = 2 ^ 64 := rfl
      omega
    have length : (UInt64.ofNat body.length).toNat = body.length := UInt64.toNat_ofNat_of_lt wide
    refine ⟨UInt64.ofNat body.length, toLeBytes 8 body.length, body, rfl,
      congrArg (toLeBytes 8) length.symm, (), [], body,
      rfl, ⟨rfl, by rwa [length]⟩, length.symm, ?_⟩
    rw [List.length_nil, length_toLeBytes, Nat.add_zero]
    exact spelled

end Lightweight.Gguf
