import Lightweight.Gguf.Parses

/-! The values of the metadata, read exactly as the format writes them. -/

namespace Lightweight.Gguf

open Lightweight.Core Lightweight.Fallible Lightweight.Word64

variable {limits : ReadLimits}

theorem parses_readString (context : List Char) :
    Parses limits (readString context) fun _ bytes text =>
      bytes = encodeString text ∧ (Utf8.encode text).length ≤ limits.maxStringBytes.toNat := by
  have body : ∀ len, Parses limits
      (get >>= fun cursor => readBytes len >>= fun bytes =>
        okOr (Utf8.fromUtf8 bytes) (.invalidUtf8 context cursor.offset))
      fun _ bytes text => bytes.length = len.toNat ∧ Utf8.fromUtf8 bytes = some text := by
    intro len
    apply Parses.get
    intro cursor sound
    apply (((parses_readBytes len).bind fun bytes => Parses.okOr _ _).congr _).parsesAt cursor sound
    intro offset bytes text
    constructor
    · rintro ⟨_, before, _, rfl, ⟨length, rfl⟩, rfl, decoded⟩
      rw [List.append_nil]
      exact ⟨length, decoded⟩
    · rintro ⟨length, decoded⟩
      exact ⟨bytes, bytes, [], (List.append_nil bytes).symm, ⟨length, rfl⟩, rfl, decoded⟩
  apply (parses_lengthPrefixed body).congr
  intro offset bytes text
  simp only [Utf8.fromUtf8_eq_some]
  constructor
  · rintro ⟨_, rfl, short, rfl⟩
    exact ⟨rfl, short⟩
  · rintro ⟨rfl, short⟩
    exact ⟨_, rfl, short, rfl⟩

/-- One string element, passed over. -/
theorem parses_skipString :
    Parses limits (readU64 >>= fun len => checkStringBytes len >>= fun _ => skip len)
      fun _ bytes _ => ∃ body, bytes = encodeBytes body ∧
        body.length ≤ limits.maxStringBytes.toNat := by
  have body : ∀ len, Parses limits (skip len) fun _ bytes _ => bytes.length = len.toNat ∧ True := by
    intro len
    apply (parses_skip len).congr
    simp
  apply (parses_lengthPrefixed body).congr
  simp

theorem parses_skipStrings (count : Nat) :
    Parses limits (skipStrings count) fun _ bytes _ => ∃ elements : List (List UInt8),
      elements.length = count ∧ (∀ element ∈ elements, element.length ≤ limits.maxStringBytes.toNat) ∧
        bytes = contentsOf .string elements := by
  induction count with
  | zero =>
      apply (Parses.pure ()).congr
      intro offset bytes value
      constructor
      · rintro ⟨rfl, -⟩
        exact ⟨[], rfl, by simp, rfl⟩
      · rintro ⟨elements, none, -, rfl⟩
        rw [List.eq_nil_of_length_eq_zero none]
        exact ⟨rfl, rfl⟩
  | succ count ih =>
      have unrolled : skipStrings (count + 1) =
          (readU64 >>= fun len => checkStringBytes len >>= fun _ => skip len) >>=
            fun _ => skipStrings count := by
        simp only [skipStrings, bind_assoc]
      rw [unrolled]
      apply (parses_skipString.bind fun _ => ih).congr
      intro offset bytes value
      constructor
      · rintro ⟨_, _, _, rfl, ⟨body, rfl, short⟩, ⟨elements, rfl, all_short, rfl⟩⟩
        exact ⟨body :: elements, rfl, List.forall_mem_cons.mpr ⟨short, all_short⟩, rfl⟩
      · rintro ⟨elements, length, all_short, rfl⟩
        cases elements with
        | nil => cases length
        | cons body elements =>
            rw [List.forall_mem_cons] at all_short
            exact ⟨(), encodeBytes body, contentsOf .string elements, rfl, ⟨body, rfl, all_short.1⟩,
              elements, Nat.succ.inj length, all_short.2, rfl⟩


/-- Bytes of so many words of a width are the words. -/
theorem exists_words (width : Nat) {count : Nat} {bytes : List UInt8}
    (length : bytes.length = width * count) :
    ∃ words : List (List UInt8), words.length = count ∧ (∀ word ∈ words, word.length = width) ∧
      words.flatten = bytes := by
  induction count generalizing bytes with
  | zero => exact ⟨[], rfl, by simp, (List.eq_nil_of_length_eq_zero length).symm⟩
  | succ count ih =>
      have rest : (bytes.drop width).length = width * count := by
        rw [List.length_drop, length, Nat.mul_succ]
        omega
      obtain ⟨words, number, widths, joined⟩ := ih rest
      refine ⟨bytes.take width :: words, congrArg (· + 1) number, ?_, ?_⟩
      · rw [List.forall_mem_cons, List.length_take, length, Nat.mul_succ]
        exact ⟨by omega, widths⟩
      · rw [List.flatten_cons, joined, List.take_append_drop]

theorem length_flatten_words {width : Nat} {words : List (List UInt8)}
    (widths : ∀ word ∈ words, word.length = width) :
    words.flatten.length = width * words.length := by
  induction words with
  | nil => simp
  | cons word words ih =>
      rw [List.forall_mem_cons] at widths
      rw [List.flatten_cons, List.length_append, widths.1, ih widths.2, List.length_cons, Nat.mul_succ]
      omega

/-- The contents of an array of a fixed width are its elements, end to end. -/
theorem contentsOf_fixed {elementType : GgufValueType} {width : UInt64}
    (fixed : elementType.fixedWidth = some width) (elements : List (List UInt8)) :
    contentsOf elementType elements = elements.flatten := by
  have same : encodeElement elementType = id := by
    funext element
    cases elementType with
    | string => cases fixed
    | _ => rfl
  rw [contentsOf, same, List.flatMap_id]

theorem length_contentsOf_strings (elements : List (List UInt8)) :
    8 * elements.length ≤ (contentsOf .string elements).length := by
  induction elements with
  | nil => exact Nat.le_refl _
  | cons element elements ih =>
      have unfolded : contentsOf .string (element :: elements) =
          encodeBytes element ++ contentsOf .string elements := rfl
      rw [unfolded, encodeBytes, List.length_append, List.length_append, length_toLeBytes,
        List.length_cons]
      omega

theorem Written.fits_strings {elements : List (List UInt8)} :
    (Written.array .string elements).Fits limits ↔ elements.length < UInt64.size ∧
      ∀ element ∈ elements, element.length ≤ limits.maxStringBytes.toNat := Iff.rfl

theorem Written.fits_fixed {elementType : GgufValueType} (other : elementType ≠ .string)
    {elements : List (List UInt8)} :
    (Written.array elementType elements).Fits limits ↔ elements.length < UInt64.size ∧
      ∃ width, elementType.fixedWidth = some width ∧
        ∀ element ∈ elements, element.length = width.toNat := by
  cases elementType with
  | string => exact absurd rfl other
  | _ => rfl

/-- The grammar of an array's contents. -/
def contentsGrammar (limits : ReadLimits) (elementType : GgufValueType) (len : UInt64) :
    Grammar UInt64 :=
  fun _ bytes byteLen => ∃ elements : List (List UInt8), elements.length = len.toNat ∧
    (Written.array elementType elements).Fits limits ∧ bytes = contentsOf elementType elements ∧
      byteLen = UInt64.ofNat bytes.length

/-- How far the cursor has come from a start. -/
theorem parses_distance (start : UInt64) :
    Parses limits (get >>= fun final => pure (saturatingSub final.offset start) : Reading UInt64)
      fun offset bytes value => bytes = [] ∧ value = saturatingSub (UInt64.ofNat offset) start := by
  apply Parses.get
  intro final sound
  apply ((Parses.pure _).parsesAt final sound).congr
  intro bytes rest value split
  rw [UInt64.ofNat_toNat]

theorem parses_skipElements_string (len : UInt64) :
    Parses limits (skipElements .string len) (contentsGrammar limits .string len) := by
  apply Parses.get
  intro cursor sound
  rw [if_pos rfl]
  have guarded : ParsesAt cursor
      (ensureFits "array elements" (saturatingMul len 8) cursor.remaining cursor.offset)
      (Grammar.guard fun _ => ¬cursor.remaining < saturatingMul len 8) :=
    ParsesAt.refuseIf _ Iff.rfl
  apply (ParsesAt.bind sound guarded fun _ => (parses_skipStrings len.toNat).bind
    fun _ => parses_distance cursor.offset).congr
  intro bytes rest byteLen split
  have placed := sound.placed
  have bounded := sound.bounded
  have inside : bytes.length ≤ cursor.inner.length := by
    rw [split, List.length_append]
    omega
  constructor
  · rintro ⟨_, _, _, rfl, ⟨rfl, -⟩, _, _, _, rfl, ⟨elements, number, short, rfl⟩, rfl, rfl⟩
    rw [List.nil_append, List.append_nil] at inside
    refine ⟨elements, number, Written.fits_strings.mpr ⟨?_, short⟩, by simp, ?_⟩
    · rw [number]
      exact len.toNat_lt
    · apply UInt64.toNat_inj.mp
      rw [toNat_saturatingSub, UInt64.toNat_ofNat', UInt64.toNat_ofNat', List.length_nil,
        List.nil_append, List.append_nil, Nat.mod_eq_of_lt (by omega), Nat.mod_eq_of_lt (by omega)]
      omega
  · rintro ⟨elements, number, fits, rfl, rfl⟩
    have enough := length_contentsOf_strings elements
    refine ⟨(), [], contentsOf .string elements, rfl, ⟨rfl, ?_⟩, (), contentsOf .string elements, [],
      (List.append_nil _).symm, ⟨elements, number, fits.2, rfl⟩, rfl, ?_⟩
    · have eight : (8 : UInt64).toNat = 8 := rfl
      rw [UInt64.lt_iff_toNat_lt, Cursor.toNat_remaining sound, toNat_saturatingMul, eight]
      omega
    · apply UInt64.toNat_inj.mp
      rw [toNat_saturatingSub, UInt64.toNat_ofNat', UInt64.toNat_ofNat', List.length_nil,
        Nat.mod_eq_of_lt (by omega), Nat.mod_eq_of_lt (by omega)]
      omega

theorem parses_skipElements_fixed {elementType : GgufValueType} (other : elementType ≠ .string)
    (len : UInt64) :
    Parses limits (skipElements elementType len) (contentsGrammar limits elementType len) := by
  apply Parses.get
  intro cursor sound
  rw [if_neg other]
  apply (((Parses.okOr _ _).bind fun byteLen => (parses_skip byteLen).bind
    fun _ => Parses.pure byteLen).parsesAt cursor sound).congr
  intro bytes rest byteLen split
  have placed := sound.placed
  have bounded := sound.bounded
  have inside : bytes.length ≤ cursor.inner.length := by
    rw [split, List.length_append]
    omega
  constructor
  · rintro ⟨_, _, _, rfl, ⟨rfl, told⟩, _, _, _, rfl, length, rfl, rfl⟩
    obtain ⟨width, fixed, product⟩ := Option.bind_eq_some_iff.mp told
    rw [checkedMul_eq_some product] at length
    obtain ⟨elements, number, widths, joined⟩ := exists_words width.toNat length
    refine ⟨elements, number, (Written.fits_fixed other).mpr ⟨?_, width, fixed, widths⟩, ?_, ?_⟩
    · rw [number]
      exact len.toNat_lt
    · rw [contentsOf_fixed fixed, joined, List.nil_append, List.append_nil]
    · apply UInt64.toNat_inj.mp
      rw [List.nil_append, List.append_nil, length, ← checkedMul_eq_some product, UInt64.ofNat_toNat]
  · rintro ⟨elements, number, fits, rfl, rfl⟩
    obtain ⟨-, width, fixed, widths⟩ := (Written.fits_fixed other).mp fits
    have length : (contentsOf elementType elements).length = width.toNat * len.toNat := by
      rw [contentsOf_fixed fixed, length_flatten_words widths, number]
    have byteLen : (UInt64.ofNat (contentsOf elementType elements).length).toNat =
        (contentsOf elementType elements).length := by
      rw [UInt64.toNat_ofNat', Nat.mod_eq_of_lt (by omega)]
    have told : fixedArrayByteLen elementType len =
        some (UInt64.ofNat (contentsOf elementType elements).length) := by
      rw [fixedArrayByteLen, fixed, Option.bind_some, checkedMul_of_toNat]
      rw [byteLen, length]
    exact ⟨_, [], _, rfl, ⟨rfl, told⟩, (), _, [], (List.append_nil _).symm, byteLen.symm, rfl, rfl⟩

theorem parses_skipElements (elementType : GgufValueType) (len : UInt64) :
    Parses limits (skipElements elementType len) (contentsGrammar limits elementType len) := by
  by_cases strings : elementType = .string
  · rw [strings]
    exact parses_skipElements_string len
  · exact parses_skipElements_fixed strings len

theorem fromTag_eq_some {tag : UInt32} {valueType : GgufValueType} :
    GgufValueType.fromTag tag = some valueType ↔ tag = valueType.tag := by
  constructor
  · unfold GgufValueType.fromTag
    split <;> rintro ⟨⟩ <;> rfl
  · rintro rfl
    cases valueType <;> rfl

theorem parses_readValueType (key : List Char) :
    Parses limits (readValueType key) fun _ bytes valueType =>
      bytes = toLeBytes 4 valueType.tag.toNat := by
  apply Parses.get
  intro cursor sound
  apply ((parses_readU32.bind fun tag => Parses.okOr _ _).congr _).parsesAt cursor sound
  intro offset bytes valueType
  constructor
  · rintro ⟨tag, _, _, rfl, rfl, rfl, known⟩
    rw [List.append_nil, fromTag_eq_some.mp known]
  · rintro rfl
    exact ⟨valueType.tag, _, [], (List.append_nil _).symm, rfl, rfl, fromTag_eq_some.mpr rfl⟩

/-- No array is an element of one. -/
theorem Written.Fits.flat {elements : List (List UInt8)} :
    ¬(Written.array .array elements).Fits limits := by
  rintro ⟨-, _, ⟨⟩, -⟩

/-- The summary that array contents at an offset get. -/
theorem parses_contents (elementType : GgufValueType) (len : UInt64) :
    Parses limits
      (get >>= fun start => skipElements elementType len >>= fun byteLen =>
        pure (ArraySummary.mk elementType len start.offset byteLen))
      fun offset bytes summary => ∃ elements : List (List UInt8), elements.length = len.toNat ∧
        (Written.array elementType elements).Fits limits ∧ bytes = contentsOf elementType elements ∧
        summary = ⟨elementType, len, UInt64.ofNat offset, UInt64.ofNat bytes.length⟩ := by
  apply Parses.get
  intro start sound
  apply (((parses_skipElements elementType len).bind fun _ => Parses.pure _).parsesAt start sound).congr
  intro bytes rest summary split
  rw [UInt64.ofNat_toNat]
  constructor
  · rintro ⟨byteLen, _, _, rfl, ⟨elements, number, fits, rfl, rfl⟩, rfl, rfl⟩
    rw [List.append_nil]
    exact ⟨elements, number, fits, rfl, rfl⟩
  · rintro ⟨elements, number, fits, rfl, rfl⟩
    exact ⟨_, _, [], (List.append_nil _).symm, ⟨elements, number, fits, rfl, rfl⟩, rfl, rfl⟩

theorem Written.Fits.number {elementType : GgufValueType} {elements : List (List UInt8)}
    (fits : (Written.array elementType elements).Fits limits) : elements.length < UInt64.size := by
  by_cases strings : elementType = .string
  · subst strings
    exact fits.1
  · exact ((Written.fits_fixed strings).mp fits).1

/-- What an array is read as, at the offset of the type of its elements. -/
theorem parses_readArraySummary (key : List Char) :
    Parses limits (readArraySummary key) fun offset bytes summary =>
      ∃ elementType elements, (Written.array elementType elements).Fits limits ∧
        bytes = (Written.array elementType elements).encode ∧
        .array summary = (Written.array elementType elements).value offset := by
  apply Parses.get
  intro cursor sound
  apply (((parses_readValueType key).bind fun elementType => (Parses.refuseIf _).bind fun _ =>
    parses_readU64.bind fun len => parses_contents elementType len).congr _).parsesAt cursor sound
  intro offset bytes summary
  constructor
  · rintro ⟨elementType, _, _, rfl, rfl, _, _, _, rfl, ⟨rfl, -⟩, len, _, _, rfl, rfl,
      elements, number, fits, rfl, rfl⟩
    refine ⟨elementType, elements, fits, ?_, ?_⟩
    · rw [Written.encode, arrayHead, number, List.nil_append, List.append_assoc]
    · rw [Written.value, number, UInt64.ofNat_toNat, length_toLeBytes, length_toLeBytes,
        List.length_nil]
  · rintro ⟨elementType, elements, fits, rfl, told⟩
    have number : (UInt64.ofNat elements.length).toNat = elements.length :=
      UInt64.toNat_ofNat_of_lt fits.number
    have flat : ¬elementType = .array := by
      rintro rfl
      exact Written.Fits.flat fits
    refine ⟨elementType, toLeBytes 4 elementType.tag.toNat,
      toLeBytes 8 elements.length ++ contentsOf elementType elements, ?_, rfl, (), [], _, rfl,
      ⟨rfl, flat⟩, UInt64.ofNat elements.length, toLeBytes 8 elements.length,
      contentsOf elementType elements, rfl, congrArg (toLeBytes 8) number.symm, elements,
      number.symm, fits, rfl, ?_⟩
    · rw [Written.encode, arrayHead, List.append_assoc]
    · rw [length_toLeBytes, length_toLeBytes, List.length_nil]
      exact GgufValue.array.inj told

theorem Written.spells_plain {value : GgufValue} (other : value.valueType ≠ .bool)
    {bytes : List UInt8} : (Written.plain value).Spells bytes ↔ bytes = value.encode := by
  constructor
  · rintro (same | ⟨⟨⟩, -⟩)
    · exact same
    · exact absurd rfl other
  · exact Or.inl

/-- The bytes that a value of a type is read from. -/
def valueGrammar (limits : ReadLimits) (valueType : GgufValueType) : Grammar GgufValue :=
  fun offset bytes value => ∃ written : Written, written.valueType = valueType ∧
    written.Fits limits ∧ written.Spells bytes ∧ value = written.value offset

/-- A type that is no array is read from the bytes that its values are written in. -/
theorem parses_plain {α : Type} {valueType : GgufValueType} (flat : valueType ≠ .array)
    (make : α → GgufValue) {m : Reading α} {grammar : Grammar α} (parses : Parses limits m grammar)
    (typed : ∀ read, (make read).valueType = valueType)
    (same : ∀ offset bytes value, value.valueType = valueType →
      ((Written.plain value).Fits limits ∧ (Written.plain value).Spells bytes ↔
        ∃ read, grammar offset bytes read ∧ value = make read)) :
    Parses limits (make <$> m) (valueGrammar limits valueType) := by
  apply (parses.map make).congr
  intro offset bytes value
  constructor
  · rintro ⟨read, spelled, rfl⟩
    obtain ⟨fits, spells⟩ := (same offset bytes _ (typed read)).mpr ⟨read, spelled, rfl⟩
    exact ⟨.plain (make read), typed read, fits, spells, rfl⟩
  · rintro ⟨written, type, fits, spells, rfl⟩
    cases written with
    | plain value => exact (same offset bytes value type).mp ⟨fits, spells⟩
    | array elementType elements => exact absurd type.symm flat

/-- The same for a type that has one encoding for each value and no limit. -/
theorem parses_word_value {α : Type} {valueType : GgufValueType} (flat : valueType ≠ .array)
    (other : valueType ≠ .bool) (make : α → GgufValue) {m : Reading α}
    (parses : Parses limits m fun _ bytes read => bytes = (make read).encode)
    (typed : ∀ read, (make read).valueType = valueType)
    (fits : ∀ read, (Written.plain (make read)).Fits limits)
    (onto : ∀ value, value.valueType = valueType → ∃ read, value = make read) :
    Parses limits (make <$> m) (valueGrammar limits valueType) := by
  apply parses_plain flat make parses typed
  intro offset bytes value type
  rw [Written.spells_plain (by rwa [type])]
  constructor
  · rintro ⟨-, rfl⟩
    obtain ⟨read, rfl⟩ := onto value type
    exact ⟨read, rfl, rfl⟩
  · rintro ⟨read, rfl, rfl⟩
    exact ⟨fits read, rfl⟩

theorem toLeBytes_byte (byte : UInt8) : toLeBytes 1 byte.toNat = [byte] := by
  rw [toLeBytes, UInt8.ofNat_toNat, toLeBytes]

/-- Any byte but 0 is read as `true`. -/
theorem Written.spells_bool {value : Bool} {bytes : List UInt8} :
    (Written.plain (.bool value)).Spells bytes ↔ ∃ byte, bytes = [byte] ∧ value = (byte != 0) := by
  cases value with
  | false =>
      constructor
      · rintro (rfl | ⟨⟨⟩, -⟩)
        exact ⟨0, rfl, rfl⟩
      · rintro ⟨byte, rfl, zero⟩
        have zero : byte = 0 := by simpa using zero.symm
        exact Or.inl (by rw [zero]; rfl)
  | true =>
      constructor
      · rintro (rfl | ⟨-, byte, positive, rfl⟩)
        · exact ⟨1, rfl, rfl⟩
        · exact ⟨byte, rfl, (bne_iff_ne.mpr positive).symm⟩
      · rintro ⟨byte, rfl, positive⟩
        exact Or.inr ⟨rfl, byte, bne_iff_ne.mp positive.symm, rfl⟩

theorem parses_readValue_bool (key : List Char) :
    Parses limits (readValue key .bool) (valueGrammar limits .bool) := by
  apply parses_plain (by decide) (fun byte => .bool (byte != 0)) parses_readU8 (fun _ => rfl)
  intro offset bytes value type
  cases value with
  | bool value =>
      simp only [toLeBytes_byte, Written.spells_bool, GgufValue.bool.injEq]
      exact and_iff_right trivial
  | _ => cases type

theorem parses_readValue_string (key : List Char) :
    Parses limits (readValue key .string) (valueGrammar limits .string) := by
  apply parses_plain (by decide) .string (parses_readString key) (fun _ => rfl)
  intro offset bytes value type
  cases value with
  | string text =>
      have other : (GgufValue.string text).valueType ≠ .bool := nofun
      rw [Written.spells_plain other]
      constructor
      · rintro ⟨fits, rfl⟩
        exact ⟨text, ⟨rfl, fits⟩, rfl⟩
      · rintro ⟨_, ⟨rfl, fits⟩, ⟨⟩⟩
        exact ⟨fits, rfl⟩
  | _ => cases type

theorem parses_readValue_array (key : List Char) :
    Parses limits (readValue key .array) (valueGrammar limits .array) := by
  apply ((parses_readArraySummary key).map GgufValue.array).congr
  intro offset bytes value
  constructor
  · rintro ⟨summary, ⟨elementType, elements, fits, rfl, told⟩, rfl⟩
    exact ⟨.array elementType elements, rfl, fits, Or.inl rfl, told⟩
  · rintro ⟨written, type, fits, spells, rfl⟩
    cases written with
    | plain value =>
        cases value with
        | array summary => cases fits
        | _ => cases type
    | array elementType elements =>
        rcases spells with rfl | ⟨⟨⟩, -⟩
        exact ⟨_, ⟨elementType, elements, fits, rfl, rfl⟩, rfl⟩

theorem parses_readValue (key : List Char) (valueType : GgufValueType) :
    Parses limits (readValue key valueType) (valueGrammar limits valueType) := by
  cases valueType with
  | u8 =>
      apply parses_word_value (by decide) (by decide) .u8 parses_readU8 (fun _ => rfl) fun _ => trivial
      intro value type
      cases value with
      | u8 value => exact ⟨value, rfl⟩
      | _ => cases type
  | i8 =>
      apply parses_word_value (by decide) (by decide) (fun value => .i8 value.toInt8)
        (parses_readU8.congr fun _ _ _ => Iff.rfl) (fun _ => rfl) fun _ => trivial
      intro value type
      cases value with
      | i8 value => exact ⟨value.toUInt8, rfl⟩
      | _ => cases type
  | u16 =>
      apply parses_word_value (by decide) (by decide) .u16 parses_readU16 (fun _ => rfl) fun _ => trivial
      intro value type
      cases value with
      | u16 value => exact ⟨value, rfl⟩
      | _ => cases type
  | i16 =>
      apply parses_word_value (by decide) (by decide) (fun value => .i16 value.toInt16)
        (parses_readU16.congr fun _ _ _ => Iff.rfl) (fun _ => rfl) fun _ => trivial
      intro value type
      cases value with
      | i16 value => exact ⟨value.toUInt16, rfl⟩
      | _ => cases type
  | u32 =>
      apply parses_word_value (by decide) (by decide) .u32 parses_readU32 (fun _ => rfl) fun _ => trivial
      intro value type
      cases value with
      | u32 value => exact ⟨value, rfl⟩
      | _ => cases type
  | i32 =>
      apply parses_word_value (by decide) (by decide) (fun value => .i32 value.toInt32)
        (parses_readU32.congr fun _ _ _ => Iff.rfl) (fun _ => rfl) fun _ => trivial
      intro value type
      cases value with
      | i32 value => exact ⟨value.toUInt32, rfl⟩
      | _ => cases type
  | u64 =>
      apply parses_word_value (by decide) (by decide) .u64 parses_readU64 (fun _ => rfl) fun _ => trivial
      intro value type
      cases value with
      | u64 value => exact ⟨value, rfl⟩
      | _ => cases type
  | i64 =>
      apply parses_word_value (by decide) (by decide) (fun value => .i64 value.toInt64)
        (parses_readU64.congr fun _ _ _ => Iff.rfl) (fun _ => rfl) fun _ => trivial
      intro value type
      cases value with
      | i64 value => exact ⟨value.toUInt64, rfl⟩
      | _ => cases type
  | f32 =>
      apply parses_word_value (by decide) (by decide) .f32 parses_readU32 (fun _ => rfl) fun _ => trivial
      intro value type
      cases value with
      | f32 bits => exact ⟨bits, rfl⟩
      | _ => cases type
  | f64 =>
      apply parses_word_value (by decide) (by decide) .f64 parses_readU64 (fun _ => rfl) fun _ => trivial
      intro value type
      cases value with
      | f64 bits => exact ⟨bits, rfl⟩
      | _ => cases type
  | bool => exact parses_readValue_bool key
  | string => exact parses_readValue_string key
  | array => exact parses_readValue_array key

/-- A key and its value. -/
theorem parses_readKv :
    Parses limits readKv fun offset bytes read => ∃ entry : Entry, entry.Fits limits ∧
      entry.Spells bytes ∧ read = (entry.key, entry.written.value (offset + entry.head.length)) := by
  apply ((parses_readString _).bind fun key => (parses_readValueType key).bind fun valueType =>
    (parses_readValue key valueType).bind fun value => Parses.pure (key, value)).congr
  intro offset bytes read
  constructor
  · rintro ⟨key, _, _, rfl, ⟨rfl, short⟩, _, _, _, rfl, rfl, _, value, _, rfl,
      ⟨written, rfl, fits, spells, rfl⟩, rfl, rfl⟩
    refine ⟨⟨key, written⟩, ⟨short, fits⟩, ⟨value, ?_, spells⟩, ?_⟩
    · rw [List.append_nil, Entry.head, List.append_assoc]
    · rw [Entry.head, List.length_append, Nat.add_assoc]
  · rintro ⟨entry, ⟨short, fits⟩, ⟨value, rfl, spells⟩, rfl⟩
    refine ⟨entry.key, encodeString entry.key, _, ?_, ⟨rfl, short⟩, entry.written.valueType,
      toLeBytes 4 entry.written.valueType.tag.toNat, value, rfl, rfl, _, value, [],
      (List.append_nil value).symm, ⟨entry.written, rfl, fits, spells, rfl⟩, rfl, ?_⟩
    · rw [Entry.head, List.append_assoc]
    · rw [Entry.head, List.length_append, Nat.add_assoc]

end Lightweight.Gguf
