import Lightweight.Gguf.RoundTrip

/-! The elements of an array, read from the file once its header has been accepted
(`read_u64_array`), against the values they would have as scalars. -/

namespace Lightweight.Gguf

open Lightweight.Core Lightweight.Fallible Lightweight.Word64

def GgufValue.asArray : GgufValue → Option ArraySummary
  | .array summary => some summary
  | _ => none

def GgufFile.getU64 (file : GgufFile) (key : List Char) : Option UInt64 :=
  (file.metadata.get? key).bind GgufValue.asU64

def GgufFile.getArray (file : GgufFile) (key : List Char) : Option ArraySummary :=
  (file.metadata.get? key).bind GgufValue.asArray

/-- Up to eight bytes as an unsigned number, filled up with zeros. -/
def decodeUnsigned (bytes : List UInt8) : UInt64 :=
  UInt64.ofNat (fromLeBytes (bytes.take 8 ++ List.replicate (8 - bytes.length) 0))

/-- The loop of `read_u64_array`: so many elements from one index on, with what is left of the file. -/
def readElements (summary : ArraySummary) (width : UInt64) :
    Nat → Nat → List UInt8 → Except GgufError (List UInt64)
  | 0, _, _ => .ok []
  | count + 1, index, rest =>
      if 8 < width then .error (.truncated summary.offset width 8)
      else if rest.length < width.toNat then
        .error (.read (saturatingAdd summary.offset (saturatingMul (UInt64.ofNat index) width)))
      else do
        let elements ← readElements summary width count (index + 1) (rest.drop width.toNat)
        pure (decodeUnsigned (rest.take width.toNat) :: elements)

/-- The unsigned numbers under a key of the file: of an array its elements, a scalar as one. -/
def readU64Array (contents : Contents) (file : GgufFile) (key : List Char) :
    Except GgufError (Option (List UInt64)) :=
  match file.getArray key with
  | none => .ok ((file.getU64 key).map fun value => [value])
  | some summary =>
      match summary.elementType.fixedWidth with
      | none => .ok none
      | some width =>
          some <$> readElements summary width summary.len.toNat 0
            (contents.bytes.drop summary.offset.toNat)

/-- An element read like any other value of its type. -/
def readScalar (elementType : GgufValueType) (element : List UInt8) : Except GgufError GgufValue :=
  outcome (readValue [] elementType)
    { inner := element
      offset := 0
      fileSize := UInt64.ofNat element.length
      limits := .default }

/-- The bytes of each element of an array. -/
def ArraySummary.elements (summary : ArraySummary) (contents : Contents) (width : Nat) :
    List (List UInt8) :=
  (List.range summary.len.toNat).map fun index =>
    (contents.bytes.drop (summary.offset.toNat + index * width)).take width

/-- What is read of an array is what its elements are as scalars, or nothing if one is no number. -/
def ReadsAsScalars (contents : Contents) (file : GgufFile) (key : List Char) (summary : ArraySummary)
    (width : Nat) : Prop :=
  ∃ scalars, (summary.elements contents width).mapM (readScalar summary.elementType) = .ok scalars ∧
    readU64Array contents file key = .ok (scalars.mapM GgufValue.asU64)

/-- The element is of an integer type, and not negative: its highest bit is the sign. -/
def IsUnsigned (elementType : GgufValueType) (element : List UInt8) : Prop :=
  match elementType with
  | .u8 | .u16 | .u32 | .u64 => True
  | .i8 | .i16 | .i32 | .i64 => 2 * fromLeBytes element < 256 ^ element.length
  | _ => False

instance (elementType : GgufValueType) (element : List UInt8) :
    Decidable (IsUnsigned elementType element) := by
  unfold IsUnsigned
  split <;> infer_instance

/-! ### One element -/

section Element

variable {elementType : GgufValueType} {width : UInt64} {element : List UInt8}

theorem fromLeBytes_append_zeros (bytes : List UInt8) (count : Nat) :
    fromLeBytes (bytes ++ List.replicate count 0) = fromLeBytes bytes := by
  induction bytes with
  | nil =>
      induction count with
      | zero => rfl
      | succ count ih =>
          rw [List.nil_append] at ih ⊢
          change 0 + 256 * fromLeBytes (List.replicate count 0) = fromLeBytes []
          rw [ih]
          rfl
  | cons byte bytes ih => rw [List.cons_append, fromLeBytes, fromLeBytes, ih]

theorem decodeUnsigned_eq {bytes : List UInt8} (short : bytes.length ≤ 8) :
    decodeUnsigned bytes = UInt64.ofNat (fromLeBytes bytes) := by
  rw [decodeUnsigned, List.take_of_length_le short, fromLeBytes_append_zeros]

/-- An element that spells a value is read as that value. -/
theorem readScalar_eq_ok {value : GgufValue} (type : value.valueType = elementType)
    (fits : (Written.plain value).Fits .default) (spells : (Written.plain value).Spells element)
    (short : element.length ≤ 8) : readScalar elementType element = .ok value := by
  have size : (UInt64.ofNat element.length).toNat = element.length :=
    UInt64.toNat_ofNat_of_lt (lt_of_le_of_lt short (by decide))
  have sound : Cursor.Sound .default
      { inner := element, offset := 0, fileSize := UInt64.ofNat element.length, limits := .default } := by
    refine ⟨rfl, ?_, ?_⟩
    · rw [size, UInt64.toNat_zero, Nat.zero_add]
    · rw [size]
      exact lt_of_le_of_lt short (by decide)
  apply outcome_eq_ok.mpr
  refine ⟨_, ((parses_readValue [] elementType).parsesAt _ sound value _).mpr
    ⟨element, [], (List.append_nil _).symm, ⟨.plain value, type, fits, spells, rfl⟩, rfl⟩⟩

/-- The same for values that are written as the number that they are made of. -/
theorem readScalar_word {count : Nat} (make : Nat → GgufValue) (length : element.length = count)
    (short : count ≤ 8) (type : ∀ n, (make n).valueType = elementType)
    (fits : ∀ n, (Written.plain (make n)).Fits .default)
    (encode : ∀ n < 256 ^ count, (make n).encode = toLeBytes count n) :
    readScalar elementType element = .ok (make (fromLeBytes element)) := by
  have bound := fromLeBytes_lt element
  have spelled := toLeBytes_fromLeBytes element
  rw [length] at bound spelled
  apply readScalar_eq_ok (type _) (fits _) (Or.inl _) (length.trans_le short)
  rw [Written.encode, encode _ bound, spelled]

/-- A number in two's complement is unsigned below the sign bit. -/
theorem unsigned_toInt {bits n : Nat} {word : BitVec bits} (same : word.toNat = n) :
    (2 * n < 2 ^ bits → unsigned word.toInt = some (UInt64.ofNat n)) ∧
      (¬2 * n < 2 ^ bits → unsigned word.toInt = none) := by
  have read := BitVec.toInt_eq_toNat_cond word
  have bound := word.isLt
  rw [same] at read bound
  have bound : (n : Int) < 2 ^ bits := by exact_mod_cast bound
  rw [unsigned]
  constructor
  · intro small
    rw [if_pos small] at read
    rw [read, if_pos (Int.natCast_nonneg n), Int.toNat_natCast]
  · intro large
    rw [if_neg large] at read
    rw [read, if_neg (by omega)]

theorem fixedWidth_le (fixed : elementType.fixedWidth = some width) : width.toNat ≤ 8 := by
  cases elementType with
  | string => cases fixed
  | array => cases fixed
  | _ =>
      cases fixed
      decide

/-- What an element is as a scalar: the number it spells, if it is of an integer type and not
negative. -/
theorem readScalar_spec (fixed : elementType.fixedWidth = some width)
    (length : element.length = width.toNat) :
    ∃ scalar, readScalar elementType element = .ok scalar ∧
      (IsUnsigned elementType element → scalar.asU64 = some (decodeUnsigned element)) ∧
      (¬IsUnsigned elementType element → scalar.asU64 = none) := by
  have bound := fromLeBytes_lt element
  rw [decodeUnsigned_eq (length.trans_le (fixedWidth_le fixed))]
  cases elementType with
  | u8 =>
      cases fixed
      rw [length] at bound
      have same : (UInt8.ofNat (fromLeBytes element)).toNat = fromLeBytes element :=
        UInt8.toNat_ofNat_of_lt bound
      have read := readScalar_word (fun n => .u8 (UInt8.ofNat n)) length (by decide) (fun _ => rfl)
        (fun _ => trivial) fun n few => congrArg (toLeBytes 1) (UInt8.toNat_ofNat_of_lt few)
      refine ⟨_, read, fun _ => ?_, fun signed => absurd trivial signed⟩
      have wide := UInt64.toNat_ofNat_of_lt (lt_of_lt_of_le bound (by decide))
      exact congrArg some (UInt64.toNat_inj.mp (same.trans wide.symm))
  | u16 =>
      cases fixed
      rw [length] at bound
      have same : (UInt16.ofNat (fromLeBytes element)).toNat = fromLeBytes element :=
        UInt16.toNat_ofNat_of_lt bound
      have read := readScalar_word (fun n => .u16 (UInt16.ofNat n)) length (by decide) (fun _ => rfl)
        (fun _ => trivial) fun n few => congrArg (toLeBytes 2) (UInt16.toNat_ofNat_of_lt few)
      refine ⟨_, read, fun _ => ?_, fun signed => absurd trivial signed⟩
      have wide := UInt64.toNat_ofNat_of_lt (lt_of_lt_of_le bound (by decide))
      exact congrArg some (UInt64.toNat_inj.mp (same.trans wide.symm))
  | u32 =>
      cases fixed
      rw [length] at bound
      have same : (UInt32.ofNat (fromLeBytes element)).toNat = fromLeBytes element :=
        UInt32.toNat_ofNat_of_lt bound
      have read := readScalar_word (fun n => .u32 (UInt32.ofNat n)) length (by decide) (fun _ => rfl)
        (fun _ => trivial) fun n few => congrArg (toLeBytes 4) (UInt32.toNat_ofNat_of_lt few)
      refine ⟨_, read, fun _ => ?_, fun signed => absurd trivial signed⟩
      have wide := UInt64.toNat_ofNat_of_lt (lt_of_lt_of_le bound (by decide))
      exact congrArg some (UInt64.toNat_inj.mp (same.trans wide.symm))
  | u64 =>
      cases fixed
      rw [length] at bound
      have same : (UInt64.ofNat (fromLeBytes element)).toNat = fromLeBytes element :=
        UInt64.toNat_ofNat_of_lt bound
      have read := readScalar_word (fun n => .u64 (UInt64.ofNat n)) length (by decide) (fun _ => rfl)
        (fun _ => trivial) fun n few => congrArg (toLeBytes 8) (UInt64.toNat_ofNat_of_lt few)
      refine ⟨_, read, fun _ => ?_, fun signed => absurd trivial signed⟩
      have wide := UInt64.toNat_ofNat_of_lt (lt_of_lt_of_le bound (by decide))
      exact congrArg some (UInt64.toNat_inj.mp (same.trans wide.symm))
  | i8 =>
      cases fixed
      rw [length] at bound
      have signBit : IsUnsigned .i8 element ↔ 2 * fromLeBytes element < 2 ^ 8 := by
        rw [IsUnsigned, length]
        rfl
      have same : (UInt8.ofNat (fromLeBytes element)).toNat = fromLeBytes element :=
        UInt8.toNat_ofNat_of_lt bound
      have read := readScalar_word (fun n => .i8 (UInt8.ofNat n).toInt8) length (by decide)
        (fun _ => rfl) (fun _ => trivial)
        fun n few => congrArg (toLeBytes 1) (UInt8.toNat_ofNat_of_lt few)
      have read_unsigned := unsigned_toInt same
      rw [← signBit] at read_unsigned
      exact ⟨_, read, read_unsigned⟩
  | i16 =>
      cases fixed
      rw [length] at bound
      have signBit : IsUnsigned .i16 element ↔ 2 * fromLeBytes element < 2 ^ 16 := by
        rw [IsUnsigned, length]
        rfl
      have same : (UInt16.ofNat (fromLeBytes element)).toNat = fromLeBytes element :=
        UInt16.toNat_ofNat_of_lt bound
      have read := readScalar_word (fun n => .i16 (UInt16.ofNat n).toInt16) length (by decide)
        (fun _ => rfl) (fun _ => trivial)
        fun n few => congrArg (toLeBytes 2) (UInt16.toNat_ofNat_of_lt few)
      have read_unsigned := unsigned_toInt same
      rw [← signBit] at read_unsigned
      exact ⟨_, read, read_unsigned⟩
  | i32 =>
      cases fixed
      rw [length] at bound
      have signBit : IsUnsigned .i32 element ↔ 2 * fromLeBytes element < 2 ^ 32 := by
        rw [IsUnsigned, length]
        rfl
      have same : (UInt32.ofNat (fromLeBytes element)).toNat = fromLeBytes element :=
        UInt32.toNat_ofNat_of_lt bound
      have read := readScalar_word (fun n => .i32 (UInt32.ofNat n).toInt32) length (by decide)
        (fun _ => rfl) (fun _ => trivial)
        fun n few => congrArg (toLeBytes 4) (UInt32.toNat_ofNat_of_lt few)
      have read_unsigned := unsigned_toInt same
      rw [← signBit] at read_unsigned
      exact ⟨_, read, read_unsigned⟩
  | i64 =>
      cases fixed
      rw [length] at bound
      have signBit : IsUnsigned .i64 element ↔ 2 * fromLeBytes element < 2 ^ 64 := by
        rw [IsUnsigned, length]
        rfl
      have same : (UInt64.ofNat (fromLeBytes element)).toNat = fromLeBytes element :=
        UInt64.toNat_ofNat_of_lt bound
      have read := readScalar_word (fun n => .i64 (UInt64.ofNat n).toInt64) length (by decide)
        (fun _ => rfl) (fun _ => trivial)
        fun n few => congrArg (toLeBytes 8) (UInt64.toNat_ofNat_of_lt few)
      have read_unsigned := unsigned_toInt same
      rw [← signBit] at read_unsigned
      exact ⟨_, read, read_unsigned⟩
  | f32 =>
      cases fixed
      have read := readScalar_word (fun n => .f32 (UInt32.ofNat n)) length (by decide) (fun _ => rfl)
        (fun _ => trivial) fun n few => congrArg (toLeBytes 4) (UInt32.toNat_ofNat_of_lt few)
      exact ⟨_, read, False.elim, fun _ => rfl⟩
  | f64 =>
      cases fixed
      have read := readScalar_word (fun n => .f64 (UInt64.ofNat n)) length (by decide) (fun _ => rfl)
        (fun _ => trivial) fun n few => congrArg (toLeBytes 8) (UInt64.toNat_ofNat_of_lt few)
      exact ⟨_, read, False.elim, fun _ => rfl⟩
  | bool =>
      cases fixed
      obtain ⟨byte, rfl⟩ := List.length_eq_one_iff.mp length
      have spelled : (Written.plain (.bool (byte != 0))).Spells [byte] :=
        Written.spells_bool.mpr ⟨byte, rfl, rfl⟩
      have read : readScalar .bool [byte] = .ok (.bool (byte != 0)) :=
        readScalar_eq_ok rfl trivial spelled (length.trans_le (by decide))
      exact ⟨_, read, False.elim, fun _ => rfl⟩
  | string => cases fixed
  | array => cases fixed

end Element

/-! ### The place of an array -/

section Place

variable {limits : ReadLimits} {summary : ArraySummary} {key : List Char} {width : UInt64}

/-- What is inserted last stays, of the rest nothing is new. -/
theorem mem_foldl_insert {metadata placed : Metadata} {entry : List Char × GgufValue}
    (member : entry ∈ placed.foldl (fun (metadata : Metadata) entry =>
      metadata.insert entry.1 entry.2) metadata) : entry ∈ metadata ∨ entry ∈ placed := by
  induction placed generalizing metadata with
  | nil => exact Or.inl member
  | cons first placed ih =>
      rw [List.mem_cons]
      rcases ih member with inserted | behind
      · rcases List.mem_append.mp inserted with kept | new
        · exact Or.inl (List.mem_filter.mp kept).1
        · exact Or.inr (Or.inl (List.mem_singleton.mp new))
      · exact Or.inr (Or.inr behind)

theorem mem_of_getArray {file : GgufFile} (held : file.getArray key = some summary) :
    ∃ stored, (stored, .array summary) ∈ file.metadata := by
  obtain ⟨value, found, told⟩ := Option.bind_eq_some_iff.mp held
  obtain ⟨entry, listed, rfl⟩ := Option.map_eq_some_iff.mp found
  have member := List.mem_of_find?_eq_some listed
  obtain ⟨stored, value⟩ := entry
  cases value with
  | array other =>
      cases told
      exact ⟨stored, member⟩
  | _ => cases told

/-- The contents of a placed array end where its entry ends, or before. -/
theorem array_placed {entries : List Entry} {offset : Nat}
    (fits : ∀ entry ∈ entries, entry.Fits limits)
    (member : (key, GgufValue.array summary) ∈ Entry.placed offset entries)
    (fixed : summary.elementType.fixedWidth = some width) :
    summary.offset.toNat + summary.len.toNat * width.toNat ≤
      offset + (entries.flatMap Entry.encode).length := by
  induction entries generalizing offset with
  | nil => cases member
  | cons entry entries ih =>
      rw [List.forall_mem_cons] at fits
      rw [Entry.placed, List.mem_cons] at member
      rw [List.flatMap_cons, List.length_append]
      rcases member with here | behind
      · obtain ⟨name, written⟩ := entry
        injection here with _ told
        cases written with
        | plain value =>
            dsimp only [Written.value] at told
            rw [← told] at fits
            exact absurd fits.1.2 id
        | array elementType elements =>
            cases told
            dsimp only at fixed ⊢
            have other : elementType ≠ .string := by
              intro string
              rw [string] at fixed
              cases fixed
            obtain ⟨-, same, told, widths⟩ := (Written.fits_fixed other).mp fits.1.2
            cases told.symm.trans fixed
            have contents := length_flatten_words widths
            rw [← contentsOf_fixed fixed] at contents
            have first : (UInt64.ofNat (offset + (Entry.mk name (.array elementType elements)).head.length +
                12)).toNat ≤ offset + (Entry.mk name (.array elementType elements)).head.length + 12 := by
              rw [UInt64.toNat_ofNat']
              exact Nat.mod_le _ _
            have count : (UInt64.ofNat elements.length).toNat * width.toNat ≤
                width.toNat * elements.length := by
              rw [UInt64.toNat_ofNat', Nat.mul_comm]
              exact Nat.mul_le_mul_left _ (Nat.mod_le _ _)
            have size : (Entry.mk name (.array elementType elements)).encode.length =
                (Entry.mk name (.array elementType elements)).head.length +
                  (12 + (contentsOf elementType elements).length) := by
              rw [Entry.encode, List.length_append, Written.encode, List.length_append, arrayHead,
                List.length_append, length_toLeBytes, length_toLeBytes]
            omega
      · have behind := ih fits.2 behind
        omega

theorem header_of_accepted {contents : Contents} {verifyData : Bool} {file : GgufFile}
    (accepted : GgufFile.openInner contents limits verifyData = .ok file) :
    ∃ final, readHeader contents.size (contents.cursor limits) = .ok file final := by
  obtain ⟨final, parsed⟩ := outcome_eq_ok.mp accepted
  obtain ⟨read, middle, header, rest⟩ := bind_eq_ok.mp parsed
  obtain ⟨_, _, verified, returned⟩ := bind_eq_ok.mp rest
  cases returned
  exact ⟨middle, header⟩

/-- The metadata of an accepted file are its entries, which lie in it. -/
theorem entries_of_accepted {contents : Contents} {verifyData : Bool} {file : GgufFile}
    (accepted : GgufFile.openInner contents limits verifyData = .ok file) :
    ∃ entries : List Entry, (∀ entry ∈ entries, entry.Fits limits) ∧
      24 + (entries.flatMap Entry.encode).length ≤ contents.bytes.length ∧
      file.metadata = (Entry.placed 24 entries).foldl
        (fun (metadata : Metadata) entry => metadata.insert entry.1 entry.2) [] := by
  obtain ⟨final, read⟩ := header_of_accepted accepted
  rw [readHeader_eq] at read
  have sound := contents.cursor_sound limits
  have parses := (parses_readPreamble.bind fun preamble =>
    (parses_readEntries preamble.kvCount).bind fun metadata =>
    (Parses.propagate (resolveAlignment metadata)).bind fun alignment =>
    (parses_readDeclared preamble.tensorCount).bind fun tensors =>
    parses_assemble contents.size preamble.version alignment metadata tensors).parsesAt _ sound
  obtain ⟨bytes, rest, split, grammar, -⟩ := (parses file final).mp read
  obtain ⟨preamble, head, others, whole, ⟨-, head_eq⟩, metadata, entryBytes, behind, others_eq,
    ⟨entries, -, ⟨fits, ⟨parts, spells, joined⟩, -⟩, same⟩, _, _, _, -, ⟨-, -⟩, _, _, _, -, -, -,
    file_eq⟩ := grammar
  have start : (contents.cursor limits).offset.toNat + head.length = 24 := by
    rw [head_eq]
    simp only [List.length_append, length_toLeBytes]
    rfl
  rw [start] at same
  refine ⟨entries, fits, ?_, ?_⟩
  · have split : contents.bytes = head ++ (entryBytes ++ behind) ++ rest := by
      rw [← others_eq, ← whole]
      exact split
    have head_length : head.length = 24 := by
      rw [← start]
      exact (Nat.zero_add _).symm
    rw [← length_spelled spells, ← joined, split]
    simp only [List.length_append, head_length]
    omega
  · rw [file_eq]
    exact same

theorem array_inside {contents : Contents} {verifyData : Bool} {file : GgufFile}
    (accepted : GgufFile.openInner contents limits verifyData = .ok file)
    (held : file.getArray key = some summary)
    (fixed : summary.elementType.fixedWidth = some width) :
    summary.offset.toNat + summary.len.toNat * width.toNat ≤ contents.bytes.length := by
  obtain ⟨entries, fits, inside, metadata⟩ := entries_of_accepted accepted
  obtain ⟨stored, member⟩ := mem_of_getArray held
  rw [metadata] at member
  rcases mem_foldl_insert member with nothing | placed
  · cases nothing
  · exact le_trans (array_placed fits placed fixed) inside

end Place

/-! ### All elements -/

section Elements

variable {summary : ArraySummary} {contents : Contents} {file : GgufFile} {key : List Char}
  {width : UInt64}

theorem readElements_eq (narrow : width.toNat ≤ 8) {count index : Nat} {rest : List UInt8}
    (enough : count * width.toNat ≤ rest.length) :
    readElements summary width count index rest = .ok ((List.range count).map fun index =>
      decodeUnsigned ((rest.drop (index * width.toNat)).take width.toNat)) := by
  induction count generalizing index rest with
  | zero => rfl
  | succ count ih =>
      have fits : ¬8 < width := by
        rw [UInt64.lt_iff_toNat_lt]
        exact not_lt.mpr narrow
      rw [Nat.succ_mul] at enough
      have behind : count * width.toNat ≤ (rest.drop width.toNat).length := by
        rw [List.length_drop]
        omega
      rw [readElements, if_neg fits, if_neg (by omega), ih behind, List.range_succ_eq_map,
        List.map_cons, List.map_map, Nat.zero_mul, List.drop_zero]
      have shifted : (fun index => decodeUnsigned
          (((rest.drop width.toNat).drop (index * width.toNat)).take width.toNat)) =
          (fun index => decodeUnsigned ((rest.drop (index * width.toNat)).take width.toNat)) ∘
            Nat.succ := by
        funext index
        rw [Function.comp_apply, List.drop_drop, Nat.succ_mul, Nat.add_comm]
      rw [← shifted]
      rfl

theorem length_of_mem_elements (inside : summary.offset.toNat + summary.len.toNat * width.toNat ≤
      contents.bytes.length) {element : List UInt8}
    (member : element ∈ summary.elements contents width.toNat) : element.length = width.toNat := by
  obtain ⟨index, listed, rfl⟩ := List.mem_map.mp member
  have below : index + 1 ≤ summary.len.toNat := List.mem_range.mp listed
  have room := Nat.mul_le_mul_right width.toNat below
  rw [Nat.succ_mul] at room
  rw [List.length_take, List.length_drop]
  omega

/-- What is read of an array that lies in the file: all its elements, taken as unsigned numbers. -/
theorem readU64Array_eq (held : file.getArray key = some summary)
    (fixed : summary.elementType.fixedWidth = some width)
    (inside : summary.offset.toNat + summary.len.toNat * width.toNat ≤ contents.bytes.length) :
    readU64Array contents file key =
      .ok (some ((summary.elements contents width.toNat).map decodeUnsigned)) := by
  have enough : summary.len.toNat * width.toNat ≤
      (contents.bytes.drop summary.offset.toNat).length := by
    rw [List.length_drop]
    omega
  have same : (fun index => decodeUnsigned (((contents.bytes.drop summary.offset.toNat).drop
      (index * width.toNat)).take width.toNat)) = decodeUnsigned ∘ fun index =>
        (contents.bytes.drop (summary.offset.toNat + index * width.toNat)).take width.toNat := by
    funext index
    rw [Function.comp_apply, List.drop_drop]
  rw [readU64Array, held]
  dsimp only
  rw [fixed]
  dsimp only
  rw [readElements_eq (fixedWidth_le fixed) enough, same, ArraySummary.elements, List.map_map]
  rfl

/-- The scalars of some elements. -/
theorem mapM_readScalar {elementType : GgufValueType} (fixed : elementType.fixedWidth = some width)
    {elements : List (List UInt8)} (widths : ∀ element ∈ elements, element.length = width.toNat) :
    ∃ scalars, elements.mapM (readScalar elementType) = .ok scalars ∧
      (scalars.mapM GgufValue.asU64 = some (elements.map decodeUnsigned) ↔
        ∀ element ∈ elements, IsUnsigned elementType element) := by
  induction elements with
  | nil => exact ⟨[], rfl, iff_of_true rfl (by simp)⟩
  | cons element elements ih =>
      rw [List.forall_mem_cons] at widths
      obtain ⟨scalar, read, number, other⟩ := readScalar_spec fixed widths.1
      obtain ⟨scalars, read_all, numbers⟩ := ih widths.2
      refine ⟨scalar :: scalars, ?_, ?_⟩
      · rw [List.mapM_cons, read, read_all]
        rfl
      · rw [List.forall_mem_cons, ← numbers, List.mapM_cons, List.map_cons]
        by_cases unsigned : IsUnsigned elementType element
        · rw [number unsigned]
          cases scalars.mapM GgufValue.asU64 with
          | none => simp
          | some values => simp [unsigned]
        · rw [other unsigned]
          simp [unsigned]

end Elements

/-- An array of an accepted file reads as its elements would as scalars just when these are of an
integer type and not negative. -/
theorem array_reads_as_scalars_iff {contents : Contents} {limits : ReadLimits} {verifyData : Bool}
    {file : GgufFile} {key : List Char} {summary : ArraySummary} {width : UInt64}
    (accepted : GgufFile.openInner contents limits verifyData = .ok file)
    (held : file.getArray key = some summary)
    (fixed : summary.elementType.fixedWidth = some width) :
    ReadsAsScalars contents file key summary width.toNat ↔
      ∀ element ∈ summary.elements contents width.toNat,
        IsUnsigned summary.elementType element := by
  have inside := array_inside accepted held fixed
  obtain ⟨scalars, read, numbers⟩ := mapM_readScalar fixed (fun element member =>
    length_of_mem_elements inside member)
  rw [← numbers, ReadsAsScalars, readU64Array_eq held fixed inside]
  constructor
  · intro reads
    obtain ⟨others, same, told⟩ := reads
    cases read.symm.trans same
    injection told with told
    exact told.symm
  · intro told
    exact ⟨scalars, read, congrArg Except.ok told.symm⟩

/-- One key, with an array of single bytes. -/
def byteArray (elementType : GgufValueType) (element : UInt8) : Header where
  version := 3
  entries := [⟨"llama.attention.head_count_kv".toList, .array elementType [[8], [element]]⟩]
  tensors := []

/-- The counts 8 and 4 of two layers. -/
def twoCounts : Contents where
  bytes := (byteArray .u8 4).encode
  bounded := by decide +kernel

/-- The same, with a signed type and -1 for the second. -/
def negativeCount : Contents where
  bytes := (byteArray .i8 0xFF).encode
  bounded := by decide +kernel

def countsSummary (elementType : GgufValueType) : ArraySummary := ⟨elementType, 2, 77, 2⟩

theorem two_counts_read :
    GgufFile.open twoCounts = .ok ((byteArray .u8 4).file 79) ∧
      ReadsAsScalars twoCounts ((byteArray .u8 4).file 79) "llama.attention.head_count_kv".toList
        (countsSummary .u8) 1 := by
  have accepted : GgufFile.openInner twoCounts .default true = .ok ((byteArray .u8 4).file 79) := by
    decide +kernel
  have held : ((byteArray .u8 4).file 79).getArray "llama.attention.head_count_kv".toList =
      some (countsSummary .u8) := by
    decide +kernel
  exact ⟨accepted, (array_reads_as_scalars_iff accepted held rfl).mpr (by decide +kernel)⟩

/-- The second count is read as 255, while a scalar -1 is no number. -/
theorem negative_count_read_as_large :
    GgufFile.open negativeCount = .ok ((byteArray .i8 0xFF).file 79) ∧
      ((byteArray .i8 0xFF).file 79).getArray "llama.attention.head_count_kv".toList =
        some (countsSummary .i8) ∧
      readU64Array negativeCount ((byteArray .i8 0xFF).file 79)
        "llama.attention.head_count_kv".toList = .ok (some [8, 255]) ∧
      ((countsSummary .i8).elements negativeCount 1).mapM (readScalar .i8) =
        .ok [.i8 8, .i8 (-1)] ∧
      ¬ReadsAsScalars negativeCount ((byteArray .i8 0xFF).file 79)
        "llama.attention.head_count_kv".toList (countsSummary .i8) 1 := by
  have read : readU64Array negativeCount ((byteArray .i8 0xFF).file 79)
      "llama.attention.head_count_kv".toList = .ok (some [8, 255]) := by
    decide +kernel
  have scalars : ((countsSummary .i8).elements negativeCount 1).mapM (readScalar .i8) =
      .ok [.i8 8, .i8 (-1)] := by
    decide +kernel
  refine ⟨by decide +kernel, by decide +kernel, read, scalars, ?_⟩
  intro reads
  obtain ⟨others, same, told⟩ := reads
  cases scalars.symm.trans same
  rw [read] at told
  revert told
  decide +kernel

end Lightweight.Gguf
