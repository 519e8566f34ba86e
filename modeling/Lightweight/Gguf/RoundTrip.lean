import Lightweight.Gguf.TensorRanges
import Lightweight.Gguf.Values

/-! The reader accepts the format and nothing else: a file is read as a header just when it begins
with bytes that spell one. -/

namespace Lightweight.Gguf

open Lightweight.Core Lightweight.Fallible Lightweight.Word64

variable {limits : ReadLimits} {α : Type}

/-- A reading behind the check that so many entries of a least size can fit at all. The check passes
whenever the entries are there. -/
theorem parses_ensured {m : Reading α} {grammar : Grammar α} (what : String) (count least : UInt64)
    (parses : Parses limits m grammar)
    (enough : ∀ offset bytes value, grammar offset bytes value →
      count.toNat * least.toNat ≤ bytes.length) :
    Parses limits
      (get >>= fun cursor =>
        ensureFits what (saturatingMul count least) cursor.remaining cursor.offset >>= fun _ => m)
      grammar := by
  apply Parses.get
  intro cursor sound
  have guarded : ParsesAt cursor
      (ensureFits what (saturatingMul count least) cursor.remaining cursor.offset)
      (Grammar.guard fun _ => ¬cursor.remaining < saturatingMul count least) :=
    ParsesAt.refuseIf _ Iff.rfl
  apply (ParsesAt.bind sound guarded fun _ => parses).congr
  intro bytes rest value split
  constructor
  · rintro ⟨_, _, _, rfl, ⟨rfl, -⟩, spelled⟩
    exact spelled
  · intro spelled
    refine ⟨(), [], bytes, rfl, ⟨rfl, ?_⟩, spelled⟩
    have inside : bytes.length ≤ cursor.inner.length := by
      rw [split, List.length_append]
      omega
    have room := enough _ _ _ spelled
    rw [UInt64.lt_iff_toNat_lt, Cursor.toNat_remaining sound, toNat_saturatingMul]
    omega

theorem Parses.propagate (outcome : Except GgufError α) :
    Parses limits (propagate outcome) fun _ bytes result => bytes = [] ∧ outcome = .ok result := by
  cases outcome with
  | error error =>
      constructor
      intro cursor sound result final
      constructor
      · rintro ⟨⟩
      · rintro ⟨_, _, _, ⟨_, ⟨⟩⟩, _⟩
  | ok value =>
      apply (Parses.pure value).congr
      intro offset bytes result
      rw [Except.ok.injEq, eq_comm (a := value)]

/-! ### Entries -/

theorem Written.Spells.length {written : Written} {bytes : List UInt8} (spells : written.Spells bytes) :
    bytes.length = written.encode.length := by
  rcases spells with rfl | ⟨rfl, byte, -, rfl⟩
  · rfl
  · rfl

theorem Entry.Spells.length {entry : Entry} {bytes : List UInt8} (spells : entry.Spells bytes) :
    bytes.length = entry.encode.length := by
  obtain ⟨value, rfl, spelled⟩ := spells
  rw [Entry.encode, List.length_append, List.length_append, spelled.length]

/-- The bytes of some entries are as many as those of their encodings. -/
theorem length_spelled {entries : List Entry} {parts : List (List UInt8)}
    (spells : List.Forall₂ Entry.Spells entries parts) :
    parts.flatten.length = (entries.flatMap Entry.encode).length := by
  induction spells with
  | nil => rfl
  | cons first _ ih =>
      rw [List.flatten_cons, List.flatMap_cons, List.length_append, List.length_append, ih, first.length]

/-- The bytes that some entries, one behind another, are read from. -/
structure EntriesSpelled (limits : ReadLimits) (offset : Nat) (entries : List Entry)
    (bytes : List UInt8) : Prop where
  fits : ∀ entry ∈ entries, entry.Fits limits
  spelled : ∃ parts, List.Forall₂ Entry.Spells entries parts ∧ bytes = parts.flatten
  budget : entries ≠ [] → offset + bytes.length ≤ limits.maxMetadataBytes.toNat

theorem EntriesSpelled.nil (offset : Nat) : EntriesSpelled limits offset [] [] :=
  ⟨by simp, ⟨[], .nil, rfl⟩, by simp⟩

/-- The budget is checked behind each entry, which is to check it behind the last. -/
theorem entriesSpelled_cons {offset : Nat} {entry : Entry} {entries : List Entry}
    {bytes : List UInt8} :
    EntriesSpelled limits offset (entry :: entries) bytes ↔
      ∃ first rest, bytes = first ++ rest ∧ entry.Fits limits ∧ entry.Spells first ∧
        offset + first.length ≤ limits.maxMetadataBytes.toNat ∧
        EntriesSpelled limits (offset + first.length) entries rest := by
  constructor
  · rintro ⟨fits, ⟨_, spells, rfl⟩, budget⟩
    obtain _ | ⟨spelled, spells⟩ := spells
    rename_i first parts
    rw [List.forall_mem_cons] at fits
    have within := budget (List.cons_ne_nil _ _)
    rw [List.flatten_cons, List.length_append] at within
    refine ⟨first, parts.flatten, rfl, fits.1, spelled, by omega, fits.2, ⟨parts, spells, rfl⟩, ?_⟩
    intro _
    omega
  · rintro ⟨first, rest, rfl, fit, spelled, within, fits, ⟨parts, spells, rfl⟩, budget⟩
    refine ⟨List.forall_mem_cons.mpr ⟨fit, fits⟩, ⟨first :: parts, .cons spelled spells, rfl⟩, ?_⟩
    intro _
    cases entries with
    | nil =>
        cases spells
        simpa using within
    | cons other entries =>
        have later := budget (List.cons_ne_nil _ _)
        rw [List.length_append]
        omega

theorem parses_readMetadata (count : Nat) (metadata : Metadata) :
    Parses limits (readMetadata count metadata) fun offset bytes result =>
      ∃ entries : List Entry, entries.length = count ∧ EntriesSpelled limits offset entries bytes ∧
        result = (Entry.placed offset entries).foldl
          (fun metadata entry => metadata.insert entry.1 entry.2) metadata := by
  induction count generalizing metadata with
  | zero =>
      apply (Parses.pure metadata).congr
      intro offset bytes result
      constructor
      · rintro ⟨rfl, rfl⟩
        exact ⟨[], rfl, EntriesSpelled.nil offset, rfl⟩
      · rintro ⟨entries, none, ⟨-, ⟨parts, spells, rfl⟩, -⟩, rfl⟩
        cases List.eq_nil_of_length_eq_zero none
        cases spells
        exact ⟨rfl, rfl⟩
  | succ count ih =>
      apply (parses_readKv.bind fun read => parses_checkMetadataBudget.bind fun _ => ih _).congr
      intro offset bytes result
      constructor
      · rintro ⟨_, first, _, rfl, ⟨entry, fits, spells, rfl⟩, _, _, rest, rfl, ⟨rfl, within⟩,
          entries, rfl, spelled, rfl⟩
        rw [List.length_nil, Nat.add_zero] at spelled
        refine ⟨entry :: entries, rfl,
          entriesSpelled_cons.mpr ⟨first, rest, rfl, fits, spells, within, spelled⟩, ?_⟩
        rw [Entry.placed, List.foldl_cons, List.length_nil, Nat.add_zero, spells.length]
      · rintro ⟨entries, length, spelled, rfl⟩
        cases entries with
        | nil => cases length
        | cons entry entries =>
            obtain ⟨first, rest, rfl, fits, spells, within, spelled⟩ := entriesSpelled_cons.mp spelled
            refine ⟨_, first, rest, rfl, ⟨entry, fits, spells, rfl⟩, (), [], rest, rfl, ⟨rfl, within⟩,
              entries, Nat.succ.inj length, spelled, ?_⟩
            rw [Entry.placed, List.foldl_cons, List.length_nil, Nat.add_zero, spells.length]

/-! ### Tensors -/

/-- Extents in their places, from one dimension on. -/
def placeExtents : Nat → Vector UInt64 4 → List UInt64 → Vector UInt64 4
  | _, dims, [] => dims
  | index, dims, extent :: extents => placeExtents (index + 1) (dims.setIfInBounds index extent) extents

/-- No more than four extents leave the others 1. -/
theorem placeExtents_eq {extents : List UInt64} (few : extents.length ≤ 4) :
    placeExtents 0 (Vector.replicate 4 1) extents = Vector.ofFn fun i => extents.getD i 1 := by
  match extents, few with
  | [], _ => rfl
  | [a], _ => rfl
  | [a, b], _ => rfl
  | [a, b, c], _ => rfl
  | [a, b, c, d], _ => rfl
  | _ :: _ :: _ :: _ :: _ :: _, few =>
      simp only [List.length_cons] at few
      omega

theorem parses_readDims (name : List Char) (nDims : UInt32) (count index : Nat)
    (dims : Vector UInt64 4) :
    Parses limits (readDims name nDims count index dims) fun _ bytes result =>
      ∃ extents : List UInt64, extents.length = count ∧ (0 < count → index + count ≤ 4) ∧
        bytes = extents.flatMap (fun extent => toLeBytes 8 extent.toNat) ∧
        result = placeExtents index dims extents := by
  induction count generalizing index dims with
  | zero =>
      apply (Parses.pure dims).congr
      intro offset bytes result
      constructor
      · rintro ⟨rfl, rfl⟩
        exact ⟨[], rfl, by omega, rfl, rfl⟩
      · rintro ⟨extents, none, -, rfl, rfl⟩
        cases List.eq_nil_of_length_eq_zero none
        exact ⟨rfl, rfl⟩
  | succ count ih =>
      apply (parses_readU64.bind fun extent => (Parses.refuseIf _).bind fun _ => ih _ _).congr
      intro offset bytes result
      constructor
      · rintro ⟨extent, _, _, rfl, rfl, _, _, _, rfl, ⟨rfl, below⟩, extents, rfl, few, rfl, rfl⟩
        exact ⟨extent :: extents, rfl, by omega, rfl, rfl⟩
      · rintro ⟨extents, length, few, rfl, rfl⟩
        cases extents with
        | nil => cases length
        | cons extent extents =>
            have room := few (Nat.succ_pos count)
            exact ⟨extent, _, _, rfl, rfl, (), [], _, rfl, ⟨rfl, by omega⟩, extents,
              Nat.succ.inj length, by omega, rfl, rfl⟩

theorem parses_readTensorInfo :
    Parses limits readTensorInfo fun _ bytes info => ∃ tensor : Declared, tensor.Fits limits ∧
      tensor.info.elements ≠ none ∧ bytes = tensor.encode ∧ info = tensor.info := by
  apply ((parses_readString _).bind fun name => parses_readU32.bind fun nDims =>
    (Parses.refuseIf _).bind fun _ => (parses_readDims name nDims nDims.toNat 0 _).bind fun dims =>
    parses_readU32.bind fun typeId => parses_readU64.bind fun offset =>
    (Parses.refuseIf _).bind fun _ =>
    Parses.pure (TensorInfo.mk name dims nDims (.fromId typeId) offset)).congr
  intro start bytes info
  constructor
  · rintro ⟨name, _, _, rfl, ⟨rfl, short⟩, nDims, _, _, rfl, rfl, _, _, _, rfl, ⟨rfl, few⟩,
      _, _, _, rfl, ⟨extents, number, -, rfl, rfl⟩, typeId, _, _, rfl, rfl, offset, _, _, rfl, rfl,
      _, _, _, rfl, ⟨rfl, counted⟩, rfl, rfl⟩
    have four : maxDims.toNat = 4 := rfl
    rw [UInt32.lt_iff_toNat_lt, four, Nat.not_lt, ← number] at few
    have same : TensorInfo.mk name (placeExtents 0 (Vector.replicate 4 1) extents) nDims
        (.fromId typeId) offset = (Declared.mk name extents typeId offset).info := by
      rw [Declared.info, placeExtents_eq few, number, UInt32.ofNat_toNat]
    refine ⟨⟨name, extents, typeId, offset⟩, ⟨short, few⟩, ?_, ?_, same⟩
    · rwa [← same]
    · simp only [Declared.encode, number, List.nil_append, List.append_nil, List.append_assoc]
  · rintro ⟨tensor, ⟨short, few⟩, counted, rfl, rfl⟩
    have number : (UInt32.ofNat tensor.extents.length).toNat = tensor.extents.length := by
      rw [UInt32.toNat_ofNat']
      omega
    have same : TensorInfo.mk tensor.name (placeExtents 0 (Vector.replicate 4 1) tensor.extents)
        (UInt32.ofNat tensor.extents.length) (.fromId tensor.typeId) tensor.offset = tensor.info := by
      rw [Declared.info, placeExtents_eq few]
    have four : maxDims.toNat = 4 := rfl
    refine ⟨tensor.name, encodeString tensor.name, _, ?_, ⟨rfl, short⟩,
      UInt32.ofNat tensor.extents.length, toLeBytes 4 tensor.extents.length, _, rfl,
      congrArg (toLeBytes 4) number.symm, (), [], _, rfl, ⟨rfl, ?_⟩,
      placeExtents 0 (Vector.replicate 4 1) tensor.extents,
      tensor.extents.flatMap (fun extent => toLeBytes 8 extent.toNat), _, rfl,
      ⟨tensor.extents, number.symm, by omega, rfl, rfl⟩,
      tensor.typeId, toLeBytes 4 tensor.typeId.toNat, _, rfl, rfl,
      tensor.offset, toLeBytes 8 tensor.offset.toNat, [], (List.append_nil _).symm, rfl,
      (), [], [], rfl, ⟨rfl, ?_⟩, rfl, same.symm⟩
    · simp only [Declared.encode, List.append_assoc, List.nil_append]
    · rw [UInt32.lt_iff_toNat_lt, four, number]
      omega
    · rwa [same]

/-- The bytes that some tensors, one behind another, are read from. -/
structure TensorsSpelled (limits : ReadLimits) (offset : Nat) (tensors : List Declared)
    (bytes : List UInt8) : Prop where
  fits : ∀ tensor ∈ tensors, tensor.Fits limits ∧ tensor.info.elements ≠ none
  spelled : bytes = tensors.flatMap Declared.encode
  budget : tensors ≠ [] → offset + bytes.length ≤ limits.maxMetadataBytes.toNat

theorem parses_readTensors (count : Nat) :
    Parses limits (readTensors count) fun offset bytes result =>
      ∃ tensors : List Declared, tensors.length = count ∧
        TensorsSpelled limits offset tensors bytes ∧ result = tensors.map Declared.info := by
  induction count with
  | zero =>
      apply (Parses.pure []).congr
      intro offset bytes result
      constructor
      · rintro ⟨rfl, rfl⟩
        exact ⟨[], rfl, ⟨by simp, rfl, by simp⟩, rfl⟩
      · rintro ⟨tensors, none, ⟨-, rfl, -⟩, rfl⟩
        cases List.eq_nil_of_length_eq_zero none
        exact ⟨rfl, rfl⟩
  | succ count ih =>
      apply (parses_readTensorInfo.bind fun read => parses_checkMetadataBudget.bind fun _ =>
        ih.bind fun others => Parses.pure (read :: others)).congr
      intro offset bytes result
      constructor
      · rintro ⟨_, _, _, rfl, ⟨tensor, fit, counted, rfl, rfl⟩, _, _, _, rfl, ⟨rfl, within⟩,
          _, _, _, rfl, ⟨tensors, rfl, ⟨fits, rfl, budget⟩, rfl⟩, rfl, rfl⟩
        refine ⟨tensor :: tensors, rfl, ⟨List.forall_mem_cons.mpr ⟨⟨fit, counted⟩, fits⟩, ?_, ?_⟩, rfl⟩
        · rw [List.nil_append, List.append_nil, List.flatMap_cons]
        · intro _
          simp only [List.length_append, List.length_nil, Nat.add_zero, Nat.zero_add] at budget ⊢
          cases tensors with
          | nil => simpa using within
          | cons other tensors =>
              have later := budget (List.cons_ne_nil _ _)
              omega
      · rintro ⟨tensors, length, ⟨fits, rfl, budget⟩, rfl⟩
        cases tensors with
        | nil => cases length
        | cons tensor tensors =>
            rw [List.forall_mem_cons] at fits
            have within := budget (List.cons_ne_nil _ _)
            rw [List.flatMap_cons, List.length_append] at within
            refine ⟨tensor.info, tensor.encode, tensors.flatMap Declared.encode, rfl,
              ⟨tensor, fits.1.1, fits.1.2, rfl, rfl⟩, (), [], tensors.flatMap Declared.encode, rfl,
              ⟨rfl, by omega⟩, tensors.map Declared.info, tensors.flatMap Declared.encode, [],
              (List.append_nil _).symm,
              ⟨tensors, Nat.succ.inj length, ⟨fits.2, rfl, ?_⟩, rfl⟩, rfl, rfl⟩
            intro _
            rw [List.length_nil]
            omega

/-! ### The header -/

theorem length_encodeString (text : List Char) : 8 ≤ (encodeString text).length := by
  rw [encodeString, encodeBytes, List.length_append, length_toLeBytes]
  omega

theorem Entry.twelve_le_length (entry : Entry) : 12 ≤ entry.encode.length := by
  have key := length_encodeString entry.key
  rw [Entry.encode, Entry.head, List.length_append, List.length_append, length_toLeBytes]
  omega

theorem Declared.twentyfour_le_length (tensor : Declared) : 24 ≤ tensor.encode.length := by
  have name := length_encodeString tensor.name
  simp only [Declared.encode, List.length_append, length_toLeBytes]
  omega

/-- Encodings of a least size, all of them. -/
theorem mul_le_length_flatMap {encode : α → List UInt8} {least : Nat}
    (bound : ∀ x, least ≤ (encode x).length) (xs : List α) :
    xs.length * least ≤ (xs.flatMap encode).length := by
  induction xs with
  | nil => simp
  | cons x xs ih =>
      have first := bound x
      rw [List.length_cons, List.flatMap_cons, List.length_append, Nat.succ_mul]
      omega

/-- The entries behind the check of their count. -/
def readEntries (kvCount : UInt64) : Reading Metadata :=
  get >>= fun cursor =>
    ensureFits "metadata keys" (saturatingMul kvCount minKvBytes) cursor.remaining cursor.offset >>=
      fun _ => readMetadata kvCount.toNat []

/-- The tensors behind the check of their count. -/
def readDeclared (tensorCount : UInt64) : Reading (List TensorInfo) :=
  get >>= fun cursor =>
    ensureFits "tensors" (saturatingMul tensorCount minTensorBytes) cursor.remaining cursor.offset >>=
      fun _ => readTensors tensorCount.toNat

theorem parses_readEntries (kvCount : UInt64) :
    Parses limits (readEntries kvCount) fun offset bytes result =>
      ∃ entries : List Entry, entries.length = kvCount.toNat ∧
        EntriesSpelled limits offset entries bytes ∧
        result = (Entry.placed offset entries).foldl
          (fun (metadata : Metadata) entry => metadata.insert entry.1 entry.2) [] := by
  apply parses_ensured _ _ _ (parses_readMetadata _ _)
  rintro offset bytes value ⟨entries, number, ⟨-, ⟨parts, spells, rfl⟩, -⟩, -⟩
  rw [length_spelled spells, ← number]
  exact mul_le_length_flatMap Entry.twelve_le_length entries

theorem parses_readDeclared (tensorCount : UInt64) :
    Parses limits (readDeclared tensorCount) fun offset bytes result =>
      ∃ tensors : List Declared, tensors.length = tensorCount.toNat ∧
        TensorsSpelled limits offset tensors bytes ∧ result = tensors.map Declared.info := by
  apply parses_ensured _ _ _ (parses_readTensors _)
  rintro offset bytes value ⟨tensors, number, ⟨-, rfl, -⟩, -⟩
  rw [← number]
  exact mul_le_length_flatMap Declared.twentyfour_le_length tensors

/-- What is made of the parts at the end of the header. -/
def assemble (fileSize : UInt64) (version : UInt32) (alignment : UInt64) (metadata : Metadata)
    (tensors : List TensorInfo) (offset : UInt64) : GgufFile where
  version := version
  alignment := alignment
  metadata := metadata
  tensors := tensors
  dataOffset := if tensors.isEmpty then offset else alignUp offset alignment
  fileSize := fileSize

theorem parses_assemble (fileSize : UInt64) (version : UInt32) (alignment : UInt64)
    (metadata : Metadata) (tensors : List TensorInfo) :
    Parses limits
      (get >>= fun cursor =>
        pure (assemble fileSize version alignment metadata tensors cursor.offset) : Reading GgufFile)
      fun offset bytes result => bytes = [] ∧
        result = assemble fileSize version alignment metadata tensors (UInt64.ofNat offset) := by
  apply Parses.get
  intro cursor sound
  apply ((Parses.pure _).parsesAt cursor sound).congr
  intro bytes rest value split
  rw [UInt64.ofNat_toNat]

/-- What stands before the keys. -/
structure Preamble where
  version : UInt32
  tensorCount : UInt64
  kvCount : UInt64

def readPreamble : Reading Preamble := do
  let found ← readArray 4
  refuseIf (found ≠ magic) (.badMagic found)
  let version ← readU32
  refuseIf (¬(minVersion ≤ version ∧ version ≤ maxVersion))
    (.unsupportedVersion version minVersion maxVersion)
  let tensorCount ← readU64
  let kvCount ← readU64
  pure ⟨version, tensorCount, kvCount⟩

theorem readHeader_eq (fileSize : UInt64) :
    readHeader fileSize = (do
      let preamble ← readPreamble
      let metadata ← readEntries preamble.kvCount
      let alignment ← propagate (resolveAlignment metadata)
      let tensors ← readDeclared preamble.tensorCount
      let cursor ← get
      pure (assemble fileSize preamble.version alignment metadata tensors cursor.offset)) := by
  simp only [readHeader, readPreamble, readEntries, readDeclared, bind_assoc, pure_bind]
  rfl

/-- What a preamble is read from. -/
theorem parses_readPreamble :
    Parses limits readPreamble fun _ bytes preamble =>
      ¬¬(minVersion ≤ preamble.version ∧ preamble.version ≤ maxVersion) ∧
        bytes = magic ++ (toLeBytes 4 preamble.version.toNat ++
          (toLeBytes 8 preamble.tensorCount.toNat ++ toLeBytes 8 preamble.kvCount.toNat)) := by
  apply ((parses_readArray (by decide)).bind fun found => (Parses.refuseIf _).bind fun _ =>
    parses_readU32.bind fun version => (Parses.refuseIf _).bind fun _ =>
    parses_readU64.bind fun tensorCount => parses_readU64.bind fun kvCount =>
    Parses.pure (Preamble.mk version tensorCount kvCount)).congr
  intro offset bytes preamble
  constructor
  · rintro ⟨_, _, _, rfl, ⟨-, rfl⟩, _, _, _, rfl, ⟨rfl, real⟩, version, _, _, rfl, rfl, _, _, _, rfl,
      ⟨rfl, supported⟩, tensorCount, _, _, rfl, rfl, kvCount, _, _, rfl, rfl, rfl, rfl⟩
    cases not_not.mp real
    refine ⟨supported, ?_⟩
    simp only [List.nil_append, List.append_nil]
  · obtain ⟨version, tensorCount, kvCount⟩ := preamble
    rintro ⟨supported, rfl⟩
    exact ⟨magic, magic, _, rfl, ⟨rfl, rfl⟩, (), [], _, rfl, ⟨rfl, not_not.mpr rfl⟩, version,
      toLeBytes 4 version.toNat, _, rfl, rfl, (), [], _, rfl, ⟨rfl, supported⟩, tensorCount,
      toLeBytes 8 tensorCount.toNat, _, rfl, rfl, kvCount, toLeBytes 8 kvCount.toNat, [],
      (List.append_nil _).symm, rfl, rfl, rfl⟩

theorem resolveAlignment_eq_ok (header : Header) {alignment : UInt64} :
    resolveAlignment header.metadata = .ok alignment ↔
      header.alignment.isPowerOfTwo ∧ alignment = UInt64.ofNat header.alignment := by
  unfold resolveAlignment Header.alignment
  cases header.metadata.get? alignmentKey with
  | none =>
      constructor
      · rintro ⟨⟩
        exact ⟨⟨5, rfl⟩, rfl⟩
      · rintro ⟨-, rfl⟩
        rfl
  | some value =>
      dsimp only
      rw [UInt64.ofNat_toNat]
      generalize value.asU64.getD 0 = told
      split
      · rename_i bad
        constructor
        · rintro ⟨⟩
        · rintro ⟨power, -⟩
          rcases bad with rfl | none
          · exact absurd (Nat.pos_of_isPowerOfTwo power) (Nat.lt_irrefl 0)
          · exact absurd power none
      · rename_i good
        rw [not_or, not_not] at good
        constructor
        · rintro ⟨⟩
          exact ⟨good.2, rfl⟩
        · rintro ⟨-, rfl⟩
          rfl

/-- Rounding up, for an offset and an alignment that leave room for the result. -/
theorem toNat_alignUp (offset : UInt64) {alignment : UInt64} (positive : 0 < alignment.toNat)
    (room : offset.toNat + alignment.toNat ≤ UInt64.size) :
    (alignUp offset alignment).toNat = offset.toNat ⌈/⌉ alignment.toNat * alignment.toNat := by
  have parts := Nat.div_add_mod offset.toNat alignment.toNat
  have below := Nat.mod_lt offset.toNat positive
  have nonzero : alignment ≠ 0 := by
    rintro rfl
    exact absurd positive (Nat.lt_irrefl 0)
  unfold alignUp
  split
  · rename_i even
    have divides : offset.toNat % alignment.toNat = 0 := by
      rw [← UInt64.toNat_mod, even.resolve_left nonzero, UInt64.toNat_zero]
    rw [ceilDiv_of_mod_zero divides positive, Nat.mul_comm]
    omega
  · rename_i odd
    have remains : 0 < offset.toNat % alignment.toNat := by
      rw [not_or] at odd
      apply Nat.pos_of_ne_zero
      intro zero
      apply odd.2
      apply UInt64.toNat_inj.mp
      rw [UInt64.toNat_mod, zero, UInt64.toNat_zero]
    rw [ceilDiv_of_mod_pos remains positive, toNat_saturatingAdd, toNat_saturatingSub,
      UInt64.toNat_mod, Nat.add_mul, Nat.mul_comm (offset.toNat / alignment.toNat)]
    omega

theorem Header.length_preamble (header : Header) : header.preamble.length = 24 := by
  simp only [Header.preamble, List.length_append, length_toLeBytes]
  rfl

theorem Header.length_encode (header : Header) :
    header.encode.length = 24 + (header.entries.flatMap Entry.encode).length +
      (header.tensors.flatMap Declared.encode).length := by
  rw [Header.encode, List.length_append, List.length_append, Header.length_preamble]

theorem Header.Spells.length {header : Header} {bytes : List UInt8} (spells : header.Spells bytes) :
    bytes.length = header.encode.length := by
  obtain ⟨parts, spelled, rfl⟩ := spells
  rw [Header.length_encode, List.length_append, List.length_append, Header.length_preamble,
    length_spelled spelled]

theorem version_supported {version : UInt32} :
    ¬¬(minVersion ≤ version ∧ version ≤ maxVersion) ↔ version = 2 ∨ version = 3 := by
  rw [not_not, UInt32.le_iff_toNat_le, UInt32.le_iff_toNat_le, ← UInt32.toNat_inj,
    ← UInt32.toNat_inj]
  have two : (2 : UInt32).toNat = 2 := rfl
  have three : (3 : UInt32).toNat = 3 := rfl
  have least : minVersion.toNat = 2 := rfl
  have most : maxVersion.toNat = 3 := rfl
  omega

theorem Header.alignment_lt (header : Header) : header.alignment < UInt64.size := by
  unfold Header.alignment
  split
  · decide
  · exact UInt64.toNat_lt _

/-- A power of two of 64 bits is at most the half of what 64 bits hold. -/
theorem isPowerOfTwo_le {n : Nat} (power : n.isPowerOfTwo) (fits : n < UInt64.size) : n ≤ 2 ^ 63 := by
  obtain ⟨exponent, rfl⟩ := power
  have below : exponent < 64 := (Nat.pow_lt_pow_iff_right (by decide)).mp fits
  exact Nat.pow_le_pow_right (by decide) (by omega)

/-- The parts of a header that was read, put together, are the file that the header stands for. -/
theorem assemble_eq {header : Header} (fileSize : UInt64) (power : header.alignment.isPowerOfTwo)
    (bounded : header.encode.length < 2 ^ 63) :
    assemble fileSize header.version (UInt64.ofNat header.alignment) header.metadata
      (header.tensors.map Declared.info) (UInt64.ofNat header.encode.length) =
      header.file fileSize := by
  have wide : UInt64.size = 2 ^ 64 := rfl
  have alignment : (UInt64.ofNat header.alignment).toNat = header.alignment :=
    UInt64.toNat_ofNat_of_lt header.alignment_lt
  have length : (UInt64.ofNat header.encode.length).toNat = header.encode.length :=
    UInt64.toNat_ofNat_of_lt (by omega)
  have half := isPowerOfTwo_le power header.alignment_lt
  have positive : 0 < (UInt64.ofNat header.alignment).toNat := by
    rw [alignment]
    exact Nat.pos_of_isPowerOfTwo power
  have rounded := toNat_alignUp (UInt64.ofNat header.encode.length) positive (by omega)
  rw [alignment, length] at rounded
  unfold assemble Header.file Header.dataOffset
  congr 1
  cases header.tensors with
  | nil => rfl
  | cons tensor tensors =>
      apply UInt64.toNat_inj.mp
      rw [if_neg (List.cons_ne_nil tensor tensors), ← rounded, UInt64.ofNat_toNat]
      rfl

/-- The budget behind the last entry and the last tensor is the budget of the whole header. -/
theorem Header.budget {header : Header} {parts : List (List UInt8)}
    (spells : List.Forall₂ Entry.Spells header.entries parts)
    (roomy : 24 ≤ limits.maxMetadataBytes.toNat) :
    (header.entries ≠ [] → 24 + parts.flatten.length ≤ limits.maxMetadataBytes.toNat) ∧
      (header.tensors ≠ [] → 24 + parts.flatten.length +
        (header.tensors.flatMap Declared.encode).length ≤ limits.maxMetadataBytes.toNat) ↔
      header.encode.length ≤ limits.maxMetadataBytes.toNat := by
  rw [Header.length_encode, ← length_spelled spells]
  constructor
  · rintro ⟨entries_within, tensors_within⟩
    by_cases tensors : header.tensors = []
    · rw [tensors, List.flatMap_nil, List.length_nil, Nat.add_zero]
      by_cases entries : header.entries = []
      · rw [entries] at spells
        cases spells
        exact roomy
      · exact entries_within entries
    · exact tensors_within tensors
  · intro within
    exact ⟨fun _ => by omega, fun _ => within⟩

/-- What a header is read from, at the start of a file. -/
theorem parsesAt_readHeader {cursor : Cursor} (sound : cursor.Sound limits)
    (start : cursor.offset.toNat = 0) (roomy : 24 ≤ limits.maxMetadataBytes.toNat)
    (fileSize : UInt64) :
    ParsesAt cursor (readHeader fileSize) fun _ bytes file => ∃ header : Header,
      header.Fits limits ∧ (∀ tensor ∈ header.tensors, tensor.info.elements ≠ none) ∧
        header.Spells bytes ∧ file = header.file fileSize := by
  rw [readHeader_eq]
  apply ((parses_readPreamble.bind fun preamble =>
    (parses_readEntries preamble.kvCount).bind fun metadata =>
    (Parses.propagate (resolveAlignment metadata)).bind fun alignment =>
    (parses_readDeclared preamble.tensorCount).bind fun tensors =>
    parses_assemble fileSize preamble.version alignment metadata tensors).parsesAt cursor sound).congr
  intro bytes rest file split
  have placed := sound.placed
  have bounded := sound.bounded
  have four : magic.length = 4 := rfl
  have inside : bytes.length ≤ cursor.inner.length := by
    rw [split, List.length_append]
    omega
  rw [start]
  constructor
  · rintro ⟨⟨version, tensorCount, kvCount⟩, _, _, rfl, ⟨supported, rfl⟩, _, _, _, rfl,
      ⟨entries, entry_count, ⟨fits, ⟨parts, spells, rfl⟩, budget⟩, rfl⟩, alignment, _, _, rfl,
      ⟨rfl, resolved⟩, _, _, _, rfl, ⟨tensors, tensor_count, ⟨tensor_fits, rfl, tensor_budget⟩, rfl⟩,
      rfl, rfl⟩
    dsimp only at supported entry_count tensor_count
    simp only [List.length_append, length_toLeBytes, List.length_nil, four, Nat.add_zero, Nat.zero_add,
      Nat.reduceAdd] at budget tensor_budget resolved ⊢
    simp only [List.nil_append, List.append_nil, List.append_assoc] at inside ⊢
    let header : Header := ⟨version, entries, tensors⟩
    have spelled : header.Spells (magic ++ (toLeBytes 4 version.toNat ++ (toLeBytes 8 tensorCount.toNat ++
        (toLeBytes 8 kvCount.toNat ++ (parts.flatten ++ tensors.flatMap Declared.encode))))) := by
      refine ⟨parts, spells, ?_⟩
      simp only [header, Header.preamble, entry_count, tensor_count, List.append_assoc]
    obtain ⟨power, rfl⟩ := (resolveAlignment_eq_ok header).mp resolved
    have size : header.encode.length = 24 + parts.flatten.length +
        (tensors.flatMap Declared.encode).length := by
      rw [Header.length_encode, length_spelled spells]
    rw [spelled.length] at inside
    refine ⟨header, ⟨version_supported.mp supported, fits, fun tensor member =>
      (tensor_fits tensor member).1, power, ?_⟩, fun tensor member => (tensor_fits tensor member).2,
      spelled, ?_⟩
    · exact (Header.budget spells roomy).mp ⟨budget, tensor_budget⟩
    · rw [← assemble_eq fileSize power (by omega), size]
      rfl
  · rintro ⟨header, fits, counted, ⟨parts, spells, rfl⟩, rfl⟩
    have spelled : header.Spells (header.preamble ++ parts.flatten ++
        header.tensors.flatMap Declared.encode) := ⟨parts, spells, rfl⟩
    rw [spelled.length] at inside
    have size : header.encode.length = 24 + parts.flatten.length +
        (header.tensors.flatMap Declared.encode).length := by
      rw [Header.length_encode, length_spelled spells]
    have wide : UInt64.size = 2 ^ 64 := rfl
    have budget := (Header.budget spells roomy).mpr fits.size
    have entry_bytes := mul_le_length_flatMap Entry.twelve_le_length header.entries
    have tensor_bytes := mul_le_length_flatMap Declared.twentyfour_le_length header.tensors
    rw [← length_spelled spells] at entry_bytes
    have entry_count : (UInt64.ofNat header.entries.length).toNat = header.entries.length :=
      UInt64.toNat_ofNat_of_lt (by omega)
    have tensor_count : (UInt64.ofNat header.tensors.length).toNat = header.tensors.length :=
      UInt64.toNat_ofNat_of_lt (by omega)
    have resolved := (resolveAlignment_eq_ok header).mpr ⟨fits.alignment, rfl⟩
    have preamble : header.preamble = magic ++ (toLeBytes 4 header.version.toNat ++
        (toLeBytes 8 (UInt64.ofNat header.tensors.length).toNat ++
          toLeBytes 8 (UInt64.ofNat header.entries.length).toNat)) := by
      rw [entry_count, tensor_count, Header.preamble, List.append_assoc, List.append_assoc]
    refine ⟨⟨header.version, UInt64.ofNat header.tensors.length, UInt64.ofNat header.entries.length⟩,
      header.preamble, _, List.append_assoc _ _ _, ⟨version_supported.mpr fits.version, preamble⟩,
      header.metadata, parts.flatten, _, rfl,
      ⟨header.entries, entry_count.symm, ⟨fits.entries, ⟨parts, spells, rfl⟩, ?_⟩, ?_⟩,
      UInt64.ofNat header.alignment, [], _, rfl, ⟨rfl, resolved⟩,
      header.tensors.map Declared.info, header.tensors.flatMap Declared.encode, [],
      (List.append_nil _).symm,
      ⟨header.tensors, tensor_count.symm, ⟨fun tensor member => ⟨fits.tensors tensor member,
        counted tensor member⟩, rfl, ?_⟩, rfl⟩, rfl, ?_⟩
    · rw [Nat.zero_add, header.length_preamble]
      exact budget.1
    · rw [Nat.zero_add, header.length_preamble]
      rfl
    · rw [Nat.zero_add, header.length_preamble, List.length_nil, Nat.add_zero]
      exact budget.2
    · rw [← assemble_eq fileSize fits.alignment (by omega), size]
      rw [Nat.zero_add, header.length_preamble, List.length_nil, Nat.add_zero]

/-! ### Files -/

/-- The cursor at the start of a file. -/
def Contents.cursor (contents : Contents) (limits : ReadLimits) : Cursor where
  inner := contents.bytes
  offset := 0
  fileSize := contents.size
  limits := limits

theorem Contents.cursor_sound (contents : Contents) (limits : ReadLimits) :
    (contents.cursor limits).Sound limits := by
  refine ⟨rfl, ?_, ?_⟩
  · change (0 : UInt64).toNat + contents.bytes.length = contents.size.toNat
    rw [contents.size_toNat, UInt64.toNat_zero, Nat.zero_add]
  · change contents.size.toNat < 2 ^ 63
    rw [contents.size_toNat]
    exact contents.bounded

/-- The header that a file was found to begin with. -/
structure Begins (contents : Contents) (header : Header) : Prop where
  fits : header.Fits .default
  counted : ∀ tensor ∈ header.tensors, tensor.info.elements ≠ none
  spelled : ∃ bytes rest, contents.bytes = bytes ++ rest ∧ header.Spells bytes

theorem openHeaderOnly_eq_ok {contents : Contents} {file : GgufFile} :
    GgufFile.openHeaderOnly contents = .ok file ↔
      ∃ header, Begins contents header ∧ file = header.file contents.size := by
  have sound := contents.cursor_sound .default
  have parses := parsesAt_readHeader sound rfl (by decide) contents.size
  have unverified : parse contents.size false = readHeader contents.size := by
    rw [parse]
    exact bind_pure _
  have run : GgufFile.openHeaderOnly contents =
      outcome (readHeader contents.size) (contents.cursor .default) := by
    rw [← unverified]
    rfl
  rw [run, outcome_eq_ok]
  constructor
  · rintro ⟨final, read⟩
    obtain ⟨bytes, rest, split, ⟨header, fits, counted, spells, rfl⟩, -⟩ := (parses file final).mp read
    exact ⟨header, ⟨fits, counted, bytes, rest, split, spells⟩, rfl⟩
  · rintro ⟨header, ⟨fits, counted, bytes, rest, split, spells⟩, rfl⟩
    exact ⟨_, (parses _ _).mpr ⟨bytes, rest, split, ⟨header, fits, counted, spells, rfl⟩, rfl⟩⟩

/-- The extents of an entry, and 1 for the dimensions it does not have. -/
theorem Declared.info_dims {tensor : Declared} (few : tensor.extents.length ≤ 4) :
    tensor.info.dims.toList = tensor.extents ++ List.replicate (4 - tensor.extents.length) 1 := by
  unfold Declared.info
  match tensor.extents, few with
  | [], _ => rfl
  | [a], _ => rfl
  | [a, b], _ => rfl
  | [a, b, c], _ => rfl
  | [a, b, c, d], _ => rfl
  | _ :: _ :: _ :: _ :: _ :: _, few =>
      simp only [List.length_cons] at few
      omega

theorem foldlM_checkedMul_ones (start : UInt64) (count : Nat) :
    (List.replicate count (1 : UInt64)).foldlM checkedMul start = some start := by
  induction count with
  | zero => rfl
  | succ count ih =>
      have step : checkedMul start 1 = some start := checkedMul_of_toNat (Nat.mul_one _).symm
      rw [List.replicate_succ, List.foldlM_cons, step]
      exact ih

theorem Declared.elements_ne_none {tensor : Declared} (few : tensor.extents.length ≤ 4) :
    tensor.info.elements ≠ none ↔ ∀ leading, leading <+: tensor.extents →
      (leading.map UInt64.toNat).prod < UInt64.size := by
  have ones : tensor.info.elements = tensor.extents.foldlM checkedMul 1 := by
    rw [TensorInfo.elements, Declared.info_dims few, List.foldlM_append]
    simp only [foldlM_checkedMul_ones]
    exact bind_pure _
  rw [ones, foldlM_checkedMul_ne_none]
  simp only [UInt64.toNat_one, Nat.one_mul]

theorem Header.counts_iff {header : Header} (fits : header.Fits limits) :
    header.Counts ↔ ∀ tensor ∈ header.tensors, tensor.info.elements ≠ none := by
  constructor
  · intro counts tensor member
    exact (Declared.elements_ne_none (fits.tensors tensor member).2).mpr (counts tensor member)
  · intro counted tensor member
    exact (Declared.elements_ne_none (fits.tensors tensor member).2).mp (counted tensor member)

theorem Entry.placed_keys (offset : Nat) (entries : List Entry) :
    (Entry.placed offset entries).map Prod.fst = entries.map Entry.key := by
  induction entries generalizing offset with
  | nil => rfl
  | cons entry entries ih => rw [Entry.placed, List.map_cons, List.map_cons, ih]

/-- Keys that are all different are inserted one behind another. -/
theorem foldl_insert {metadata placed : Metadata}
    (distinct : ((metadata ++ placed).map Prod.fst).Nodup) :
    placed.foldl (fun (metadata : Metadata) entry => metadata.insert entry.1 entry.2) metadata =
      metadata ++ placed := by
  induction placed generalizing metadata with
  | nil => rw [List.append_nil, List.foldl_nil]
  | cons entry placed ih =>
      have others : (metadata.filter fun other => other.1 ≠ entry.1) = metadata := by
        apply List.filter_eq_self.mpr
        intro other member
        rw [decide_eq_true_eq]
        intro same
        rw [List.map_append, List.map_cons] at distinct
        have apart := (List.nodup_append.mp distinct).2.2
        exact apart _ (List.mem_map_of_mem member) _ List.mem_cons_self same
      have inserted : Metadata.insert metadata entry.1 entry.2 = metadata ++ [entry] := by
        rw [Metadata.insert, others]
      rw [List.foldl_cons, inserted, ih, List.append_assoc, List.singleton_append]
      rwa [List.append_assoc, List.singleton_append]

theorem Header.metadata_of_distinct {header : Header}
    (distinct : (header.entries.map Entry.key).Nodup) : header.metadata = header.placed := by
  rw [Header.metadata, foldl_insert, List.nil_append]
  rwa [List.nil_append, Header.placed, Entry.placed_keys]

theorem Header.spells_encode (header : Header) : header.Spells header.encode := by
  refine ⟨header.entries.map Entry.encode, ?_, rfl⟩
  induction header.entries with
  | nil => exact .nil
  | cons entry entries ih => exact .cons ⟨_, rfl, Or.inl rfl⟩ ih

/-- A header of the format, with distinct keys and element counts of 64 bits. -/
structure Header.WellFormed (header : Header) : Prop where
  fits : header.Fits .default
  keys : (header.entries.map Entry.key).Nodup
  counts : ∀ tensor ∈ header.tensors, tensor.count < UInt64.size

/-- A header at the start of a file is read back, with every key, just when no leading extents of a
tensor overflow; and a file from which anything is read begins with what spells it. -/
theorem header_format_iff (contents : Contents) :
    (∀ (header : Header) (rest : List UInt8), header.WellFormed →
      contents.bytes = header.encode ++ rest → header.metadata = header.placed ∧
        (GgufFile.openHeaderOnly contents = .ok (header.file contents.size) ↔ header.Counts)) ∧
    (∀ file : GgufFile, GgufFile.openHeaderOnly contents = .ok file →
      ∃ (header : Header) (bytes rest : List UInt8), contents.bytes = bytes ++ rest ∧
        header.Spells bytes ∧ header.Fits .default ∧ header.Counts ∧
        file = header.file contents.size) := by
  constructor
  · intro header rest wellFormed split
    refine ⟨Header.metadata_of_distinct wellFormed.keys, ?_⟩
    rw [Header.counts_iff wellFormed.fits]
    constructor
    · intro read tensor member
      obtain ⟨other, ⟨_, counted, _⟩, same⟩ := openHeaderOnly_eq_ok.mp read
      have listed : tensor.info ∈ (header.file contents.size).tensors := List.mem_map_of_mem member
      rw [same] at listed
      obtain ⟨read_back, there, equal⟩ := List.mem_map.mp listed
      rw [← equal]
      exact counted read_back there
    · intro counted
      exact openHeaderOnly_eq_ok.mpr ⟨header, ⟨wellFormed.fits, counted, header.encode, rest, split,
        header.spells_encode⟩, rfl⟩
  · intro file read
    obtain ⟨header, ⟨fits, counted, bytes, rest, split, spells⟩, rfl⟩ := openHeaderOnly_eq_ok.mp read
    exact ⟨header, bytes, rest, split, spells, fits, (Header.counts_iff fits).mpr counted, rfl⟩

/-- One tensor, with no name and no data. -/
def bareTensor (extents : List UInt64) : Header where
  version := 3
  entries := []
  tensors := [⟨[], extents, 0, 0⟩]

/-- The extent 0 behind two whose product 64 bits do not hold. -/
def zeroLast : Contents where
  bytes := (bareTensor [0x10000000000, 0x10000000000, 0]).encode
  bounded := by decide +kernel

/-- The extent 0 before them. -/
def zeroFirst : Contents where
  bytes := (bareTensor [0, 0x10000000000, 0x10000000000]).encode
  bounded := by decide +kernel

/-- A tensor without elements is refused for having too many, or read, by the order of its extents. -/
theorem zero_extent_refused :
    (bareTensor [0x10000000000, 0x10000000000, 0]).WellFormed ∧
      GgufFile.openHeaderOnly zeroLast = .error (.dimensionOverflow []) ∧
      GgufFile.openHeaderOnly zeroFirst =
        .ok ((bareTensor [0, 0x10000000000, 0x10000000000]).file 72) := by
  refine ⟨⟨⟨?_, ?_, ?_, ?_, ?_⟩, ?_, ?_⟩, ?_, ?_⟩
  · exact Or.inr rfl
  · intro entry member
    cases member
  · intro tensor member
    cases List.mem_singleton.mp member
    exact ⟨by decide +kernel, by decide +kernel⟩
  · exact ⟨5, by decide +kernel⟩
  · decide +kernel
  · exact List.nodup_nil
  · intro tensor member
    cases List.mem_singleton.mp member
    decide +kernel
  · decide +kernel
  · decide +kernel

/-- An alignment, a list of words and a flag, and a tensor of two dimensions. -/
def sampleHeader : Header where
  version := 2
  entries :=
    [⟨alignmentKey, .plain (.u32 64)⟩, ⟨['w'], .array .string [[0x78], [0x79, 0x7A]]⟩,
      ⟨['n'], .array .u16 [[1, 0], [2, 0]]⟩, ⟨['f'], .plain (.bool true)⟩]
  tensors := [⟨['t'], [2, 3], 0, 0⟩]

/-- The header with two bytes behind it. -/
def sampleContents : Contents where
  bytes := sampleHeader.encode ++ [7, 7]
  bounded := by decide +kernel

theorem sample_header_read :
    sampleHeader.WellFormed ∧
      GgufFile.openHeaderOnly sampleContents = .ok (sampleHeader.file sampleContents.size) ∧
      ∃ (header : Header) (bytes rest : List UInt8), sampleContents.bytes = bytes ++ rest ∧
        header.Spells bytes ∧ header.file sampleContents.size = sampleHeader.file sampleContents.size := by
  have wellFormed : sampleHeader.WellFormed := by
    refine ⟨⟨Or.inl rfl, ?_, ?_, ⟨6, by decide +kernel⟩, by decide +kernel⟩, by decide +kernel, ?_⟩
    · intro entry member
      simp only [sampleHeader, List.mem_cons, List.not_mem_nil, or_false] at member
      rcases member with rfl | rfl | rfl | rfl
      · exact ⟨by decide +kernel, trivial⟩
      · exact ⟨by decide +kernel, by decide +kernel, by decide +kernel⟩
      · exact ⟨by decide +kernel, by decide +kernel, 2, rfl, by decide +kernel⟩
      · exact ⟨by decide +kernel, trivial⟩
    · intro tensor member
      cases List.mem_singleton.mp member
      exact ⟨by decide +kernel, by decide +kernel⟩
    · intro tensor member
      cases List.mem_singleton.mp member
      decide +kernel
  have counts : sampleHeader.Counts := by
    rw [Header.counts_iff wellFormed.fits]
    decide +kernel
  have read := ((header_format_iff sampleContents).1 sampleHeader [7, 7] wellFormed rfl).2.mpr counts
  obtain ⟨header, bytes, rest, split, spells, -, -, same⟩ := (header_format_iff sampleContents).2 _ read
  exact ⟨wellFormed, read, header, bytes, rest, split, spells, same.symm⟩

end Lightweight.Gguf
