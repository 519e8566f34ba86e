import Lightweight.Gguf.RoundTrip

/-! Files that are cut short, and how far and how often a reading of any bytes at all goes. -/

namespace Lightweight.Gguf

open Lightweight.Core Lightweight.Fallible Lightweight.Word64

/-! ### A cut file -/

/-- Where the header of a file ends, if it has one. -/
def headerEnd (contents : Contents) : Nat :=
  match readHeader contents.size (contents.cursor .default) with
  | .ok _ final => final.offset.toNat
  | .error _ _ => 0

/-- Where a tensor's data ends, unbounded, if its type is known. -/
def GgufFile.tensorEnd (file : GgufFile) (tensor : TensorInfo) : Nat :=
  match tensor.footprint with
  | some size => file.dataOffset.toNat + tensor.offset.toNat + size
  | none => 0

/-- The largest end of a tensor. -/
def GgufFile.tensorsEnd (file : GgufFile) : Nat :=
  (file.tensors.map file.tensorEnd).foldr max 0

theorem foldr_max_le {ends : List Nat} {bound : Nat} (within : ∀ last ∈ ends, last ≤ bound) :
    ends.foldr max 0 ≤ bound := by
  induction ends with
  | nil => exact Nat.zero_le bound
  | cons last ends ih =>
      rw [List.forall_mem_cons] at within
      exact max_le within.1 (ih within.2)

theorem openHeaderOnly_of_open {contents : Contents} {file : GgufFile}
    (accepted : GgufFile.open contents = .ok file) : GgufFile.openHeaderOnly contents = .ok file := by
  obtain ⟨final, parsed⟩ := outcome_eq_ok.mp accepted
  exact outcome_eq_ok.mpr (parse_unverified parsed)

/-- The header of a cut file is the header of the whole. -/
theorem Begins.of_cut {cut contents : Contents} {header : Header} (begins : Begins cut header)
    (isCut : cut.bytes <+: contents.bytes) : Begins contents header := by
  rcases begins with ⟨fits, counted, bytes, rest, split, spells⟩
  obtain ⟨lost, whole⟩ := isCut
  refine ⟨fits, counted, bytes, rest ++ lost, ?_, spells⟩
  rw [← whole, split, List.append_assoc]

theorem Begins.headerEnd_eq {contents : Contents} {header : Header} (begins : Begins contents header) :
    headerEnd contents = header.encode.length := by
  have sound := contents.cursor_sound .default
  have parses := parsesAt_readHeader sound rfl (by decide) contents.size
  rcases begins with ⟨fits, counted, bytes, rest, split, spells⟩
  have inside : bytes.length ≤ (contents.cursor .default).inner.length := by
    change bytes.length ≤ contents.bytes.length
    rw [split, List.length_append]
    omega
  have read := (parses _ _).mpr ⟨bytes, rest, split, ⟨header, fits, counted, spells, rfl⟩, rfl⟩
  rw [headerEnd, read]
  dsimp only
  rw [Cursor.toNat_offset_past sound inside, spells.length]
  exact Nat.zero_add _

theorem Begins.length_le {contents : Contents} {header : Header} (begins : Begins contents header) :
    header.encode.length ≤ contents.bytes.length := by
  rcases begins with ⟨_, _, bytes, rest, split, spells⟩
  rw [split, List.length_append, spells.length]
  exact Nat.le_add_right _ _

/-- A cut that is accepted leaves the header and the tensors whole. -/
theorem ends_le_of_cut_accepted {contents cut : Contents} {file other : GgufFile}
    (accepted : GgufFile.open contents = .ok file)
    (sized : ∀ tensor ∈ file.tensors, tensor.ggmlType.isKnown = true ∧ Countable tensor)
    (isCut : cut.bytes <+: contents.bytes) (cut_accepted : GgufFile.open cut = .ok other) :
    max (headerEnd contents) file.tensorsEnd ≤ cut.bytes.length := by
  obtain ⟨header, begins, rfl⟩ := openHeaderOnly_eq_ok.mp (openHeaderOnly_of_open cut_accepted)
  have whole := begins.of_cut isCut
  have same : file = header.file contents.size := by
    have read := openHeaderOnly_eq_ok.mpr ⟨header, whole, rfl⟩
    rw [openHeaderOnly_of_open accepted] at read
    cases read
    rfl
  subst same
  have inside := tensorsInside_of_countable cut_accepted fun tensor member =>
    (sized tensor member).2
  apply max_le
  · rw [whole.headerEnd_eq]
    exact begins.length_le
  · apply foldr_max_le
    intro last member
    obtain ⟨tensor, listed, rfl⟩ := List.mem_map.mp member
    obtain ⟨size, told, ends⟩ := inside tensor listed (sized tensor listed).1
    rw [GgufFile.tensorEnd, told]
    exact ends

/-! ### How far a reading goes -/

/-- A sound cursor in a file of a given length. -/
structure Cursor.Within (limits : ReadLimits) (fileSize : UInt64) (cursor : Cursor) : Prop where
  sound : cursor.Sound limits
  size : cursor.fileSize = fileSize

section Within

variable {limits : ReadLimits} {fileSize : UInt64} {α : Type}

theorem Cursor.Within.offset_le {cursor : Cursor} (within : cursor.Within limits fileSize) :
    cursor.offset.toNat ≤ fileSize.toNat := by
  rw [← within.size, ← within.sound.placed]
  exact Nat.le_add_right _ _

/-- A reading that moves only when it succeeds. -/
theorem keeps_of_parses {m : Reading α} {grammar : Grammar α} (parses : Parses limits m grammar)
    (unmoved : ∀ start error final, m start = .error error final → final = start) :
    Keeps (Cursor.Within limits fileSize) m := by
  constructor
  intro start within
  cases computed : m start with
  | ok value final =>
      obtain ⟨bytes, rest, split, -, rfl⟩ :=
        (parses.parsesAt start within.sound value final).mp computed
      have inside : bytes.length ≤ start.inner.length := by
        rw [split, List.length_append]
        omega
      exact ⟨within.sound.past inside, within.size⟩
  | error error final =>
      cases unmoved start error final computed
      exact within

theorem need_unmoved {len : UInt64} {start final : Cursor} (passed : need len start = .ok () final) :
    final = start :=
  (refuseIf_eq_ok.mp passed).2

theorem need_error {len : UInt64} {start final : Cursor} {error : GgufError}
    (refused : need len start = .error error final) : final = start :=
  (refuseIf_eq_error.mp refused).2.2

theorem readExact_error {count : Nat} {start final : Cursor} {error : GgufError}
    (refused : readExact count start = .error error final) : final = start := by
  rcases bind_eq_error.mp refused with failed | ⟨cursor, middle, looked, rest⟩
  · cases failed
  · cases looked
    rcases bind_eq_error.mp rest with failed | ⟨_, _, _, last⟩
    · exact (refuseIf_eq_error.mp failed).2.2
    · cases last

theorem keeps_readArray {count : Nat} (small : count < UInt64.size) :
    Keeps (Cursor.Within limits fileSize) (readArray count) := by
  apply keeps_of_parses (parses_readArray small)
  intro start error final refused
  rcases bind_eq_error.mp refused with failed | ⟨_, middle, passed, rest⟩
  · exact need_error failed
  · cases need_unmoved passed
    rcases bind_eq_error.mp rest with failed | ⟨_, _, _, last⟩
    · exact readExact_error failed
    · cases last

theorem keeps_readBytes (len : UInt64) :
    Keeps (Cursor.Within limits fileSize) (readBytes len) := by
  apply keeps_of_parses (parses_readBytes len)
  intro start error final refused
  rcases bind_eq_error.mp refused with failed | ⟨_, middle, passed, rest⟩
  · exact need_error failed
  · cases need_unmoved passed
    rcases bind_eq_error.mp rest with failed | ⟨_, _, _, last⟩
    · exact readExact_error failed
    · cases last

theorem keeps_skip (len : UInt64) : Keeps (Cursor.Within limits fileSize) (skip len) := by
  apply keeps_of_parses (parses_skip len)
  intro start error final refused
  rcases bind_eq_error.mp refused with failed | ⟨_, middle, passed, rest⟩
  · exact need_error failed
  · cases need_unmoved passed
    rcases bind_eq_error.mp rest with failed | ⟨cursor, _, looked, rest⟩
    · cases failed
    · cases looked
      rcases bind_eq_error.mp rest with failed | ⟨_, _, _, last⟩
      · exact (refuseIf_eq_error.mp failed).2.2
      · cases last

theorem keeps_readU8 : Keeps (Cursor.Within limits fileSize) readU8 :=
  (keeps_readArray (by decide)).bind fun _ => Keeps.pure _

theorem keeps_readU16 : Keeps (Cursor.Within limits fileSize) readU16 :=
  (keeps_readArray (by decide)).bind fun _ => Keeps.pure _

theorem keeps_readU32 : Keeps (Cursor.Within limits fileSize) readU32 :=
  (keeps_readArray (by decide)).bind fun _ => Keeps.pure _

theorem keeps_readU64 : Keeps (Cursor.Within limits fileSize) readU64 :=
  (keeps_readArray (by decide)).bind fun _ => Keeps.pure _

theorem keeps_ensureFits (what : String) (claimed available offset : UInt64) :
    Keeps (Cursor.Within limits fileSize) (ensureFits what claimed available offset) :=
  Keeps.refuseIf _

theorem keeps_checkMetadataBudget : Keeps (Cursor.Within limits fileSize) checkMetadataBudget :=
  Keeps.get.bind fun _ => Keeps.refuseIf _

theorem keeps_checkStringBytes (len : UInt64) :
    Keeps (Cursor.Within limits fileSize) (checkStringBytes len) :=
  Keeps.get.bind fun _ => Keeps.refuseIf _

theorem keeps_readString (context : List Char) :
    Keeps (Cursor.Within limits fileSize) (readString context) := by
  apply keeps_readU64.bind
  intro len
  apply (keeps_checkStringBytes len).bind
  intro _
  apply Keeps.get.bind
  intro cursor
  apply (keeps_readBytes len).bind
  intro bytes
  exact Keeps.okOr _ _

theorem keeps_readValueType (key : List Char) :
    Keeps (Cursor.Within limits fileSize) (readValueType key) := by
  apply Keeps.get.bind
  intro cursor
  apply keeps_readU32.bind
  intro tag
  exact Keeps.okOr _ _

/-- One element of an array of strings, passed over. -/
def skipString : Reading Unit := do
  let elementLen ← readU64
  checkStringBytes elementLen
  skip elementLen

theorem keeps_skipString : Keeps (Cursor.Within limits fileSize) skipString := by
  apply keeps_readU64.bind
  intro len
  apply (keeps_checkStringBytes len).bind
  intro _
  exact keeps_skip len

theorem skipStrings_succ (count : Nat) :
    skipStrings (count + 1) = skipString >>= fun _ => skipStrings count := by
  simp only [skipStrings, skipString, bind_assoc]

theorem keeps_skipStrings (count : Nat) :
    Keeps (Cursor.Within limits fileSize) (skipStrings count) := by
  induction count with
  | zero => exact Keeps.pure ()
  | succ count ih =>
      rw [skipStrings_succ]
      exact keeps_skipString.bind fun _ => ih

theorem keeps_skipElements (elementType : GgufValueType) (len : UInt64) :
    Keeps (Cursor.Within limits fileSize) (skipElements elementType len) := by
  apply Keeps.get.bind
  intro cursor
  split
  · apply (keeps_ensureFits _ _ _ _).bind
    intro _
    apply (keeps_skipStrings _).bind
    intro _
    apply Keeps.get.bind
    intro final
    exact Keeps.pure _
  · apply (Keeps.okOr _ _).bind
    intro byteLen
    apply (keeps_skip byteLen).bind
    intro _
    exact Keeps.pure _

/-- The element type and the length of an array. -/
def readArrayHead (key : List Char) : Reading (GgufValueType × UInt64) := do
  let cursor ← get
  let elementType ← readValueType key
  refuseIf (elementType = .array) (.nestedArray key cursor.offset)
  let len ← readU64
  pure (elementType, len)

theorem readArraySummary_eq (key : List Char) :
    readArraySummary key = (do
      let head ← readArrayHead key
      let start ← get
      let byteLen ← skipElements head.1 head.2
      pure ⟨head.1, head.2, start.offset, byteLen⟩) := by
  simp only [readArraySummary, readArrayHead, bind_assoc, pure_bind]

theorem keeps_readArrayHead (key : List Char) :
    Keeps (Cursor.Within limits fileSize) (readArrayHead key) := by
  apply Keeps.get.bind
  intro cursor
  apply (keeps_readValueType key).bind
  intro elementType
  apply (Keeps.refuseIf _).bind
  intro _
  apply keeps_readU64.bind
  intro len
  exact Keeps.pure _

theorem keeps_readArraySummary (key : List Char) :
    Keeps (Cursor.Within limits fileSize) (readArraySummary key) := by
  rw [readArraySummary_eq]
  apply (keeps_readArrayHead key).bind
  intro head
  apply Keeps.get.bind
  intro start
  apply (keeps_skipElements _ _).bind
  intro byteLen
  exact Keeps.pure _

theorem keeps_readValue (key : List Char) (valueType : GgufValueType) :
    Keeps (Cursor.Within limits fileSize) (readValue key valueType) := by
  cases valueType with
  | u8 | i8 | bool => exact keeps_readU8.map _
  | u16 | i16 => exact keeps_readU16.map _
  | u32 | i32 | f32 => exact keeps_readU32.map _
  | u64 | i64 | f64 => exact keeps_readU64.map _
  | string => exact (keeps_readString key).map _
  | array => exact (keeps_readArraySummary key).map _

/-- A key and the type of its value. -/
def readKvHead : Reading (List Char × GgufValueType) := do
  let key ← readString "<key>".toList
  let valueType ← readValueType key
  pure (key, valueType)

theorem readKv_eq :
    readKv = (do
      let head ← readKvHead
      let value ← readValue head.1 head.2
      pure (head.1, value)) := by
  simp only [readKv, readKvHead, bind_assoc, pure_bind]

theorem keeps_readKvHead : Keeps (Cursor.Within limits fileSize) readKvHead := by
  apply (keeps_readString _).bind
  intro key
  apply (keeps_readValueType key).bind
  intro valueType
  exact Keeps.pure _

theorem keeps_readKv : Keeps (Cursor.Within limits fileSize) readKv := by
  rw [readKv_eq]
  apply keeps_readKvHead.bind
  intro head
  apply (keeps_readValue _ _).bind
  intro value
  exact Keeps.pure _

theorem keeps_readDims (name : List Char) (nDims : UInt32) (count index : Nat)
    (dims : Vector UInt64 4) :
    Keeps (Cursor.Within limits fileSize) (readDims name nDims count index dims) := by
  induction count generalizing index dims with
  | zero => exact Keeps.pure dims
  | succ count ih =>
      apply keeps_readU64.bind
      intro extent
      apply (Keeps.refuseIf _).bind
      intro _
      exact ih _ _

theorem keeps_readTensorInfo : Keeps (Cursor.Within limits fileSize) readTensorInfo := by
  apply (keeps_readString _).bind
  intro name
  apply keeps_readU32.bind
  intro nDims
  apply (Keeps.refuseIf _).bind
  intro _
  apply (keeps_readDims _ _ _ _ _).bind
  intro dims
  apply keeps_readU32.bind
  intro typeId
  apply keeps_readU64.bind
  intro offset
  apply (Keeps.refuseIf _).bind
  intro _
  exact Keeps.pure _

/-- One turn of the loop over the keys. -/
def readEntry : Reading (List Char × GgufValue) := do
  let entry ← readKv
  checkMetadataBudget
  pure entry

theorem keeps_readEntry : Keeps (Cursor.Within limits fileSize) readEntry :=
  keeps_readKv.bind fun _ => keeps_checkMetadataBudget.bind fun _ => Keeps.pure _

theorem readMetadata_succ (count : Nat) (metadata : Metadata) :
    readMetadata (count + 1) metadata =
      readEntry >>= fun entry => readMetadata count (metadata.insert entry.1 entry.2) := by
  simp only [readMetadata, readEntry, bind_assoc, pure_bind]

theorem keeps_readMetadata (count : Nat) (metadata : Metadata) :
    Keeps (Cursor.Within limits fileSize) (readMetadata count metadata) := by
  induction count generalizing metadata with
  | zero => exact Keeps.pure metadata
  | succ count ih =>
      rw [readMetadata_succ]
      exact keeps_readEntry.bind fun _ => ih _

/-- One turn of the loop over the tensors. -/
def readTensor : Reading TensorInfo := do
  let tensor ← readTensorInfo
  checkMetadataBudget
  pure tensor

theorem keeps_readTensor : Keeps (Cursor.Within limits fileSize) readTensor :=
  keeps_readTensorInfo.bind fun _ => keeps_checkMetadataBudget.bind fun _ => Keeps.pure _

theorem readTensors_succ (count : Nat) :
    readTensors (count + 1) = (do
      let tensor ← readTensor
      let tensors ← readTensors count
      pure (tensor :: tensors)) := by
  simp only [readTensors, readTensor, bind_assoc, pure_bind]

theorem keeps_readTensors (count : Nat) :
    Keeps (Cursor.Within limits fileSize) (readTensors count) := by
  induction count with
  | zero => exact Keeps.pure []
  | succ count ih =>
      rw [readTensors_succ]
      exact keeps_readTensor.bind fun _ => ih.bind fun _ => Keeps.pure _

theorem keeps_readEntries (kvCount : UInt64) :
    Keeps (Cursor.Within limits fileSize) (readEntries kvCount) :=
  Keeps.get.bind fun _ => (keeps_ensureFits _ _ _ _).bind fun _ => keeps_readMetadata _ _

theorem keeps_readDeclared (tensorCount : UInt64) :
    Keeps (Cursor.Within limits fileSize) (readDeclared tensorCount) :=
  Keeps.get.bind fun _ => (keeps_ensureFits _ _ _ _).bind fun _ => keeps_readTensors _

/-- What stands before the tensors, with the alignment that is made of it. -/
def readDescription : Reading (Preamble × Metadata × UInt64) := do
  let preamble ← readPreamble
  let metadata ← readEntries preamble.kvCount
  let alignment ← propagate (resolveAlignment metadata)
  pure (preamble, metadata, alignment)

theorem readHeader_eq_description (size : UInt64) :
    readHeader size = (do
      let described ← readDescription
      let tensors ← readDeclared described.1.tensorCount
      let cursor ← get
      pure (assemble size described.1.version described.2.2 described.2.1 tensors cursor.offset)) := by
  simp only [readHeader_eq, readDescription, bind_assoc, pure_bind]

theorem keeps_readPreamble : Keeps (Cursor.Within limits fileSize) readPreamble := by
  apply (keeps_readArray (by decide)).bind
  intro found
  apply (Keeps.refuseIf _).bind
  intro _
  apply keeps_readU32.bind
  intro version
  apply (Keeps.refuseIf _).bind
  intro _
  apply keeps_readU64.bind
  intro tensorCount
  apply keeps_readU64.bind
  intro kvCount
  exact Keeps.pure _

theorem keeps_readDescription : Keeps (Cursor.Within limits fileSize) readDescription := by
  apply keeps_readPreamble.bind
  intro preamble
  apply (keeps_readEntries _).bind
  intro metadata
  apply (Keeps.propagate _).bind
  intro alignment
  exact Keeps.pure _

theorem keeps_parse (size : UInt64) (verifyData : Bool) :
    Keeps (Cursor.Within limits fileSize) (parse size verifyData) := by
  rw [parse, readHeader_eq_description]
  apply (keeps_readDescription.bind fun _ => (keeps_readDeclared _).bind fun _ =>
    Keeps.get.bind fun _ => Keeps.pure _).bind
  intro file
  apply (Keeps.propagate _).bind
  intro _
  exact Keeps.pure _

theorem Contents.cursor_within (contents : Contents) (limits : ReadLimits) :
    (contents.cursor limits).Within limits contents.size :=
  ⟨contents.cursor_sound limits, rfl⟩

/-! ### How often a loop turns -/

/-- The turns of a loop behind the check of its count. -/
def checkedTurns (what : String) (count least : UInt64) (turn : Reading α) (cursor : Cursor) :
    List Cursor :=
  turnsAfter (ensureFits what (saturatingMul count least) cursor.remaining cursor.offset)
    (fun _ => turns turn count.toNat) cursor

theorem length_checkedTurns_le (what : String) (count : UInt64) {least : UInt64}
    (positive : 0 < least.toNat) (turn : Reading α) {cursor : Cursor}
    (within : cursor.Within limits fileSize) :
    (checkedTurns what count least turn cursor).length ≤ fileSize.toNat / least.toNat := by
  unfold checkedTurns turnsAfter
  split
  · rename_i passed
    obtain ⟨fits, rfl⟩ := refuseIf_eq_ok.mp passed
    rw [UInt64.lt_iff_toNat_lt, toNat_saturatingMul, Cursor.toNat_remaining within.sound] at fits
    have placed := within.sound.placed
    have bounded := within.sound.bounded
    have wide : UInt64.size = 2 ^ 64 := rfl
    rw [Nat.le_div_iff_mul_le positive, ← within.size]
    calc
      (turns turn count.toNat _).length * least.toNat
          ≤ count.toNat * least.toNat := Nat.mul_le_mul_right _ (length_turns_le turn _ _)
      _ ≤ _ := by omega
  · exact Nat.zero_le _

/-- The cursors at which the turns of the loop over the keys begin. -/
def keyTurns (contents : Contents) (limits : ReadLimits) : List Cursor :=
  turnsAfter readPreamble
    (fun preamble => checkedTurns "metadata keys" preamble.kvCount minKvBytes readEntry)
    (contents.cursor limits)

/-- The same for the loop over the tensors. -/
def tensorTurns (contents : Contents) (limits : ReadLimits) : List Cursor :=
  turnsAfter readDescription
    (fun described => checkedTurns "tensors" described.1.tensorCount minTensorBytes readTensor)
    (contents.cursor limits)

/-- The same for the loop over the strings of an array, in the turn of the array's key. -/
def stringTurns (key : Cursor) : List Cursor :=
  turnsAfter readKvHead
    (fun head => if head.2 = .array then
      turnsAfter (readArrayHead head.1) fun array => if array.1 = .string then
          checkedTurns "array elements" array.2 8 skipString
        else fun _ => []
      else fun _ => [])
    key

/-- What comes behind a reading begins in the same file. -/
theorem turnsAfter_within {m : Reading α} (keeps : Keeps (Cursor.Within limits fileSize) m)
    {rest : α → Cursor → List Cursor} (property : List Cursor → Prop) (none_left : property [])
    (behind : ∀ value cursor, cursor.Within limits fileSize → property (rest value cursor))
    {start : Cursor} (within : start.Within limits fileSize) :
    property (turnsAfter m rest start) := by
  unfold turnsAfter
  cases computed : m start with
  | ok value final => exact behind value final (keeps.ok within computed)
  | error error final => exact none_left

theorem checkedTurns_within (what : String) (count least : UInt64) {turn : Reading α}
    (keeps : Keeps (Cursor.Within limits fileSize) turn) {cursor : Cursor}
    (within : cursor.Within limits fileSize) :
    ∀ start ∈ checkedTurns what count least turn cursor, start.Within limits fileSize := by
  apply turnsAfter_within (keeps_ensureFits _ _ _ _) (fun starts =>
    ∀ start ∈ starts, start.Within limits fileSize)
  · intro start member
    cases member
  · intro _ cursor within
    exact turns_keep keeps within
  · exact within

theorem length_keyTurns_le (contents : Contents) (limits : ReadLimits) :
    (keyTurns contents limits).length ≤ contents.size.toNat / 12 := by
  refine turnsAfter_within keeps_readPreamble (fun starts =>
    starts.length ≤ contents.size.toNat / 12) (Nat.zero_le _) ?_ (contents.cursor_within limits)
  intro preamble cursor within
  exact length_checkedTurns_le _ _ (by decide) _ within

theorem length_tensorTurns_le (contents : Contents) (limits : ReadLimits) :
    (tensorTurns contents limits).length ≤ contents.size.toNat / 24 := by
  refine turnsAfter_within keeps_readDescription (fun starts =>
    starts.length ≤ contents.size.toNat / 24) (Nat.zero_le _) ?_ (contents.cursor_within limits)
  intro described cursor within
  exact length_checkedTurns_le _ _ (by decide) _ within

theorem keyTurns_within (contents : Contents) (limits : ReadLimits) :
    ∀ key ∈ keyTurns contents limits, key.Within limits contents.size := by
  refine turnsAfter_within keeps_readPreamble (fun starts =>
    ∀ key ∈ starts, key.Within limits contents.size) ?_ ?_ (contents.cursor_within limits)
  · intro key member
    cases member
  · intro preamble cursor within
    exact checkedTurns_within _ _ _ keeps_readEntry within

theorem length_stringTurns_le {key : Cursor} (within : key.Within limits fileSize) :
    (stringTurns key).length ≤ fileSize.toNat / 8 := by
  refine turnsAfter_within keeps_readKvHead (fun starts =>
    starts.length ≤ fileSize.toNat / 8) (Nat.zero_le _) ?_ within
  intro head cursor within
  split
  · refine turnsAfter_within (keeps_readArrayHead _) (fun starts =>
      starts.length ≤ fileSize.toNat / 8) (Nat.zero_le _) ?_ within
    intro array cursor within
    split
    · exact length_checkedTurns_le _ _ (by decide) _ within
    · exact Nat.zero_le _
  · exact Nat.zero_le _

end Within

/-- A file that is accepted with all its tensors sized is refused when it is cut inside its header or
inside a tensor. No file is read past its end, and no loop turns more often than entries fit in. -/
theorem truncation_detected (contents : Contents) :
    (∀ (file : GgufFile) (cut : Contents), GgufFile.open contents = .ok file →
      (∀ tensor ∈ file.tensors, tensor.ggmlType.isKnown = true ∧ Countable tensor) →
      cut.bytes <+: contents.bytes →
      cut.bytes.length < max (headerEnd contents) file.tensorsEnd →
      ∃ error, GgufFile.open cut = .error error) ∧
    (∀ (limits : ReadLimits) (verifyData : Bool),
      (finalOf (parse contents.size verifyData (contents.cursor limits))).offset.toNat ≤
        contents.bytes.length) ∧
    (∀ limits : ReadLimits,
      (keyTurns contents limits).length ≤ contents.bytes.length / 12 ∧
      (∀ key ∈ keyTurns contents limits, (stringTurns key).length ≤ contents.bytes.length / 8) ∧
      (tensorTurns contents limits).length ≤ contents.bytes.length / 24) := by
  rw [← contents.size_toNat]
  refine ⟨?_, ?_, ?_⟩
  · intro file cut accepted sized isCut short
    cases opened : GgufFile.open cut with
    | error error => exact ⟨error, rfl⟩
    | ok other =>
        have whole := ends_le_of_cut_accepted accepted sized isCut opened
        omega
  · intro limits verifyData
    have kept := (keeps_parse contents.size verifyData).kept _ (contents.cursor_within limits)
    exact kept.offset_le
  · intro limits
    refine ⟨length_keyTurns_le contents limits, ?_, length_tensorTurns_le contents limits⟩
    intro key member
    exact length_stringTurns_le (keyTurns_within contents limits key member)

/-- The file of one element without its last byte. -/
def oneByteShort : Contents where
  bytes := oneElement.bytes.dropLast
  bounded := by decide

theorem one_byte_short_refused :
    GgufFile.open oneElement = .ok (singleTensorFile 1 68) ∧
      ∃ error, GgufFile.open oneByteShort = .error error := by
  have accepted : GgufFile.open oneElement = .ok (singleTensorFile 1 68) := by
    decide +kernel
  refine ⟨accepted, (truncation_detected oneElement).1 _ oneByteShort accepted ?_ ?_ ?_⟩
  · intro tensor member
    cases List.mem_singleton.mp member
    refine ⟨rfl, ?_⟩
    intro size told
    cases told
    decide +kernel
  · exact List.dropLast_prefix _
  · decide +kernel

end Lightweight.Gguf
