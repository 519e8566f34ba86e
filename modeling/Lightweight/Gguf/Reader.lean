import Lightweight.Core.Ggml
import Lightweight.Fallible
import Lightweight.Utf8
import Lightweight.Word64

/-! The GGUF header reader: a cursor over a file's bytes that refuses a read before it is made, the
values and tensor entries of the header, and the check that the weights are in the file. -/

namespace Lightweight.Gguf

open Lightweight.Core Lightweight.Fallible Lightweight.Word64

/-- The on-disk type of a metadata value. -/
inductive GgufValueType where
  | u8 | i8 | u16 | i16 | u32 | i32 | f32 | bool | string | array | u64 | i64 | f64
deriving DecidableEq, Repr

def GgufValueType.fromTag (tag : UInt32) : Option GgufValueType :=
  match tag with
  | 0 => some .u8
  | 1 => some .i8
  | 2 => some .u16
  | 3 => some .i16
  | 4 => some .u32
  | 5 => some .i32
  | 6 => some .f32
  | 7 => some .bool
  | 8 => some .string
  | 9 => some .array
  | 10 => some .u64
  | 11 => some .i64
  | 12 => some .f64
  | _ => none

/-- The width in bytes, for the types that have one. -/
def GgufValueType.fixedWidth : GgufValueType → Option UInt64
  | .u8 | .i8 | .bool => some 1
  | .u16 | .i16 => some 2
  | .u32 | .i32 | .f32 => some 4
  | .u64 | .i64 | .f64 => some 8
  | .string | .array => none

/-- Where an array lives and of what shape it is. Its contents are not held. -/
structure ArraySummary where
  elementType : GgufValueType
  len : UInt64
  /-- The file offset of the first element. -/
  offset : UInt64
  byteLen : UInt64
deriving DecidableEq, Repr

/-- A metadata value. A floating-point number is held as its bits. -/
inductive GgufValue where
  | u8 (value : UInt8)
  | i8 (value : Int8)
  | u16 (value : UInt16)
  | i16 (value : Int16)
  | u32 (value : UInt32)
  | i32 (value : Int32)
  | u64 (value : UInt64)
  | i64 (value : Int64)
  | f32 (bits : UInt32)
  | f64 (bits : UInt64)
  | bool (value : Bool)
  | string (value : List Char)
  | array (summary : ArraySummary)
deriving DecidableEq

/-- A signed number that is not negative, as an unsigned one. -/
def unsigned (value : Int) : Option UInt64 :=
  if 0 ≤ value then some (UInt64.ofNat value.toNat) else none

def GgufValue.asU64 : GgufValue → Option UInt64
  | .u8 value => some value.toUInt64
  | .u16 value => some value.toUInt64
  | .u32 value => some value.toUInt64
  | .u64 value => some value
  | .i8 value => unsigned value.toInt
  | .i16 value => unsigned value.toInt
  | .i32 value => unsigned value.toInt
  | .i64 value => unsigned value.toInt
  | _ => none

/-- Why a file is refused. The errors of opening it have no place here: the bytes are given. -/
inductive GgufError where
  | read (offset : UInt64)
  | badMagic (found : List UInt8)
  | unsupportedVersion (found min max : UInt32)
  | truncated (offset needed available : UInt64)
  | unknownValueType (key : List Char) (valueType : UInt32) (offset : UInt64)
  | nestedArray (key : List Char) (offset : UInt64)
  | invalidUtf8 (key : List Char) (offset : UInt64)
  | metadataTooLarge (claimed limit : UInt64)
  | implausibleCount (what : String) (claimed available offset : UInt64)
  | tooManyDimensions (name : List Char) (dims limit : UInt32)
  | dimensionOverflow (name : List Char)
deriving DecidableEq

def fixedArrayByteLen (elementType : GgufValueType) (len : UInt64) : Option UInt64 :=
  elementType.fixedWidth.bind (checkedMul · len)

/-- Caps on what a corrupt length can ask for. -/
structure ReadLimits where
  maxMetadataBytes : UInt64
  maxStringBytes : UInt64
deriving DecidableEq

def ReadLimits.default : ReadLimits where
  maxMetadataBytes := 64 * 1024 * 1024
  maxStringBytes := 16 * 1024 * 1024

def magic : List UInt8 := [0x47, 0x47, 0x55, 0x46]
def minVersion : UInt32 := 2
def maxVersion : UInt32 := 3
def defaultAlignment : UInt64 := 32
def maxDims : UInt32 := 4
def alignmentKey : List Char := "general.alignment".toList
def minKvBytes : UInt64 := 12
def minTensorBytes : UInt64 := 24

/-- A position in a file: what is still to be read of it, and how far the reading is. -/
structure Cursor where
  inner : List UInt8
  offset : UInt64
  fileSize : UInt64
  limits : ReadLimits

abbrev Reading (α : Type) : Type := EStateM GgufError Cursor α

def Cursor.remaining (cursor : Cursor) : UInt64 := saturatingSub cursor.fileSize cursor.offset

/-- Refuses a length that is more than there is room for. -/
def ensureFits (what : String) (claimed available offset : UInt64) : Reading Unit :=
  refuseIf (available < claimed) (.implausibleCount what claimed available offset)

/-- Refuses a read that runs past the end of the file. -/
def need (bytes : UInt64) : Reading Unit := do
  let cursor ← get
  refuseIf (cursor.remaining < bytes) (.truncated cursor.offset bytes cursor.remaining)

def checkMetadataBudget : Reading Unit := do
  let cursor ← get
  refuseIf (cursor.limits.maxMetadataBytes < cursor.offset)
    (.metadataTooLarge cursor.offset cursor.limits.maxMetadataBytes)

/-- `read_exact` of so many bytes. -/
def readExact (count : Nat) : Reading (List UInt8) := do
  let cursor ← get
  refuseIf (cursor.inner.length < count) (.read cursor.offset)
  set { cursor with inner := cursor.inner.drop count }
  pure (cursor.inner.take count)

def advance (len : UInt64) : Reading Unit :=
  modify fun cursor => { cursor with offset := saturatingAdd cursor.offset len }

def readArray (count : Nat) : Reading (List UInt8) := do
  need (UInt64.ofNat count)
  let buffer ← readExact count
  advance (UInt64.ofNat count)
  pure buffer

/-- Every length is a `usize` here: the build is a 64-bit one. -/
def readBytes (len : UInt64) : Reading (List UInt8) := do
  need len
  let buffer ← readExact len.toNat
  advance len
  pure buffer

def skip (len : UInt64) : Reading Unit := do
  need len
  let cursor ← get
  -- a seek takes a signed distance
  refuseIf (2 ^ 63 ≤ len.toNat)
    (.implausibleCount "bytes to skip" len cursor.remaining cursor.offset)
  set { cursor with inner := cursor.inner.drop len.toNat }
  advance len

/-- The number that bytes spell, the least significant first. -/
def fromLeBytes : List UInt8 → Nat
  | [] => 0
  | byte :: bytes => byte.toNat + 256 * fromLeBytes bytes

def readU8 : Reading UInt8 := do
  let bytes ← readArray 1
  pure (UInt8.ofNat (fromLeBytes bytes))

def readU16 : Reading UInt16 := do
  let bytes ← readArray 2
  pure (UInt16.ofNat (fromLeBytes bytes))

def readU32 : Reading UInt32 := do
  let bytes ← readArray 4
  pure (UInt32.ofNat (fromLeBytes bytes))

def readU64 : Reading UInt64 := do
  let bytes ← readArray 8
  pure (UInt64.ofNat (fromLeBytes bytes))

/-- Refuses a string longer than the limit. -/
def checkStringBytes (len : UInt64) : Reading Unit := do
  let cursor ← get
  refuseIf (cursor.limits.maxStringBytes < len)
    (.implausibleCount "string bytes" len cursor.limits.maxStringBytes cursor.offset)

def readString (context : List Char) : Reading (List Char) := do
  let len ← readU64
  checkStringBytes len
  let cursor ← get
  let bytes ← readBytes len
  okOr (Utf8.fromUtf8 bytes) (.invalidUtf8 context cursor.offset)

/-- The string elements of an array, passed over one by one. -/
def skipStrings : Nat → Reading Unit
  | 0 => pure ()
  | count + 1 => do
      let elementLen ← readU64
      checkStringBytes elementLen
      skip elementLen
      skipStrings count

/-- The contents of an array, passed over, with the bytes they take. -/
def skipElements (elementType : GgufValueType) (len : UInt64) : Reading UInt64 := do
  let cursor ← get
  if elementType = .string then
    ensureFits "array elements" (saturatingMul len 8) cursor.remaining cursor.offset
    skipStrings len.toNat
    let final ← get
    pure (saturatingSub final.offset cursor.offset)
  else
    let byteLen ← okOr (fixedArrayByteLen elementType len)
      (.implausibleCount "array elements" len cursor.remaining cursor.offset)
    skip byteLen
    pure byteLen

def readValueType (key : List Char) : Reading GgufValueType := do
  let cursor ← get
  let tag ← readU32
  okOr (GgufValueType.fromTag tag) (.unknownValueType key tag cursor.offset)

def readArraySummary (key : List Char) : Reading ArraySummary := do
  let cursor ← get
  let elementType ← readValueType key
  refuseIf (elementType = .array) (.nestedArray key cursor.offset)
  let len ← readU64
  let start ← get
  let byteLen ← skipElements elementType len
  pure { elementType, len, offset := start.offset, byteLen }

def readValue (key : List Char) : GgufValueType → Reading GgufValue
  | .u8 => .u8 <$> readU8
  | .i8 => (fun value => .i8 value.toInt8) <$> readU8
  | .u16 => .u16 <$> readU16
  | .i16 => (fun value => .i16 value.toInt16) <$> readU16
  | .u32 => .u32 <$> readU32
  | .i32 => (fun value => .i32 value.toInt32) <$> readU32
  | .u64 => .u64 <$> readU64
  | .i64 => (fun value => .i64 value.toInt64) <$> readU64
  | .f32 => .f32 <$> readU32
  | .f64 => .f64 <$> readU64
  | .bool => (fun value => .bool (value != 0)) <$> readU8
  | .string => .string <$> readString key
  | .array => .array <$> readArraySummary key

def readKv : Reading (List Char × GgufValue) := do
  let key ← readString "<key>".toList
  let valueType ← readValueType key
  let value ← readValue key valueType
  pure (key, value)

/-- One tensor's entry in the header. -/
structure TensorInfo where
  name : List Char
  /-- The extents, 1 for a dimension the entry does not have. -/
  dims : Vector UInt64 4
  nDims : UInt32
  ggmlType : GgmlType
  /-- The offset in the data section. -/
  offset : UInt64
deriving DecidableEq

def TensorInfo.elements (tensor : TensorInfo) : Option UInt64 :=
  tensor.dims.toList.foldlM checkedMul 1

def TensorInfo.byteSize (tensor : TensorInfo) : Option UInt64 :=
  tensor.elements.bind tensor.ggmlType.bytesForElements

/-- The extents that an entry names, from one dimension on. -/
def readDims (name : List Char) (nDims : UInt32) :
    Nat → Nat → Vector UInt64 4 → Reading (Vector UInt64 4)
  | 0, _, dims => pure dims
  | count + 1, index, dims => do
      let extent ← readU64
      refuseIf (4 ≤ index) (.tooManyDimensions name nDims maxDims)
      readDims name nDims count (index + 1) (dims.setIfInBounds index extent)

def readTensorInfo : Reading TensorInfo := do
  let name ← readString "<tensor name>".toList
  let nDims ← readU32
  refuseIf (maxDims < nDims) (.tooManyDimensions name nDims maxDims)
  let dims ← readDims name nDims nDims.toNat 0 (Vector.replicate 4 1)
  let typeId ← readU32
  let offset ← readU64
  let info : TensorInfo := { name, dims, nDims, ggmlType := .fromId typeId, offset }
  refuseIf (info.elements = none) (.dimensionOverflow info.name)
  pure info

/-- Metadata, one value for a key. -/
abbrev Metadata : Type := List (List Char × GgufValue)

def Metadata.get? (metadata : Metadata) (key : List Char) : Option GgufValue :=
  (metadata.find? fun entry => entry.1 = key).map Prod.snd

/-- A key that is there already gets the new value. -/
def Metadata.insert (metadata : Metadata) (key : List Char) (value : GgufValue) : Metadata :=
  (metadata.filter fun entry => entry.1 ≠ key) ++ [(key, value)]

/-- A parsed header. -/
structure GgufFile where
  version : UInt32
  alignment : UInt64
  metadata : Metadata
  tensors : List TensorInfo
  dataOffset : UInt64
  fileSize : UInt64
deriving DecidableEq

def readMetadata : Nat → Metadata → Reading Metadata
  | 0, metadata => pure metadata
  | count + 1, metadata => do
      let entry ← readKv
      checkMetadataBudget
      readMetadata count (metadata.insert entry.1 entry.2)

def readTensors : Nat → Reading (List TensorInfo)
  | 0 => pure []
  | count + 1 => do
      let tensor ← readTensorInfo
      checkMetadataBudget
      let tensors ← readTensors count
      pure (tensor :: tensors)

/-- `general.alignment`, if it is a power of two. -/
def resolveAlignment (metadata : Metadata) : Except GgufError UInt64 :=
  match metadata.get? alignmentKey with
  | none => .ok defaultAlignment
  | some value =>
      let alignment := value.asU64.getD 0
      if alignment = 0 ∨ ¬alignment.toNat.isPowerOfTwo then
        .error (.implausibleCount "byte alignment (must be a power of two)" alignment
          defaultAlignment 0)
      else .ok alignment

def alignUp (offset alignment : UInt64) : UInt64 :=
  if alignment = 0 ∨ offset % alignment = 0 then offset
  else saturatingAdd offset (saturatingSub alignment (offset % alignment))

/-- One tensor's data, as far as its type can be sized, must be in the file. -/
def GgufFile.verifyTensor (file : GgufFile) (tensor : TensorInfo) : Except GgufError Unit :=
  match tensor.byteSize with
  | none => .ok ()
  | some size =>
      let start := saturatingAdd file.dataOffset tensor.offset
      if file.fileSize < saturatingAdd start size then
        .error (.truncated start size (saturatingSub file.fileSize start))
      else .ok ()

def GgufFile.verifyTensorDataPresent (file : GgufFile) : Except GgufError Unit :=
  checkAll file.verifyTensor file.tensors

/-- The bytes of all the weights, if every tensor can be sized. -/
def GgufFile.weightBytes (file : GgufFile) : Option UInt64 :=
  file.tensors.foldlM (fun total tensor => tensor.byteSize.bind (checkedAdd total)) 0

/-- The header, from the magic to the start of the data section. -/
def readHeader (fileSize : UInt64) : Reading GgufFile := do
  let found ← readArray 4
  refuseIf (found ≠ magic) (.badMagic found)
  let version ← readU32
  refuseIf (¬(minVersion ≤ version ∧ version ≤ maxVersion))
    (.unsupportedVersion version minVersion maxVersion)
  let tensorCount ← readU64
  let kvCount ← readU64
  let counted ← get
  ensureFits "metadata keys" (saturatingMul kvCount minKvBytes) counted.remaining counted.offset
  let metadata ← readMetadata kvCount.toNat []
  let alignment ← propagate (resolveAlignment metadata)
  let described ← get
  ensureFits "tensors" (saturatingMul tensorCount minTensorBytes) described.remaining
    described.offset
  let tensors ← readTensors tensorCount.toNat
  let cursor ← get
  -- the data section is padded only if there is data
  let dataOffset := if tensors.isEmpty then cursor.offset else alignUp cursor.offset alignment
  pure { version, alignment, metadata, tensors, dataOffset, fileSize }

def parse (fileSize : UInt64) (verifyData : Bool) : Reading GgufFile := do
  let file ← readHeader fileSize
  propagate (if verifyData then file.verifyTensorDataPresent else .ok ())
  pure file

/-- A file on disk. Its length is a signed 64-bit number. -/
structure Contents where
  bytes : List UInt8
  bounded : bytes.length < 2 ^ 63

def Contents.size (contents : Contents) : UInt64 := UInt64.ofNat contents.bytes.length

def GgufFile.openInner (contents : Contents) (limits : ReadLimits) (verifyData : Bool) :
    Except GgufError GgufFile :=
  outcome (parse contents.size verifyData)
    { inner := contents.bytes, offset := 0, fileSize := contents.size, limits }

def GgufFile.openWithLimits (contents : Contents) (limits : ReadLimits) :
    Except GgufError GgufFile :=
  openInner contents limits true

def GgufFile.open (contents : Contents) : Except GgufError GgufFile :=
  openWithLimits contents .default

/-- Without the check that the weights are there. -/
def GgufFile.openHeaderOnly (contents : Contents) : Except GgufError GgufFile :=
  openInner contents .default false

end Lightweight.Gguf
