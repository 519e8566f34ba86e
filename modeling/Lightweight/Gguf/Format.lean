import Lightweight.Gguf.Reader

/-! The GGUF header as a format: what a header holds and how it is written, with no reader in sight.
Of an array only the shape comes back, so its elements are kept as the bytes they are written in. -/

namespace Lightweight.Gguf

open Lightweight.Core Lightweight.Word64

/-- A number in so many bytes, the least significant first. -/
def toLeBytes : Nat → Nat → List UInt8
  | 0, _ => []
  | width + 1, value => UInt8.ofNat value :: toLeBytes width (value / 256)

/-- Bytes behind their length. -/
def encodeBytes (bytes : List UInt8) : List UInt8 := toLeBytes 8 bytes.length ++ bytes

def encodeString (text : List Char) : List UInt8 := encodeBytes (Utf8.encode text)

def GgufValueType.tag : GgufValueType → UInt32
  | .u8 => 0
  | .i8 => 1
  | .u16 => 2
  | .i16 => 3
  | .u32 => 4
  | .i32 => 5
  | .f32 => 6
  | .bool => 7
  | .string => 8
  | .array => 9
  | .u64 => 10
  | .i64 => 11
  | .f64 => 12

def GgufValue.valueType : GgufValue → GgufValueType
  | .u8 _ => .u8
  | .i8 _ => .i8
  | .u16 _ => .u16
  | .i16 _ => .i16
  | .u32 _ => .u32
  | .i32 _ => .i32
  | .u64 _ => .u64
  | .i64 _ => .i64
  | .f32 _ => .f32
  | .f64 _ => .f64
  | .bool _ => .bool
  | .string _ => .string
  | .array _ => .array

/-- A value that is no array, as it is written. -/
def GgufValue.encode : GgufValue → List UInt8
  | .u8 value => toLeBytes 1 value.toNat
  | .i8 value => toLeBytes 1 value.toUInt8.toNat
  | .u16 value => toLeBytes 2 value.toNat
  | .i16 value => toLeBytes 2 value.toUInt16.toNat
  | .u32 value => toLeBytes 4 value.toNat
  | .i32 value => toLeBytes 4 value.toUInt32.toNat
  | .u64 value => toLeBytes 8 value.toNat
  | .i64 value => toLeBytes 8 value.toUInt64.toNat
  | .f32 bits => toLeBytes 4 bits.toNat
  | .f64 bits => toLeBytes 8 bits.toNat
  | .bool value => [if value then 1 else 0]
  | .string text => encodeString text
  | .array _ => []

/-- A value of a header. -/
inductive Written where
  /-- Anything but an array. -/
  | plain (value : GgufValue)
  | array (elementType : GgufValueType) (elements : List (List UInt8))
deriving DecidableEq

/-- An element of an array: a string behind its length, another as it is. -/
def encodeElement : GgufValueType → List UInt8 → List UInt8
  | .string, element => encodeBytes element
  | _, element => element

/-- The contents of an array. -/
def contentsOf (elementType : GgufValueType) (elements : List (List UInt8)) : List UInt8 :=
  elements.flatMap (encodeElement elementType)

/-- The bytes from the type of its elements on to the first of them. -/
def arrayHead (elementType : GgufValueType) (elements : List (List UInt8)) : List UInt8 :=
  toLeBytes 4 elementType.tag.toNat ++ toLeBytes 8 elements.length

namespace Written

def valueType : Written → GgufValueType
  | plain value => value.valueType
  | array _ _ => .array

def encode : Written → List UInt8
  | plain value => value.encode
  | array elementType elements =>
      arrayHead elementType elements ++ contentsOf elementType elements

/-- Bytes that are read as the value: its encoding, or any other byte that is not 0 for `true`. -/
def Spells (written : Written) (bytes : List UInt8) : Prop :=
  bytes = written.encode ∨ written = plain (.bool true) ∧ ∃ byte, byte ≠ 0 ∧ bytes = [byte]

/-- What can be written: elements of the width of their type, strings within the limit. -/
def Fits (limits : ReadLimits) : Written → Prop
  | plain (.string text) => (Utf8.encode text).length ≤ limits.maxStringBytes.toNat
  | plain (.array _) => False
  | plain _ => True
  | array .string elements => elements.length < UInt64.size ∧
      ∀ element ∈ elements, element.length ≤ limits.maxStringBytes.toNat
  | array elementType elements => elements.length < UInt64.size ∧
      ∃ width, elementType.fixedWidth = some width ∧
        ∀ element ∈ elements, element.length = width.toNat

/-- The value that is returned for one written at an offset: the shape of an array, and where its
contents are. -/
def value (offset : Nat) : Written → GgufValue
  | plain value => value
  | array elementType elements =>
      .array
        { elementType
          len := UInt64.ofNat elements.length
          offset := UInt64.ofNat (offset + 12)
          byteLen := UInt64.ofNat (contentsOf elementType elements).length }

end Written

/-- A key and its value. -/
structure Entry where
  key : List Char
  written : Written
deriving DecidableEq

namespace Entry

/-- The key and the type of the value. -/
def head (entry : Entry) : List UInt8 :=
  encodeString entry.key ++ toLeBytes 4 entry.written.valueType.tag.toNat

def encode (entry : Entry) : List UInt8 := entry.head ++ entry.written.encode

def Spells (entry : Entry) (bytes : List UInt8) : Prop :=
  ∃ value, bytes = entry.head ++ value ∧ entry.written.Spells value

def Fits (limits : ReadLimits) (entry : Entry) : Prop :=
  (Utf8.encode entry.key).length ≤ limits.maxStringBytes.toNat ∧ entry.written.Fits limits

/-- The entries as metadata, the first of them at an offset. -/
def placed (offset : Nat) : List Entry → Metadata
  | [] => []
  | entry :: entries =>
      (entry.key, entry.written.value (offset + entry.head.length)) ::
        placed (offset + entry.encode.length) entries

end Entry

/-- A tensor as a header declares it. -/
structure Declared where
  name : List Char
  extents : List UInt64
  typeId : UInt32
  offset : UInt64
deriving DecidableEq

namespace Declared

def encode (tensor : Declared) : List UInt8 :=
  encodeString tensor.name ++ toLeBytes 4 tensor.extents.length ++
    tensor.extents.flatMap (fun extent => toLeBytes 8 extent.toNat) ++
    toLeBytes 4 tensor.typeId.toNat ++ toLeBytes 8 tensor.offset.toNat

def info (tensor : Declared) : TensorInfo where
  name := tensor.name
  dims := Vector.ofFn fun i => tensor.extents.getD i 1
  nDims := UInt32.ofNat tensor.extents.length
  ggmlType := .fromId tensor.typeId
  offset := tensor.offset

/-- The number of elements. -/
def count (tensor : Declared) : Nat := (tensor.extents.map UInt64.toNat).prod

/-- A name within the limit and no more dimensions than there can be. -/
def Fits (limits : ReadLimits) (tensor : Declared) : Prop :=
  (Utf8.encode tensor.name).length ≤ limits.maxStringBytes.toNat ∧ tensor.extents.length ≤ 4

end Declared

structure Header where
  version : UInt32
  entries : List Entry
  tensors : List Declared
deriving DecidableEq

namespace Header

/-- Magic, version and the two counts. -/
def preamble (header : Header) : List UInt8 :=
  magic ++ toLeBytes 4 header.version.toNat ++ toLeBytes 8 header.tensors.length ++
    toLeBytes 8 header.entries.length

def encode (header : Header) : List UInt8 :=
  header.preamble ++ header.entries.flatMap Entry.encode ++ header.tensors.flatMap Declared.encode

/-- Bytes that are read as the header: its encoding, up to the bytes for `true`. -/
def Spells (header : Header) (bytes : List UInt8) : Prop :=
  ∃ entries, List.Forall₂ Entry.Spells header.entries entries ∧
    bytes = header.preamble ++ entries.flatten ++ header.tensors.flatMap Declared.encode

/-- Every entry, with the offsets of the arrays. -/
def placed (header : Header) : Metadata := Entry.placed 24 header.entries

/-- One value for a key, the last. -/
def metadata (header : Header) : Metadata :=
  header.placed.foldl (fun metadata entry => metadata.insert entry.1 entry.2) []

/-- The alignment that the header asks for, 0 for one that is no number. -/
def alignment (header : Header) : Nat :=
  match header.metadata.get? alignmentKey with
  | none => 32
  | some value => (value.asU64.getD 0).toNat

/-- The start of the data section for a header of so many bytes. -/
def dataOffset (header : Header) (size : Nat) : Nat :=
  if header.tensors = [] then size else size ⌈/⌉ header.alignment * header.alignment

/-- What is returned for the header at the start of a file. -/
def file (header : Header) (fileSize : UInt64) : GgufFile where
  version := header.version
  alignment := UInt64.ofNat header.alignment
  metadata := header.metadata
  tensors := header.tensors.map Declared.info
  dataOffset := UInt64.ofNat (header.dataOffset header.encode.length)
  fileSize := fileSize

/-- A header of the format, within the limits; keys may repeat. -/
structure Fits (limits : ReadLimits) (header : Header) : Prop where
  version : header.version = 2 ∨ header.version = 3
  entries : ∀ entry ∈ header.entries, entry.Fits limits
  tensors : ∀ tensor ∈ header.tensors, tensor.Fits limits
  alignment : header.alignment.isPowerOfTwo
  size : header.encode.length ≤ limits.maxMetadataBytes.toNat

/-- No leading extents of a tensor have a product that 64 bits do not hold. -/
def Counts (header : Header) : Prop :=
  ∀ tensor ∈ header.tensors, ∀ leading, leading <+: tensor.extents →
    (leading.map UInt64.toNat).prod < UInt64.size

end Header

end Lightweight.Gguf
