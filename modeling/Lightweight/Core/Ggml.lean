import Lightweight.Word64

/-! The ggml tensor types: how many elements a block of each holds and in how many bytes. -/

namespace Lightweight.Core

open Lightweight.Word64

/-- A tensor element type, under ggml's own spelling. -/
inductive GgmlType where
  | f32 | f16 | q4_0 | q4_1 | q5_0 | q5_1 | q8_0 | q8_1 | q2_K | q3_K | q4_K | q5_K | q6_K | q8_K
  | iq2_xxs | iq2_xs | iq3_xxs | iq1_s | iq4_nl | iq3_s | iq2_s | iq4_xs | i8 | i16 | i32 | i64
  | f64 | iq1_m | bf16 | tq1_0 | tq2_0 | mxfp4 | nvfp4 | q1_0 | q2_0
  | unknown (id : UInt32)
deriving DecidableEq, Repr

namespace GgmlType

def fromId (id : UInt32) : GgmlType :=
  match id with
  | 0 => .f32
  | 1 => .f16
  | 2 => .q4_0
  | 3 => .q4_1
  | 6 => .q5_0
  | 7 => .q5_1
  | 8 => .q8_0
  | 9 => .q8_1
  | 10 => .q2_K
  | 11 => .q3_K
  | 12 => .q4_K
  | 13 => .q5_K
  | 14 => .q6_K
  | 15 => .q8_K
  | 16 => .iq2_xxs
  | 17 => .iq2_xs
  | 18 => .iq3_xxs
  | 19 => .iq1_s
  | 20 => .iq4_nl
  | 21 => .iq3_s
  | 22 => .iq2_s
  | 23 => .iq4_xs
  | 24 => .i8
  | 25 => .i16
  | 26 => .i32
  | 27 => .i64
  | 28 => .f64
  | 29 => .iq1_m
  | 30 => .bf16
  | 34 => .tq1_0
  | 35 => .tq2_0
  | 39 => .mxfp4
  | 40 => .nvfp4
  | 41 => .q1_0
  | 42 => .q2_0
  | other => .unknown other

/-- The name in metadata and in the engine's flags. -/
def name : GgmlType → String
  | .f32 => "f32"
  | .f16 => "f16"
  | .q4_0 => "q4_0"
  | .q4_1 => "q4_1"
  | .q5_0 => "q5_0"
  | .q5_1 => "q5_1"
  | .q8_0 => "q8_0"
  | .q8_1 => "q8_1"
  | .q2_K => "q2_K"
  | .q3_K => "q3_K"
  | .q4_K => "q4_K"
  | .q5_K => "q5_K"
  | .q6_K => "q6_K"
  | .q8_K => "q8_K"
  | .iq2_xxs => "iq2_xxs"
  | .iq2_xs => "iq2_xs"
  | .iq3_xxs => "iq3_xxs"
  | .iq1_s => "iq1_s"
  | .iq4_nl => "iq4_nl"
  | .iq3_s => "iq3_s"
  | .iq2_s => "iq2_s"
  | .iq4_xs => "iq4_xs"
  | .i8 => "i8"
  | .i16 => "i16"
  | .i32 => "i32"
  | .i64 => "i64"
  | .f64 => "f64"
  | .iq1_m => "iq1_m"
  | .bf16 => "bf16"
  | .tq1_0 => "tq1_0"
  | .tq2_0 => "tq2_0"
  | .mxfp4 => "mxfp4"
  | .nvfp4 => "nvfp4"
  | .q1_0 => "q1_0"
  | .q2_0 => "q2_0"
  | .unknown _ => "unknown"

/-- The name as it is shown. -/
def display : GgmlType → String
  | .unknown id => "unknown(" ++ toString id.toNat ++ ")"
  | known => known.name

/-- Every known type. -/
def all : List GgmlType :=
  [.f32, .f16, .q4_0, .q4_1, .q5_0, .q5_1, .q8_0, .q8_1, .q2_K, .q3_K, .q4_K, .q5_K, .q6_K, .q8_K,
    .iq2_xxs, .iq2_xs, .iq3_xxs, .iq1_s, .iq4_nl, .iq3_s, .iq2_s, .iq4_xs, .i8, .i16, .i32, .i64,
    .f64, .iq1_m, .bf16, .tq1_0, .tq2_0, .mxfp4, .nvfp4, .q1_0, .q2_0]

/-- The type of a name, in any case. -/
def fromName (text : String) : Option GgmlType :=
  all.find? fun candidate => candidate.name.map Char.toLower = text.map Char.toLower

/-- Elements per block. -/
def blockSize : GgmlType → Option UInt64
  | .f32 | .f16 => some 1
  | .q4_0 | .q4_1 | .q5_0 | .q5_1 | .q8_0 | .q8_1 => some 32
  | .q2_K | .q3_K | .q4_K | .q5_K | .q6_K | .q8_K | .iq2_xxs | .iq2_xs | .iq3_xxs | .iq1_s => some 256
  | .iq4_nl => some 32
  | .iq3_s | .iq2_s | .iq4_xs => some 256
  | .i8 | .i16 | .i32 | .i64 | .f64 => some 1
  | .iq1_m => some 256
  | .bf16 => some 1
  | .tq1_0 | .tq2_0 => some 256
  | .mxfp4 => some 32
  | .nvfp4 => some 64
  | .q1_0 => some 128
  | .q2_0 => some 64
  | .unknown _ => none

/-- Bytes per block. -/
def typeSize : GgmlType → Option UInt64
  | .f32 => some 4
  | .f16 => some 2
  | .q4_0 => some 18
  | .q4_1 => some 20
  | .q5_0 => some 22
  | .q5_1 => some 24
  | .q8_0 => some 34
  | .q8_1 => some 36
  | .q2_K => some 84
  | .q3_K => some 110
  | .q4_K => some 144
  | .q5_K => some 176
  | .q6_K => some 210
  | .q8_K => some 292
  | .iq2_xxs => some 66
  | .iq2_xs => some 74
  | .iq3_xxs => some 98
  | .iq1_s => some 50
  | .iq4_nl => some 18
  | .iq3_s => some 110
  | .iq2_s => some 82
  | .iq4_xs => some 136
  | .i8 => some 1
  | .i16 => some 2
  | .i32 => some 4
  | .i64 | .f64 => some 8
  | .iq1_m => some 56
  | .bf16 => some 2
  | .tq1_0 => some 54
  | .tq2_0 => some 66
  | .mxfp4 => some 17
  | .nvfp4 => some 36
  | .q1_0 | .q2_0 => some 18
  | .unknown _ => none

/-- The bytes that so many elements take. The product is that of a release build, which wraps. -/
def bytesForElements (ty : GgmlType) (elements : UInt64) : Option UInt64 :=
  match ty.blockSize, ty.typeSize with
  | some blockSize, some typeSize => some (divCeil elements blockSize * typeSize)
  | _, _ => none

def isKnown : GgmlType → Bool
  | .unknown _ => false
  | _ => true

/-- What a tensor of so many elements takes in unbounded numbers: whole blocks, the last one paid for
even if it is not full. -/
def footprint (ty : GgmlType) (elements : Nat) : Option Nat :=
  match ty.blockSize, ty.typeSize with
  | some blockSize, some typeSize => some (elements ⌈/⌉ blockSize.toNat * typeSize.toNat)
  | _, _ => none

theorem geometry_of_known {ty : GgmlType} (known : ty.isKnown = true) :
    ∃ blockSize typeSize, ty.blockSize = some blockSize ∧ ty.typeSize = some typeSize ∧
      0 < blockSize.toNat := by
  cases ty with
  | unknown id => cases known
  | _ => exact ⟨_, _, rfl, rfl, by decide⟩

theorem footprint_isSome_iff (ty : GgmlType) (elements : Nat) :
    (ty.footprint elements).isSome = true ↔ ty.isKnown = true := by
  cases ty <;> simp [footprint, blockSize, typeSize, isKnown]

/-- The computed size is the footprint, cut to 64 bits. -/
theorem bytesForElements_toNat (ty : GgmlType) (elements : UInt64) :
    (ty.bytesForElements elements).map UInt64.toNat =
      (ty.footprint elements.toNat).map (· % UInt64.size) := by
  by_cases known : ty.isKnown = true
  · obtain ⟨blockSize, typeSize, block, type, positive⟩ := geometry_of_known known
    simp only [bytesForElements, footprint, block, type, Option.map_some]
    rw [UInt64.toNat_mul, toNat_divCeil elements positive]
  · cases ty with
    | unknown id => rfl
    | _ => exact absurd rfl known

end GgmlType

end Lightweight.Core
