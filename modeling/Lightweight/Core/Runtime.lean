import Lightweight.Core.Ggml
import Mathlib.Data.List.Sort

/-! The parameters that a loaded model runs with, shared by the estimate and the engine. -/

namespace Lightweight.Core

/-- How the engine brings a model's weights into memory. -/
inductive LoadMode where
  | auto | none | mmap | mlock | mmapMlock
deriving DecidableEq, Repr

def LoadMode.all : List LoadMode := [.auto, .none, .mmap, .mlock, .mmapMlock]

def LoadMode.asStr : LoadMode → String
  | .auto => "auto"
  | .none => "none"
  | .mmap => "mmap"
  | .mlock => "mlock"
  | .mmapMlock => "mmap+mlock"

def LoadMode.fromName (name : String) : Option LoadMode :=
  LoadMode.all.find? fun mode => mode.asStr = name

/-- Whether the weights are pinned in memory. -/
def LoadMode.locksWeights (mode : LoadMode) : Bool := mode = .mlock ∨ mode = .mmapMlock

/-- A number as one of 32 bits, the largest of them if it does not fit. -/
def clampToU32 (value : UInt64) : UInt32 :=
  if value < 0x100000000 then value.toUInt32 else 0xFFFFFFFF

structure RuntimeParams where
  /-- The window of one client. -/
  nCtx : UInt32
  nBatch : UInt32
  nUbatch : UInt32
  nParallel : UInt32
  cacheTypeK : GgmlType
  cacheTypeV : GgmlType
  threads : Option UInt32
  threadsBatch : Option UInt32
  poll : Option UInt8
  cacheReuse : Option UInt32
  cpuRange : Option (UInt32 × UInt32)
  cpuStrict : Bool
  loadMode : Option LoadMode
deriving DecidableEq

namespace RuntimeParams

def default : RuntimeParams where
  nCtx := 4096
  nBatch := 2048
  nUbatch := 512
  nParallel := 1
  cacheTypeK := .f16
  cacheTypeV := .f16
  threads := none
  threadsBatch := none
  poll := none
  cacheReuse := none
  cpuRange := none
  cpuStrict := false
  loadMode := none

def withContext (params : RuntimeParams) (nCtx : UInt32) : RuntimeParams := { params with nCtx }

/-- The physical batch, with the logical batch raised to hold it. -/
def withUbatch (params : RuntimeParams) (nUbatch : UInt32) : RuntimeParams :=
  { params with
    nUbatch := max nUbatch 1
    nBatch := max params.nBatch (max nUbatch 1) }

def contextPresets : List UInt32 := [2048, 4096, 8192, 16384, 32768, 65536, 131072]

/-- The presets up to a maximum, and the maximum itself if it is of use. -/
def contextPresetsUpTo (ceiling : UInt32) : List UInt32 :=
  let presets := contextPresets.filter (· ≤ ceiling)
  let presets := if ceiling ∉ presets ∧ 512 ≤ ceiling then presets ++ [ceiling] else presets
  presets.insertionSort (· ≤ ·)

/-- The presets that a model supports. -/
def contextPresetsFor (modelMax : Option UInt64) : List UInt32 :=
  match modelMax with
  | none => contextPresets
  | some modelMax => contextPresetsUpTo (clampToU32 modelMax)

end RuntimeParams

end Lightweight.Core
