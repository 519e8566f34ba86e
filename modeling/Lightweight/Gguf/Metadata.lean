import Lightweight.Core.Ggml

/-! What is told of a model without loading its weights, as far as a load depends on it. -/

namespace Lightweight.Gguf

structure ModelMetadata where
  architecture : String
  /-- Whether the engine can run the architecture. -/
  supported : Bool
  contextLength : Option UInt64
  blockCount : Option UInt64
  embeddingLength : Option UInt64
  feedForwardLength : Option UInt64
  headCount : Option UInt64
  /-- One count for every layer, or one count for each. -/
  headCountKv : Option (List UInt64)
  keyLength : Option UInt64
  valueLength : Option UInt64
  vocabSize : Option UInt64
  quantizationLabel : String
  weightBytes : Option UInt64
deriving DecidableEq

namespace ModelMetadata

def headDimK (metadata : ModelMetadata) : Option UInt64 :=
  match metadata.keyLength with
  | some length => some length
  | none =>
      match metadata.embeddingLength, metadata.headCount with
      | some embedding, some heads => if heads = 0 then none else some (embedding / heads)
      | _, _ => none

def headDimV (metadata : ModelMetadata) : Option UInt64 :=
  match metadata.valueLength with
  | some length => some length
  | none => metadata.headDimK

/-- A zero is a layer without attention. -/
def kvHeadsForLayer (metadata : ModelMetadata) (layer : Nat) : Option UInt64 :=
  metadata.headCountKv.bind fun heads =>
    match heads with
    | [] => none
    | [all] => some all
    | each => each[layer]?

end ModelMetadata

end Lightweight.Gguf
