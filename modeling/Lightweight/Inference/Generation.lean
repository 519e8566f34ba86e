import Mathlib.Data.List.Basic

/-! What a backend reports while it generates. A stream of it is a list of items, each an event or
the error that ends the stream. -/

namespace Lightweight.Inference

inductive FinishReason where
  | stop
  | length
  | toolCalls
  | error
deriving DecidableEq, Repr

def FinishReason.asStr : FinishReason → List Char
  | .stop => "stop".toList
  | .length => "length".toList
  | .toolCalls => "tool_calls".toList
  | .error => "error".toList

structure Usage where
  promptTokens : Nat
  completionTokens : Nat
  totalTokens : Nat
  cachedTokens : Nat
deriving DecidableEq, Repr

/-- Every count is 0 by default. -/
def Usage.zero : Usage :=
  { promptTokens := 0, completionTokens := 0, totalTokens := 0, cachedTokens := 0 }

structure Timings where
  promptN : Nat
  promptMs : Float
  predictedN : Nat
  predictedMs : Float
  cachedN : Nat
deriving DecidableEq, Repr

inductive GenerationEvent where
  | started (promptTokens : Option Nat)
  | contentDelta (text : List Char)
  | reasoningDelta (text : List Char)
  | toolCallDelta (index : Nat) (id name arguments : Option (List Char))
  | timings (measured : Timings)
  | finished (finishReason : FinishReason) (usage : Usage)
deriving DecidableEq, Repr

/-- The errors that the translation of an engine's stream makes. -/
inductive BackendError where
  | contextOverflow (promptTokens nCtx : Nat)
  | engineUnavailable
  | generationFailed (detail : List Char)
deriving DecidableEq, Repr

/-- One item of a stream that may fail with an `ε`. -/
inductive Item (ε : Type) where
  | event (event : GenerationEvent)
  | failure (error : ε)
deriving DecidableEq, Repr

variable {ε : Type}

def GenerationEvent.isFinished : GenerationEvent → Bool
  | .finished _ _ => true
  | _ => false

/-- A finish event or an error. -/
def Item.isTerminal : Item ε → Bool
  | .event next => next.isFinished
  | .failure _ => true

/-- Events that are not terminal, and then a single terminal item. -/
def TerminatesOnce (items : List (Item ε)) : Prop :=
  ∃ events last, items = events ++ [last] ∧ (∀ item ∈ events, item.isTerminal = false) ∧
    last.isTerminal = true

theorem terminatesOnce_concat (items : List (Item ε)) (last : Item ε) :
    TerminatesOnce (items ++ [last]) ↔
      (∀ item ∈ items, item.isTerminal = false) ∧ last.isTerminal = true := by
  constructor
  · rintro ⟨events, final, split, others, terminal⟩
    obtain ⟨rfl, same⟩ := List.append_inj' split rfl
    cases same
    exact ⟨others, terminal⟩
  · rintro ⟨others, terminal⟩
    exact ⟨items, last, rfl, others, terminal⟩

theorem terminatesOnce_singleton {item : Item ε} (terminal : item.isTerminal = true) :
    TerminatesOnce [item] :=
  ⟨[], item, rfl, by simp, terminal⟩

theorem terminatesOnce_append_plain {before : List (Item ε)} (after : List (Item ε))
    (plain : ∀ item ∈ before, item.isTerminal = false) :
    TerminatesOnce (before ++ after) ↔ TerminatesOnce after := by
  rcases List.eq_nil_or_concat' after with rfl | ⟨front, last, rfl⟩
  · constructor
    · rintro ⟨events, last, split, -, terminal⟩
      have inside : last ∈ before := by
        rw [List.append_nil] at split
        simp [split]
      rw [plain last inside] at terminal
      exact absurd terminal Bool.false_ne_true
    · rintro ⟨events, last, split, -⟩
      simp at split
  · rw [← List.append_assoc, terminatesOnce_concat, terminatesOnce_concat, List.forall_mem_append]
    exact and_congr_left fun _ => and_iff_right plain

/-- Nothing may follow items one of which is terminal. -/
theorem terminatesOnce_append_ended {before : List (Item ε)} (after : List (Item ε))
    (ended : ∃ item ∈ before, item.isTerminal = true) :
    TerminatesOnce (before ++ after) ↔ TerminatesOnce before ∧ after = [] := by
  rcases List.eq_nil_or_concat' after with rfl | ⟨front, last, rfl⟩
  · simp
  · obtain ⟨item, inside, terminal⟩ := ended
    constructor
    · intro once
      rw [← List.append_assoc, terminatesOnce_concat] at once
      have plain := once.1 item (List.mem_append_left front inside)
      rw [plain] at terminal
      exact absurd terminal Bool.false_ne_true
    · rintro ⟨-, empty⟩
      simp at empty

end Lightweight.Inference
