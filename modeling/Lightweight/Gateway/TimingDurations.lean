import Mathlib.Algebra.Order.Field.Basic
import Lightweight.Binary64
import Lightweight.Backend.Upstream

/-! The timings that the engine reports, from the JSON it sends to the durations of the request's
record. Milliseconds are taken for the exact numbers that are sent. -/

namespace Lightweight.Gateway.Timed

open Lightweight.Router Lightweight.Backend

/-- The number of a JSON number. The parser makes none that is not finite. -/
def numberOf : Number → Option ℚ
  | .posInt n => some n
  | .negInt n => some n
  | .float bits => Binary64.value bits

/-- `Value::as_f64`. -/
def exactOf : Value → Option ℚ
  | .number n => numberOf n
  | _ => none

structure Readings where
  promptN : Nat
  promptMs : ℚ
  predictedN : Nat
  predictedMs : ℚ
  cachedN : Nat
deriving DecidableEq

/-- A time of a `timings` object, 0 if it has no such number. -/
def millis (name : String) (timings : Value) : ℚ :=
  ((timings.get name.toList).bind exactOf).getD 0

def parseReadings (timings : Value) : Option Readings :=
  some
    { promptN := countOf "prompt_n" timings
      promptMs := millis "prompt_ms" timings
      predictedN := countOf "predicted_n" timings
      predictedMs := millis "predicted_ms" timings
      cachedN := countOf "cache_n" timings }

/-- What a `Duration` can hold, in seconds. -/
def IsDuration (secs : ℚ) : Prop := 0 ≤ secs ∧ secs < 2 ^ 64

instance (secs : ℚ) : Decidable (IsDuration secs) := by
  unfold IsDuration
  infer_instance

/-- `Duration::from_secs_f64`; `none` where it panics. -/
def fromSecs (secs : ℚ) : Option ℚ := if IsDuration secs then some secs else none

/-- The part of a generation's record that timings are written to. -/
structure TimedRecord where
  prefill : Option ℚ
  decode : Option ℚ
  cachedTokens : Nat
  completionTokens : Nat
deriving DecidableEq

def TimedRecord.default : TimedRecord := ⟨none, none, 0, 0⟩

/-- The two replies that record timings. -/
inductive Reply where
  | streamed
  | aggregated
deriving DecidableEq, Repr

/-- One timings event. The streamed reply also takes the tokens so far from it. -/
def Reply.absorb (reply : Reply) (record : TimedRecord) (readings : Readings) :
    Option TimedRecord := do
  let prefill ← fromSecs (readings.promptMs / 1000)
  let decode ← fromSecs (readings.predictedMs / 1000)
  let record :=
    { record with prefill := some prefill, decode := some decode, cachedTokens := readings.cachedN }
  match reply with
  | .streamed => pure { record with completionTokens := readings.predictedN }
  | .aggregated => pure record

/-- The record behind all the `timings` objects of a stream. -/
def Reply.absorbAll (reply : Reply) (record : TimedRecord) : List Value → Option TimedRecord
  | [] => some record
  | timings :: rest => do
      let readings ← parseReadings timings
      let record ← reply.absorb record readings
      reply.absorbAll record rest

/-- The values that reach `Duration::from_secs_f64`, up to the first that panics. -/
def Reply.converted (reply : Reply) : List Value → List ℚ
  | [] => []
  | timings :: rest =>
      match parseReadings timings with
      | none => reply.converted rest
      | some readings =>
          let prefill := readings.promptMs / 1000
          let decode := readings.predictedMs / 1000
          match fromSecs prefill, fromSecs decode with
          | none, _ => [prefill]
          | some _, none => [prefill, decode]
          | some _, some _ => prefill :: decode :: reply.converted rest

/-- Neither time is negative or as long as the longest `Duration`. -/
def InRange (timings : Value) : Prop :=
  (0 ≤ millis "prompt_ms" timings ∧ millis "prompt_ms" timings < 1000 * 2 ^ 64) ∧
    0 ≤ millis "predicted_ms" timings ∧ millis "predicted_ms" timings < 1000 * 2 ^ 64

theorem isDuration_div {ms : ℚ} : IsDuration (ms / 1000) ↔ 0 ≤ ms ∧ ms < 1000 * 2 ^ 64 := by
  unfold IsDuration
  rw [div_lt_iff₀ (by norm_num), mul_comm]
  refine and_congr_left fun _ => ?_
  constructor
  · intro positive
    by_contra negative
    exact absurd (div_neg_of_neg_of_pos (not_le.mp negative) (by norm_num)) (not_lt.mpr positive)
  · exact fun positive => div_nonneg positive (by norm_num)

theorem inRange_iff {timings : Value} :
    InRange timings ↔ IsDuration (millis "prompt_ms" timings / 1000) ∧
      IsDuration (millis "predicted_ms" timings / 1000) := by
  rw [isDuration_div, isDuration_div, InRange]

/-- One object: both values are converted and all the rest behind it, or one of them panics. -/
theorem converted_cons (reply : Reply) (timings : Value) (rest : List Value) :
    (∀ secs ∈ reply.converted (timings :: rest), IsDuration secs) ↔
      InRange timings ∧ ∀ secs ∈ reply.converted rest, IsDuration secs := by
  rw [inRange_iff, Reply.converted, parseReadings]
  by_cases prefill : IsDuration (millis "prompt_ms" timings / 1000)
  · by_cases decode : IsDuration (millis "predicted_ms" timings / 1000)
    · simp [fromSecs, prefill, decode]
    · simp [fromSecs, prefill, decode]
  · simp [fromSecs, prefill]

theorem absorb_isSome (reply : Reply) (record : TimedRecord) (timings : Value) :
    ((parseReadings timings).bind (reply.absorb record)).isSome ↔ InRange timings := by
  rw [inRange_iff]
  by_cases prefill : IsDuration (millis "prompt_ms" timings / 1000)
  · by_cases decode : IsDuration (millis "predicted_ms" timings / 1000)
    · cases reply <;> simp [parseReadings, Reply.absorb, fromSecs, prefill, decode]
    · simp [parseReadings, Reply.absorb, fromSecs, prefill, decode]
  · simp [parseReadings, Reply.absorb, fromSecs, prefill]

theorem absorbAll_isSome (reply : Reply) (record : TimedRecord) (objects : List Value) :
    (reply.absorbAll record objects).isSome ↔ ∀ timings ∈ objects, InRange timings := by
  induction objects generalizing record with
  | nil => simp [Reply.absorbAll]
  | cons timings rest ih =>
      rw [List.forall_mem_cons, ← absorb_isSome reply record]
      have chained : reply.absorbAll record (timings :: rest) =
          ((parseReadings timings).bind (reply.absorb record)).bind (reply.absorbAll · rest) := by
        rw [Option.bind_assoc]
        rfl
      rw [chained]
      cases (parseReadings timings).bind (reply.absorb record) with
      | none => simp
      | some next => simpa using ih next

/-- Every value that is converted fits, and no conversion panics, exactly when no object has a time
that is negative or too long. -/
theorem conversions_fit_iff (reply : Reply) (objects : List Value) :
    ((∀ secs ∈ reply.converted objects, IsDuration secs) ∧
      (reply.absorbAll .default objects).isSome = true) ↔ ∀ timings ∈ objects, InRange timings := by
  have fits : (∀ secs ∈ reply.converted objects, IsDuration secs) ↔
      ∀ timings ∈ objects, InRange timings := by
    induction objects with
    | nil => simp [Reply.converted]
    | cons timings rest ih => rw [converted_cons, List.forall_mem_cons, ih]
  rw [fits, absorbAll_isSome]
  exact and_self_iff

/-- An engine that reports a prompt of minus one millisecond stops the gateway, on either reply. -/
theorem negative_prompt_ms_panics :
    let timings : Value := .object [("prompt_ms".toList, .number (.negInt (-1)))]
    ∀ reply ∈ [Reply.streamed, Reply.aggregated],
      reply.converted [timings] = [-1 / 1000] ∧ ¬IsDuration (-1 / 1000) ∧
        reply.absorbAll .default [timings] = none := by
  decide +kernel

end Lightweight.Gateway.Timed
