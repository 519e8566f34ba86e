import Lightweight.Api.ChunkJson
import Lightweight.Gateway.StreamGrammar

/-! The frames of a streamed chat completion are written on one line each, and a chunk has one choice at
most. -/

namespace Lightweight.Gateway

open Lightweight.Core Lightweight.Inference Lightweight.Api Lightweight.Store

theorem oneLine_not_mem {text : List Char} (plain : OneLine text) : '\n' ∉ text ∧ '\r' ∉ text :=
  ⟨fun member => absurd (plain _ member) (by decide), fun member => absurd (plain _ member) (by decide)⟩

theorem lines_of_oneLine {item : Core.Item} (plain : OneLine item.text) :
    item.lines = [item.before ++ item.text] := by
  rw [Core.Item.lines, List.splitOn_eq_singleton (oneLine_not_mem plain).1]
  rfl

/-- Of a chunk one choice at most, of a comment one line. -/
def Plain : Frame → Prop
  | .chunk chunk => chunk.choices.length ≤ 1
  | .comment text => OneLine text
  | .done => True

theorem oneLine_item {float : UInt64 → List Char} (digits : ∀ bits, OneLine (float bits))
    {frame : Frame} (plain : Plain frame) : OneLine (frame.item float).text := by
  cases frame with
  | chunk chunk => exact oneLine_compact digits _
  | comment text => exact plain
  | done => exact (by decide : OneLine doneData)

/-! ### What the gateway sends -/

variable {ε : Type} {errors : Errors ε} {encoder next : Encoder ε}

def PlainAll (sent : List Frame) : Prop := ∀ frame ∈ sent, Plain frame

theorem plain_done : Plain .done := trivial

theorem PlainAll.push (plain : PlainAll encoder.pending) {frame : Frame} (fits : Plain frame) :
    PlainAll (encoder.push frame).pending := by
  intro other member
  rcases List.mem_append.mp member with before | here
  · exact plain other before
  · rw [List.mem_singleton.mp here]
    exact fits

theorem PlainAll.failWith (plain : PlainAll encoder.pending) (envelope : ErrorBody) :
    PlainAll (encoder.failWith envelope).pending :=
  have told : PlainAll (encoder.push (.chunk (encoder.builder.error envelope))).pending :=
    plain.push (Nat.le_refl 1)
  told.push plain_done

theorem PlainAll.close (plain : PlainAll encoder.pending) (reason : FinishReason) :
    PlainAll (encoder.close reason).pending := by
  have finish : PlainAll (encoder.push (.chunk (encoder.builder.finish reason))).pending :=
    plain.push (Nat.le_refl 1)
  have counted (usage : UsageBody) (timings : Option Timings) :
      PlainAll ((encoder.push (.chunk (encoder.builder.finish reason))).push
        (.chunk (encoder.builder.usage usage timings))).pending :=
    finish.push (Nat.zero_le 1)
  rw [Encoder.close]
  split
  · exact plain
  · cases asked : encoder.includeUsage with
    | false => simpa [Encoder.push, asked] using finish.push plain_done
    | true => simpa [Encoder.push, asked] using (counted _ _).push plain_done

theorem PlainAll.absorb (plain : PlainAll encoder.pending) {event : GenerationEvent}
    (absorbed : encoder.absorb event = some next) : PlainAll next.pending := by
  cases event with
  | started tokens =>
      cases absorbed
      exact plain
  | contentDelta text =>
      cases absorbed
      exact plain.push (Nat.le_refl 1)
  | reasoningDelta text =>
      cases absorbed
      exact plain.push (Nat.le_refl 1)
  | toolCallDelta index id name arguments =>
      cases absorbed
      exact plain.push (Nat.le_refl 1)
  | timings measured =>
      rw [Encoder.absorb, Option.ite_none_right_eq_some] at absorbed
      cases absorbed.2
      exact plain
  | finished reason usage =>
      cases absorbed
      have counted : PlainAll { encoder with usage := some (UsageBody.ofUsage usage) }.pending := plain
      exact counted.close reason

theorem plain_queued (position waited : Nat) : Plain (ChunkBuilder.queued position waited) := by
  have start : OneLine "queued position=".toList := by decide
  have middle : OneLine " waited=".toList := by decide
  have stop : OneLine ['s'] := by decide
  simp only [ChunkBuilder.queued, Plain, oneLine_append]
  exact ⟨⟨⟨⟨start, oneLine_toDigits position⟩, middle⟩, oneLine_toDigits waited⟩, stop⟩

theorem PlainAll.waitForASlot (plain : PlainAll encoder.pending) :
    PlainAll (encoder.waitForASlot errors).pending := by
  unfold Encoder.waitForASlot
  split
  · exact PlainAll.push plain (plain_queued _ _)
  · exact plain
  · exact PlainAll.failWith plain _
  · exact PlainAll.failWith plain _
  · exact PlainAll.failWith plain _
  · exact plain

theorem PlainAll.turn (plain : PlainAll encoder.pending) (turned : encoder.turn errors = some next) :
    PlainAll next.pending := by
  unfold Encoder.turn at turned
  split at turned
  · cases turned
    exact plain.waitForASlot
  · cases turned
    exact plain.close .error
  · cases turned
    exact plain.close .length
  · cases turned
    split
    · exact plain
    · exact PlainAll.push plain
        (by decide : OneLine "ping".toList)
  · rename_i event arrivals _
    have started : PlainAll { encoder with source := .running arrivals, started := true }.pending :=
      plain
    exact started.absorb turned
  · cases turned
    exact PlainAll.failWith plain _

theorem plainAll_frames (fuel : Nat) (plain : PlainAll encoder.pending) :
    PlainAll (encoder.frames errors fuel) := by
  induction fuel generalizing encoder with
  | zero => exact plain
  | succ fuel ih =>
      intro frame member
      rw [Encoder.frames, List.mem_append] at member
      rcases member with here | later
      · exact plain frame here
      · split at later
        · cases later
        · split at later
          · cases later
          · rename_i turned
            have nothing : PlainAll encoder.drained.pending := fun _ absurd_ => by cases absurd_
            exact ih (nothing.turn turned) frame later

theorem plainAll_encodeSource (source : Source ε) (builder : ChunkBuilder) (includeUsage : Bool) :
    PlainAll (encodeSource errors source builder includeUsage) := by
  apply plainAll_frames
  intro frame member
  rw [List.mem_singleton.mp member]
  exact Nat.le_refl 1

/-! ### Chunks that are parsed -/

/-- A parser of the given chunks. -/
def parserOf (float : UInt64 → List Char) (chunks : List ChatCompletionChunk) (text : List Char) :
    Option Router.Value :=
  (chunks.find? fun chunk => chunk.toContent.compact float = text).map fun chunk =>
    chunk.toContent.toValue

theorem parserOf_chunk {float : UInt64 → List Char} {chunks : List ChatCompletionChunk}
    (apart : (chunks.map fun chunk => chunk.toContent.compact float).Nodup)
    {chunk : ChatCompletionChunk} (listed : chunk ∈ chunks) :
    parserOf float chunks (chunk.toContent.compact float) = some chunk.toContent.toValue := by
  induction chunks with
  | nil => cases listed
  | cons first chunks ih =>
      rw [List.map_cons, List.nodup_cons] at apart
      rcases List.mem_cons.mp listed with rfl | later
      · simp [parserOf]
      · have other : first.toContent.compact float ≠ chunk.toContent.compact float := fun same =>
          apart.1 (same ▸ List.mem_map_of_mem later)
        simpa [parserOf, other] using ih apart.2 later

def chunksOf (sent : List Frame) : List ChatCompletionChunk :=
  sent.filterMap fun frame => if let .chunk chunk := frame then some chunk else none

theorem mem_chunksOf {sent : List Frame} {chunk : ChatCompletionChunk}
    (listed : .chunk chunk ∈ sent) : chunk ∈ chunksOf sent :=
  List.mem_filterMap.mpr ⟨_, listed, rfl⟩

def noDigits (_ : UInt64) : List Char := []

theorem noDigits_oneLine (bits : UInt64) : OneLine (noDigits bits) := oneLine_nil

end Lightweight.Gateway
