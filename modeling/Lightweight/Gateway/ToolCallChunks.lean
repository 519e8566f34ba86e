import Lightweight.Gateway.ChatAgreement

/-! The tool-call chunks of one reply (`ChunkBuilder::tool_call`): what they tell of the id, the name
and the arguments of each index, over any sequence of calls. -/

namespace Lightweight.Gateway

open Lightweight.Api

def newChunkBuilder (id model : List Char) (created : Nat) : ChunkBuilder :=
  { id, model, created, announcedToolCalls := [] }

/-- One call of `tool_call`. -/
def tellPart (builder : ChunkBuilder) (call : Nat × CallPart) : ChatCompletionChunk × ChunkBuilder :=
  builder.toolCall call.1 call.2.id call.2.name call.2.arguments

/-- The chunks of a sequence of calls. -/
def toldChunks : ChunkBuilder → List (Nat × CallPart) → List ChatCompletionChunk
  | _, [] => []
  | builder, call :: calls => (tellPart builder call).1 :: toldChunks (tellPart builder call).2 calls

/-- The deltas for one index in a chunk. -/
def deltasIn (index : Nat) (chunk : ChatCompletionChunk) : List ToolCallDelta :=
  (chunk.choices.flatMap fun choice => choice.delta.toolCalls.getD []).filter (·.index = index)

def idsTold (index : Nat) (chunk : ChatCompletionChunk) : List (List Char) :=
  (deltasIn index chunk).filterMap ToolCallDelta.id

def namesTold (index : Nat) (chunk : ChatCompletionChunk) : List (List Char) :=
  (deltasIn index chunk).filterMap fun delta => delta.function.bind FunctionDelta.name

def argumentsTold (index : Nat) (chunk : ChatCompletionChunk) : List Char :=
  (deltasIn index chunk).flatMap fun delta => (delta.function.bind FunctionDelta.arguments).getD []

/-- The chunks tell the call of one index once: its id in the chunk of the first call that supplies
one, its name in one chunk if there is a name, and all of its arguments. -/
structure ToldOnce (index : Nat) (calls : List (Nat × CallPart)) (chunks : List ChatCompletionChunk) :
    Prop where
  place : chunks.findIdxs (fun chunk => idsTold index chunk ≠ []) =
    (calls.findIdx? fun call => call.1 = index ∧ call.2.id.isSome).toList
  id : chunks.flatMap (idsTold index) = (idsOf (Gather.updatesAt index calls)).head?.toList
  name : chunks.countP (fun chunk => namesTold index chunk ≠ []) =
    if namesOf (Gather.updatesAt index calls) = [] then 0 else 1
  arguments : chunks.flatMap (argumentsTold index) = argumentsOf (Gather.updatesAt index calls)

/-- No name is supplied, or just one up to the first id. -/
def NamedOnce (parts : List CallPart) : Prop :=
  namesOf parts = [] ∨ (namesOf (upToId parts)).length = 1

/-! ### One chunk -/

theorem deltasIn_tellPart (builder : ChunkBuilder) (call : Nat × CallPart) (index : Nat) :
    deltasIn index (tellPart builder call).1 =
      if call.1 = index then
        [ChunkBuilder.callDelta (!builder.announcedToolCalls.contains index) index call.2.id
          call.2.name call.2.arguments]
      else [] := by
  obtain ⟨other, part⟩ := call
  by_cases same : other = index
  · subst same
    simp [deltasIn, tellPart, ChunkBuilder.toolCall, ChunkBuilder.deltaChunk, ChunkBuilder.chunk,
      ChunkBuilder.callDelta]
  · simp [deltasIn, tellPart, ChunkBuilder.toolCall, ChunkBuilder.deltaChunk, ChunkBuilder.chunk,
      ChunkBuilder.callDelta, same]

/-- The first id of an index announces it. -/
theorem announced_tellPart (builder : ChunkBuilder) (call : Nat × CallPart) (index : Nat) :
    (tellPart builder call).2.announcedToolCalls.contains index =
      (builder.announcedToolCalls.contains index || (index == call.1 && call.2.id.isSome)) :=
  announced_toolCall builder index call.1 call.2.id call.2.name call.2.arguments

theorem id_callDelta (first : Bool) (index : Nat) (part : CallPart) :
    (ChunkBuilder.callDelta first index part.id part.name part.arguments).id =
      if first then part.id else none := rfl

theorem name_callDelta (first : Bool) (index : Nat) (part : CallPart) :
    (ChunkBuilder.callDelta first index part.id part.name part.arguments).function.bind
      FunctionDelta.name = if first then part.name else none := by
  obtain ⟨id, name, arguments⟩ := part
  cases first <;> cases name <;> cases arguments <;> rfl

theorem arguments_callDelta (first : Bool) (index : Nat) (part : CallPart) :
    ((ChunkBuilder.callDelta first index part.id part.name part.arguments).function.bind
      FunctionDelta.arguments).getD [] = part.arguments.getD [] := by
  obtain ⟨id, name, arguments⟩ := part
  cases first <;> cases id <;> cases name <;> cases arguments <;> rfl

theorem length_namesTold (builder : ChunkBuilder) (call : Nat × CallPart) (index : Nat) :
    (namesTold index (tellPart builder call).1).length ≤ 1 := by
  rw [namesTold, deltasIn_tellPart]
  split
  · exact List.length_filterMap_le _ _
  · exact Nat.zero_le 1

/-! ### A sequence of calls -/

theorem namesOf_upToId_eq_nil {parts : List CallPart} (unnamed : namesOf parts = []) :
    namesOf (upToId parts) = [] := by
  induction parts with
  | nil => rfl
  | cons part parts ih =>
      have nameless : part.name = none ∧ namesOf parts = [] := by
        cases named : part.name with
        | some name => simp [namesOf, named] at unnamed
        | none => exact ⟨rfl, by simpa [namesOf, named] using unnamed⟩
      rw [upToId, namesOf, List.filterMap_cons_none nameless.1]
      split
      · rfl
      · exact ih nameless.2

/-- The deltas of one index are told by its own parts. -/
theorem flatMap_deltasIn (builder : ChunkBuilder) (calls : List (Nat × CallPart)) (index : Nat) :
    (toldChunks builder calls).flatMap (deltasIn index) =
      sentAt index (builder.announcedToolCalls.contains index) (Gather.updatesAt index calls) := by
  induction calls generalizing builder with
  | nil => rfl
  | cons call calls ih =>
      obtain ⟨other, part⟩ := call
      rw [toldChunks, List.flatMap_cons, ih, deltasIn_tellPart, announced_tellPart]
      by_cases same : other = index
      · simp [Gather.updatesAt, sentAt, same]
      · have apart : (index == other) = false := beq_false_of_ne (Ne.symm same)
        simp [Gather.updatesAt, same, apart]

theorem idsOf_sentAt (index : Nat) (parts : List CallPart) (announced : Bool) :
    (sentAt index announced parts).filterMap ToolCallDelta.id =
      if announced then [] else (idsOf parts).head?.toList := by
  induction parts generalizing announced with
  | nil => cases announced <;> rfl
  | cons part parts ih =>
      rw [sentAt, List.filterMap_cons, id_callDelta, ih]
      cases announced <;> cases supplied : part.id <;> simp [idsOf, supplied]

theorem namesOf_sentAt (index : Nat) (parts : List CallPart) (announced : Bool) :
    ((sentAt index announced parts).filterMap fun delta => delta.function.bind FunctionDelta.name) =
      if announced then [] else namesOf (upToId parts) := by
  induction parts generalizing announced with
  | nil => cases announced <;> rfl
  | cons part parts ih =>
      rw [sentAt, List.filterMap_cons, name_callDelta, ih]
      cases announced <;> cases supplied : part.id <;> cases named : part.name <;>
        simp [namesOf, upToId, supplied, named]

theorem argumentsOf_sentAt (index : Nat) (parts : List CallPart) (announced : Bool) :
    ((sentAt index announced parts).flatMap fun delta =>
      (delta.function.bind FunctionDelta.arguments).getD []) = argumentsOf parts := by
  induction parts generalizing announced with
  | nil => rfl
  | cons part parts ih =>
      rw [sentAt, List.flatMap_cons, arguments_callDelta, ih, argumentsOf, argumentsOf,
        List.flatMap_cons]

/-- Each chunk has one name of an index at most, so that counting chunks counts names. -/
theorem countP_namesTold (builder : ChunkBuilder) (calls : List (Nat × CallPart)) (index : Nat) :
    (toldChunks builder calls).countP (fun chunk => namesTold index chunk ≠ []) =
      ((toldChunks builder calls).flatMap (namesTold index)).length := by
  induction calls generalizing builder with
  | nil => rfl
  | cons call calls ih =>
      have few := length_namesTold builder call index
      rw [toldChunks, List.countP_cons, ih, List.flatMap_cons, List.length_append, Nat.add_comm]
      congr 1
      cases names : namesTold index (tellPart builder call).1 with
      | nil => rfl
      | cons name more =>
          rw [names, List.length_cons] at few
          have last : more.length = 0 := by omega
          rw [List.length_cons, last]
          rfl

/-- Only the first call of an index that supplies an id has it told. -/
theorem findIdxs_idsTold (builder : ChunkBuilder) (calls : List (Nat × CallPart)) (index : Nat) :
    (toldChunks builder calls).findIdxs (fun chunk => idsTold index chunk ≠ []) =
      if builder.announcedToolCalls.contains index then []
      else (calls.findIdx? fun call => call.1 = index ∧ call.2.id.isSome).toList := by
  induction calls generalizing builder with
  | nil => simp [toldChunks]
  | cons call calls ih =>
      obtain ⟨other, part⟩ := call
      rw [toldChunks, List.findIdxs_cons, Nat.zero_add, List.findIdxs_start, ih, announced_tellPart,
        idsTold, deltasIn_tellPart, List.findIdx?_cons]
      by_cases same : other = index
      · subst same
        cases builder.announcedToolCalls.contains other <;> cases part.id <;>
          simp [ChunkBuilder.callDelta, Option.toList_map]
      · have apart : (index == other) = false := beq_false_of_ne (Ne.symm same)
        cases builder.announcedToolCalls.contains index <;> simp [same, apart, Option.toList_map]

/-- The id and the arguments of every index are told once; the name just when no name is supplied for
it or exactly one up to its first id. -/
theorem told_once_iff (id model : List Char) (created : Nat) (calls : List (Nat × CallPart))
    (index : Nat) :
    ToldOnce index calls (toldChunks (newChunkBuilder id model created) calls) ↔
      NamedOnce (Gather.updatesAt index calls) := by
  have fresh : (newChunkBuilder id model created).announcedToolCalls.contains index = false := rfl
  have ids : (toldChunks (newChunkBuilder id model created) calls).flatMap (idsTold index) =
      (idsOf (Gather.updatesAt index calls)).head?.toList := by
    have told := idsOf_sentAt index (Gather.updatesAt index calls) false
    rw [← fresh, ← flatMap_deltasIn, List.filterMap_flatMap, fresh] at told
    exact told
  have names : (toldChunks (newChunkBuilder id model created) calls).flatMap (namesTold index) =
      namesOf (upToId (Gather.updatesAt index calls)) := by
    have told := namesOf_sentAt index (Gather.updatesAt index calls) false
    rw [← fresh, ← flatMap_deltasIn, List.filterMap_flatMap, fresh] at told
    exact told
  have arguments : (toldChunks (newChunkBuilder id model created) calls).flatMap
      (argumentsTold index) = argumentsOf (Gather.updatesAt index calls) := by
    have told := argumentsOf_sentAt index (Gather.updatesAt index calls) false
    rw [← fresh, ← flatMap_deltasIn, List.flatMap_assoc] at told
    exact told
  have place := findIdxs_idsTold (newChunkBuilder id model created) calls index
  rw [fresh] at place
  have count := countP_namesTold (newChunkBuilder id model created) calls index
  rw [names] at count
  constructor
  · intro told
    have name := told.name
    rw [count] at name
    by_cases unnamed : namesOf (Gather.updatesAt index calls) = []
    · exact Or.inl unnamed
    · rw [if_neg unnamed] at name
      exact Or.inr name
  · intro named
    refine ⟨place, ids, ?_, arguments⟩
    rw [count]
    split
    · rename_i unnamed
      exact List.length_eq_zero_iff.mpr (namesOf_upToId_eq_nil unnamed)
    · rename_i supplied
      exact named.resolve_left supplied

/-- The name comes first, and again with the id. -/
theorem early_name_told_twice :
    ¬ToldOnce 0 [(0, ⟨none, some "read_file".toList, none⟩),
        (0, ⟨some "call_1".toList, some "read_file".toList, none⟩)]
      (toldChunks (newChunkBuilder "chatcmpl-1".toList "m@8k".toList 0)
        [(0, ⟨none, some "read_file".toList, none⟩),
          (0, ⟨some "call_1".toList, some "read_file".toList, none⟩)]) := by
  intro told
  have name := told.name
  revert name
  decide +kernel

end Lightweight.Gateway
