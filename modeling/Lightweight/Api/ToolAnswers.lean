import Lightweight.Answered
import Lightweight.Api.Chat

/-! Tool calls and their answers in a conversation, before and after it is made engine-neutral
(`lightweight-api/src/chat.rs`). An answer is the tool message that carries the id of a call made
before it. -/

namespace Lightweight.Inference

/-- An assistant message calls a tool under this id. -/
def ChatMessage.calls (message : ChatMessage) (id : Option (List Char)) : Prop :=
  message.role = .assistant ∧ ∃ call ∈ message.toolCalls, some call.id = id

def ChatMessage.answers (message : ChatMessage) (id : Option (List Char)) : Prop :=
  message.role = .tool ∧ id.isSome ∧ message.toolCallId = id

/-- Every tool call is answered by a later message. -/
def CallsAnswered (messages : List ChatMessage) : Prop :=
  Answered ChatMessage.calls ChatMessage.answers messages

end Lightweight.Inference

namespace Lightweight.Api

open Lightweight.Inference

/-- A call that has a function name. -/
def RequestToolCall.named (call : RequestToolCall) : Bool :=
  (call.function.bind FunctionCall.name).isSome

namespace RequestMessage

/-- An assistant message calls a named tool under this id, or under none. -/
def calls (message : RequestMessage) (id : Option (List Char)) : Prop :=
  parseRole message.role = .assistant ∧ ∃ call ∈ message.toolCalls, call.named ∧ call.id = id

def answers (message : RequestMessage) (id : Option (List Char)) : Prop :=
  parseRole message.role = .tool ∧ id.isSome ∧ message.toolCallId = id

end RequestMessage

namespace ChatCompletionRequest

/-- Every named tool call has an id and a later message that answers it. -/
def CallsAnswered (request : ChatCompletionRequest) : Prop :=
  Answered RequestMessage.calls RequestMessage.answers request.messages

/-- What holds of each call and each later message that answers it. -/
def OfAnswers (property : RequestMessage → RequestMessage → Prop)
    (request : ChatCompletionRequest) : Prop :=
  request.messages.Pairwise fun call answer =>
    ∀ id, call.calls id → answer.answers id → property call answer

/-- No answer is dropped while its call is kept. -/
def AnswersKept (request : ChatCompletionRequest) : Prop :=
  request.OfAnswers fun call answer =>
    (convertMessage call).isSome → (convertMessage answer).isSome

end ChatCompletionRequest

/-- There is a text: a part with one, or two parts, which a line break stands between. -/
def MessageContent.hasText : MessageContent → Prop
  | .text plain => plain ≠ []
  | .parts texts => 2 ≤ (texts.filterMap id).length ∨ ∃ text, some text ∈ texts ∧ text ≠ []
  | .other (.string plain) => plain ≠ []
  | .other _ => False

theorem intercalate_eq_nil_iff {α : Type} (separator : α) (lists : List (List α)) :
    [separator].intercalate lists = [] ↔ lists.length < 2 ∧ ∀ list ∈ lists, list = [] := by
  match lists with
  | [] => simp
  | [list] => simp
  | first :: second :: rest => simp [List.intercalate]

theorem MessageContent.toText_ne_nil_iff (content : MessageContent) :
    content.toText ≠ [] ↔ content.hasText := by
  cases content with
  | text plain => exact Iff.rfl
  | parts texts =>
      rw [toText, ne_eq, intercalate_eq_nil_iff, hasText]
      simp only [not_and_or, not_lt, not_forall, List.mem_filterMap, id_eq, exists_eq_right,
        exists_prop]
  | other value => cases value <;> simp [toText, hasText]

theorem convertCall_isSome (call : RequestToolCall) : (convertCall call).isSome = call.named := by
  obtain ⟨id, function⟩ := call
  cases function with
  | none => rfl
  | some function =>
      obtain ⟨name, arguments⟩ := function
      cases name <;> rfl

theorem convertCall_id {call : RequestToolCall} {made : ToolCall}
    (converted : convertCall call = some made) : made.id = call.id.getD [] := by
  obtain ⟨id, function⟩ := call
  cases function with
  | none => simp [convertCall] at converted
  | some function =>
      obtain ⟨name, arguments⟩ := function
      cases name with
      | none => simp [convertCall] at converted
      | some name =>
          cases converted
          rfl

theorem filterMap_convertCall_ne_nil_iff (calls : List RequestToolCall) :
    calls.filterMap convertCall ≠ [] ↔ ∃ call ∈ calls, call.named := by
  rw [ne_eq, List.filterMap_eq_nil_iff]
  simp only [not_forall, exists_prop, ← convertCall_isSome, Option.isSome_iff_ne_none]

/-- A message is kept for its text or for a named call. -/
theorem convertMessage_isSome_iff (message : RequestMessage) :
    (convertMessage message).isSome ↔
      message.content.hasText ∨ ∃ call ∈ message.toolCalls, call.named := by
  rw [← MessageContent.toText_ne_nil_iff, ← filterMap_convertCall_ne_nil_iff, convertMessage]
  split
  · rename_i nothing
    rw [List.isEmpty_iff, List.isEmpty_iff] at nothing
    simp [nothing]
  · rename_i something
    rw [List.isEmpty_iff, List.isEmpty_iff, not_and_or] at something
    simpa using something

theorem convertMessage_eq {message : RequestMessage} {made : ChatMessage}
    (converted : convertMessage message = some made) :
    made = { role := parseRole message.role, content := message.content.toText,
             name := message.name, toolCallId := message.toolCallId,
             toolCalls := message.toolCalls.filterMap convertCall } := by
  rw [convertMessage] at converted
  split at converted
  · cases converted
  · exact (Option.some.inj converted).symm

theorem convertMessage_answers {message : RequestMessage} {made : ChatMessage}
    {id : Option (List Char)} (converted : convertMessage message = some made) :
    made.answers id ↔ message.answers id := by
  rw [convertMessage_eq converted]
  rfl

/-- Where every call has an id, conversion makes no call under another id. -/
theorem convertMessage_calls {message : RequestMessage} {made : ChatMessage}
    {id : Option (List Char)} (identified : ¬ message.calls none)
    (converted : convertMessage message = some made) (called : made.calls id) :
    message.calls id := by
  rw [convertMessage_eq converted] at called
  obtain ⟨assistant, made_call, member, same⟩ := called
  obtain ⟨call, listed, converted_call⟩ := List.mem_filterMap.mp member
  have named : call.named := by
    rw [← convertCall_isSome, converted_call]
    rfl
  refine ⟨assistant, call, listed, named, ?_⟩
  rw [← same, convertCall_id converted_call]
  cases given : call.id with
  | none => exact absurd ⟨assistant, call, listed, named, given⟩ identified
  | some id => rfl

namespace ChatCompletionRequest

theorem CallsAnswered.identified {request : ChatCompletionRequest}
    (answered : request.CallsAnswered) {message : RequestMessage}
    (member : message ∈ request.messages) : ¬ message.calls none := by
  intro called
  obtain ⟨answer, _, _, identified, _⟩ := answered.of_mem member called
  cases identified

/-- A message that calls a named tool is kept, whatever its text. -/
theorem convertMessage_isSome_of_calls {message : RequestMessage} {id : Option (List Char)}
    (called : message.calls id) : (convertMessage message).isSome := by
  obtain ⟨_, call, listed, named, _⟩ := called
  exact (convertMessage_isSome_iff message).mpr (.inr ⟨call, listed, named⟩)

/-- No answer is dropped exactly where each has a text, or calls a tool itself. -/
theorem answersKept_iff (request : ChatCompletionRequest) :
    request.AnswersKept ↔ request.OfAnswers fun _ answer =>
      answer.content.hasText ∨ ∃ call ∈ answer.toolCalls, call.named := by
  constructor
  · intro kept
    refine kept.imp ?_
    intro call answer answer_kept id called answered
    exact (convertMessage_isSome_iff answer).mp
      (answer_kept id called answered (convertMessage_isSome_of_calls called))
  · intro texts
    refine texts.imp ?_
    intro call answer has_text id called answered _
    exact (convertMessage_isSome_iff answer).mpr (has_text id called answered)

/-- The answers that are kept keep every call answered. -/
theorem AnswersKept.callsAnswered {request : ChatCompletionRequest} (kept : request.AnswersKept)
    (answered : request.CallsAnswered) :
    Inference.CallsAnswered (request.messages.filterMap convertMessage) := by
  refine Answered.filterMap answered ?_ ?_ ?_
  · intro message member made id converted called
    exact convertMessage_calls (answered.identified member) converted called
  · intro message made id converted answer
    exact (convertMessage_answers converted).mpr answer
  · refine kept.imp ?_
    intro call answer answer_kept id called answers
    exact answer_kept id called answers (convertMessage_isSome_of_calls called)

/-- The calls of an accepted request stay answered, in order and with no answer lost, exactly where
every answer has a text or calls a tool itself. -/
theorem toGenerationRequest_callsAnswered (request : ChatCompletionRequest)
    (generation : GenerationRequest) (accepted : request.toGenerationRequest = .ok generation)
    (answered : request.CallsAnswered) :
    ((∃ messages, generation.prompt = .chat messages ∧
        InOrder convertMessage request.messages messages ∧ Inference.CallsAnswered messages) ∧
      request.AnswersKept) ↔
    request.OfAnswers fun _ answer =>
      answer.content.hasText ∨ ∃ call ∈ answer.toolCalls, call.named := by
  rw [← answersKept_iff]
  constructor
  · rintro ⟨_, kept⟩
    exact kept
  · intro kept
    obtain ⟨tools, choice, _, rfl⟩ := toGenerationRequest_ok accepted
    refine ⟨⟨_, rfl, ?_, ?_⟩, kept⟩
    · exact filterMap_inOrder convertMessage request.messages
    · exact kept.callsAnswered answered

/-- A tool was asked to touch a file, and answered with this content. -/
def touched (answer : MessageContent) : ChatCompletionRequest where
  messages :=
    [ { role := some "user".toList, content := .text "touch a.txt".toList, name := none,
        toolCallId := none, toolCalls := [] },
      { role := some "assistant".toList, content := .other .null, name := none,
        toolCallId := none,
        toolCalls := [⟨some "call_1".toList,
          some ⟨some "touch".toList, some "a.txt".toList⟩⟩] },
      { role := some "tool".toList, content := answer, name := none,
        toolCallId := some "call_1".toList, toolCalls := [] } ]
  maxTokens := none
  maxCompletionTokens := none
  reasoningEffort := none
  tools := none
  toolChoice := none

/-- What is made of `touched` with the answer's message. -/
def touchedGeneration (answers : List ChatMessage) : GenerationRequest where
  prompt := .chat
    ([ { role := .user, content := "touch a.txt".toList, name := none, toolCallId := none,
         toolCalls := [] },
       { role := .assistant, content := [], name := none, toolCallId := none,
         toolCalls := [⟨"call_1".toList, "touch".toList, "a.txt".toList⟩] } ] ++ answers)
  tools := []
  toolChoice := .unspecified
  reasoning := .default
  maxTokens := none

theorem touched_callsAnswered (answer : MessageContent) : (touched answer).CallsAnswered := by
  refine ⟨?_, ?_, ?_, trivial⟩
  · rintro id ⟨assistant, _⟩
    cases assistant
  · rintro id ⟨_, call, listed, _, rfl⟩
    rw [List.mem_singleton.mp listed]
    exact ⟨_, List.mem_singleton_self _, rfl, rfl, rfl⟩
  · rintro id ⟨assistant, _⟩
    cases assistant

/-- A tool that answers with an empty text leaves its call unanswered. -/
theorem touched_empty_unanswered :
    (touched (.text [])).toGenerationRequest = .ok (touchedGeneration []) ∧
      (touched (.text [])).CallsAnswered ∧
      ¬ ∃ messages, (touchedGeneration []).prompt = .chat messages ∧
        InOrder convertMessage (touched (.text [])).messages messages ∧
        Inference.CallsAnswered messages := by
  refine ⟨rfl, touched_callsAnswered (.text []), ?_⟩
  rintro ⟨messages, same, _, answered⟩
  cases same
  obtain ⟨_, called, _⟩ := answered
  obtain ⟨reply, replied, _⟩ := called (some "call_1".toList) ⟨rfl, _, List.mem_singleton_self _, rfl⟩
  cases replied

theorem touched_text_callsAnswered :
    (touched (.text "ok".toList)).toGenerationRequest =
        .ok (touchedGeneration [⟨.tool, "ok".toList, none, some "call_1".toList, []⟩]) ∧
      (touched (.text "ok".toList)).CallsAnswered ∧
      (((∃ messages, (touchedGeneration
              [⟨.tool, "ok".toList, none, some "call_1".toList, []⟩]).prompt = .chat messages ∧
            InOrder convertMessage (touched (.text "ok".toList)).messages messages ∧
            Inference.CallsAnswered messages) ∧
          (touched (.text "ok".toList)).AnswersKept) ↔
        (touched (.text "ok".toList)).OfAnswers fun _ answer =>
          answer.content.hasText ∨ ∃ call ∈ answer.toolCalls, call.named) :=
  ⟨rfl, touched_callsAnswered _, toGenerationRequest_callsAnswered _ _ rfl
    (touched_callsAnswered _)⟩

end ChatCompletionRequest

end Lightweight.Api
