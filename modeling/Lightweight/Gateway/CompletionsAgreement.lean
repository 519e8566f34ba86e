import Lightweight.Gateway.Completions

/-! The streamed and the collected reply to one request for completions. A client of the stream adds
up its chunks by the index of their choice. -/

namespace Lightweight.Gateway.Completions

open Lightweight.Inference Lightweight.Api

variable {ε : Type}

/-- The text of the choices with an index. -/
def textOf (index : Nat) (choices : List CompletionChoice) : List Char :=
  choices.flatMap fun choice => if choice.index = index then choice.text else []

/-- The finish reasons of the choices with an index. -/
def finishesOf (index : Nat) (choices : List CompletionChoice) : List (List Char) :=
  choices.flatMap fun choice => if choice.index = index then choice.finishReason.toList else []

def sentChoices (frames : List CompletionFrame) : List CompletionChoice :=
  frames.flatMap fun
    | .chunk chunk => chunk.choices
    | _ => []

def sentUsages (frames : List CompletionFrame) : List UsageBody :=
  frames.flatMap fun
    | .chunk chunk => chunk.usage.toList
    | _ => []

def sentErrors (frames : List CompletionFrame) : List ErrorBody :=
  frames.flatMap fun
    | .chunk chunk => chunk.error.toList
    | _ => []

/-- The frames of a stream add up to the choices and the usage of a reply. -/
structure Agrees (includeUsage : Bool) (frames : List CompletionFrame) (choices : List CompletionChoice)
    (usage : UsageBody) : Prop where
  texts : ∀ index, textOf index (sentChoices frames) = textOf index choices
  finishes : ∀ index, finishesOf index (sentChoices frames) = finishesOf index choices
  usages : sentUsages frames = if includeUsage then [usage] else []
  errors : sentErrors frames = []
  done : frames.getLast? = some .done

/-- What the frames of a stream are to the collected reply: the same, or they end with its error. -/
def Answers (includeUsage : Bool) (envelope : ε → ErrorBody) (builder : CompletionChunkBuilder)
    (frames : List CompletionFrame) : Except ε (List CompletionChoice × UsageBody) → Prop
  | .ok (choices, usage) => Agrees includeUsage frames choices usage
  | .error error => ∃ sent, sentErrors sent = [] ∧
      frames = sent ++ [.chunk (builder.error (envelope error)), .done]

/-- The reply to what is still to come of one completion and of those behind it. -/
def collectRest (text : List Char) (index : Nat) (usage : UsageBody) (items : List (Item ε))
    (queue : List (PendingCompletion ε)) : Except ε (List CompletionChoice × UsageBody) := do
  let (text, reason, usage) ← collectEvents text .length usage items
  let (choices, usage) ← collectAll usage queue
  pure ({ text, index, finishReason := some reason.asStr } :: choices, usage)

theorem collectAll_cons (usage : UsageBody) (pending : PendingCompletion ε)
    (queue : List (PendingCompletion ε)) :
    collectAll usage (pending :: queue) = pending.generation.bind fun arrivals =>
      collectRest (pending.echo.getD []) pending.index usage (itemsOf arrivals) queue := rfl

/-- The reply to all that an encoder has still to send. -/
def Encoder.later (encoder : Encoder ε) : Except ε (List CompletionChoice × UsageBody) :=
  match encoder.current with
  | none => collectAll encoder.usage encoder.queue
  | some (index, arrivals) =>
      collectRest [] index encoder.usage (itemsOf arrivals) encoder.queue

section Choices

variable {index : Nat} {first last : List CompletionChoice} {choice : CompletionChoice}

theorem textOf_append : textOf index (first ++ last) = textOf index first ++ textOf index last :=
  List.flatMap_append

theorem finishesOf_append :
    finishesOf index (first ++ last) = finishesOf index first ++ finishesOf index last :=
  List.flatMap_append

theorem textOf_cons :
    textOf index (choice :: last) =
      (if choice.index = index then choice.text else []) ++ textOf index last :=
  List.flatMap_cons

theorem finishesOf_cons :
    finishesOf index (choice :: last) =
      (if choice.index = index then choice.finishReason.toList else []) ++ finishesOf index last :=
  List.flatMap_cons

end Choices

/-- Text that comes first is text of the first choice. -/
theorem collectEvents_append (before text : List Char) (reason : FinishReason) (usage : UsageBody)
    (items : List (Item ε)) :
    collectEvents (before ++ text) reason usage items =
      (collectEvents text reason usage items).map fun found => (before ++ found.1, found.2) := by
  induction items generalizing text reason usage with
  | nil => rfl
  | cons item items ih =>
      cases item with
      | failure error => rfl
      | event event =>
          cases event with
          | contentDelta fragment =>
              rw [collectEvents, collectEvents, List.append_assoc]
              exact ih (text ++ fragment) reason usage
          | finished finish measured =>
              rw [collectEvents, collectEvents]
              exact ih text finish _
          | started tokens => exact ih text reason usage
          | reasoningDelta fragment => exact ih text reason usage
          | toolCallDelta call id name arguments => exact ih text reason usage
          | timings measured => exact ih text reason usage

/-- A reply is another one with some choices first. -/
def Adds (choices : List CompletionChoice) :
    Except ε (List CompletionChoice × UsageBody) → Except ε (List CompletionChoice × UsageBody) → Prop
  | .ok (later, usage), .ok (all, total) => total = usage ∧ ∀ index,
      textOf index all = textOf index choices ++ textOf index later ∧
        finishesOf index all = finishesOf index choices ++ finishesOf index later
  | .error error, .error found => found = error
  | _, _ => False

theorem adds_nil (result : Except ε (List CompletionChoice × UsageBody)) : Adds [] result result := by
  cases result with
  | ok found => exact ⟨rfl, fun _ => ⟨rfl, rfl⟩⟩
  | error error => rfl

theorem adds_text (before : List Char) (index : Nat) (usage : UsageBody) (items : List (Item ε))
    (queue : List (PendingCompletion ε)) :
    Adds [{ text := before, index, finishReason := none }] (collectRest [] index usage items queue)
      (collectRest before index usage items queue) := by
  have shifted := collectEvents_append before [] .length usage items
  rw [List.append_nil] at shifted
  unfold collectRest
  rw [shifted]
  cases collectEvents [] .length usage items with
  | error error => rfl
  | ok found =>
      obtain ⟨text, reason, usage⟩ := found
      dsimp only [Except.map, bind, Except.bind]
      cases collectAll usage queue with
      | error error => rfl
      | ok found =>
          refine ⟨rfl, fun other => ⟨?_, ?_⟩⟩
          · rw [textOf_cons, textOf_cons, textOf_cons]
            split
            · rw [List.append_assoc, List.append_assoc]
              rfl
            · rfl
          · rw [finishesOf_cons, finishesOf_cons, finishesOf_cons]
            split
            · rfl
            · rfl

/-- The choice that ends with a finish event. -/
theorem adds_finish (index : Nat) (reason : FinishReason) (usage : UsageBody)
    (queue : List (PendingCompletion ε)) {items : List (Item ε)} {before : UsageBody}
    (collected : collectEvents [] .length before items = .ok ([], reason, usage)) :
    Adds [{ text := [], index, finishReason := some reason.asStr }] (collectAll usage queue)
      (collectRest [] index before items queue) := by
  unfold collectRest
  rw [collected]
  dsimp only [bind, Except.bind]
  cases collectAll usage queue with
  | error error => rfl
  | ok found =>
      refine ⟨rfl, fun other => ⟨?_, ?_⟩⟩
      · exact @textOf_append other [_] found.1
      · exact @finishesOf_append other [_] found.1

section Answers

variable {includeUsage : Bool} {envelope : ε → ErrorBody} {builder : CompletionChunkBuilder}
  {sent frames : List CompletionFrame}

theorem sentChoices_append : sentChoices (sent ++ frames) = sentChoices sent ++ sentChoices frames :=
  List.flatMap_append

/-- Frames sent first add the choices that they carry. -/
theorem Answers.after {later result : Except ε (List CompletionChoice × UsageBody)}
    (answers : Answers includeUsage envelope builder frames later) (usages : sentUsages sent = [])
    (errors : sentErrors sent = []) (adds : Adds (sentChoices sent) later result) :
    Answers includeUsage envelope builder (sent ++ frames) result := by
  cases later with
  | error error =>
      cases result with
      | ok found => exact adds.elim
      | error found =>
          cases adds
          obtain ⟨before, none_before, rfl⟩ := answers
          refine ⟨sent ++ before, ?_, (List.append_assoc _ _ _).symm⟩
          unfold sentErrors at errors none_before ⊢
          rw [List.flatMap_append, errors, none_before, List.append_nil]
  | ok found =>
      cases result with
      | error found => exact adds.elim
      | ok all =>
          obtain ⟨rest, usage⟩ := found
          obtain ⟨choices, total⟩ := all
          obtain ⟨rfl, same⟩ := adds
          refine ⟨?_, ?_, ?_, ?_, ?_⟩
          · intro index
            rw [sentChoices_append, textOf_append, answers.texts, (same index).1]
          · intro index
            rw [sentChoices_append, finishesOf_append, answers.finishes, (same index).2]
          · have later := answers.usages
            unfold sentUsages at usages later ⊢
            rw [List.flatMap_append, usages, List.nil_append]
            exact later
          · have later := answers.errors
            unfold sentErrors at errors later ⊢
            rw [List.flatMap_append, errors, later, List.append_nil]
          · rw [List.getLast?_append, answers.done]
            rfl

end Answers

/-- Every generation that is still to come, or still has something to come, ends with its only
terminal item. -/
structure Encoder.Proper (encoder : Encoder ε) : Prop where
  queue : ∀ pending ∈ encoder.queue, ∀ arrivals, pending.generation = .ok arrivals →
    TerminatesOnce (itemsOf arrivals)
  current : ∀ index arrivals, encoder.current = some (index, arrivals) →
    TerminatesOnce (itemsOf arrivals)

/-- What a pass that does not finish the stream leaves behind. -/
structure Goes (encoder next : Encoder ε) : Prop where
  going : next.finished = false
  usages : sentUsages next.pending = []
  errors : sentErrors next.pending = []
  adds : Adds (sentChoices next.pending) next.later encoder.later
  smaller : next.size < encoder.size
  proper : next.Proper
  builder : next.builder = encoder.builder
  includeUsage : next.includeUsage = encoder.includeUsage

theorem terminatesOnce_cons_plain {item : Item ε} {items : List (Item ε)}
    (plain : item.isTerminal = false) : TerminatesOnce (item :: items) ↔ TerminatesOnce items := by
  apply @terminatesOnce_append_plain ε [item] items
  intro other member
  rw [List.mem_singleton.mp member]
  exact plain

theorem eq_nil_of_terminal {item : Item ε} {items : List (Item ε)} (terminal : item.isTerminal = true)
    (once : TerminatesOnce (item :: items)) : items = [] := by
  have ended := @terminatesOnce_append_ended ε [item] items
    ⟨item, List.mem_cons_self, terminal⟩
  exact (ended.mp once).2

section Turn

variable {encoder : Encoder ε} {envelope : ε → ErrorBody}

/-- A pass takes up the next completion, or closes the stream. -/
theorem turn_between (nothing : encoder.pending = []) (going : encoder.finished = false)
    (between : encoder.current = none) (proper : encoder.Proper) :
    ((encoder.turn envelope).finished = true ∧
        Answers encoder.includeUsage envelope encoder.builder (encoder.turn envelope).pending
          encoder.later) ∨
      Goes encoder (encoder.turn envelope) := by
  obtain ⟨queue, current, builder, includeUsage, frames, usage, started, finished, produced⟩ := encoder
  cases nothing
  cases going
  cases between
  cases queue with
  | nil =>
      left
      cases includeUsage with
      | false => exact ⟨rfl, fun _ => rfl, fun _ => rfl, rfl, rfl, rfl⟩
      | true => exact ⟨rfl, fun _ => rfl, fun _ => rfl, rfl, rfl, rfl⟩
  | cons pending queue =>
      obtain ⟨index, echo, generation⟩ := pending
      cases generation with
      | error error =>
          left
          exact ⟨rfl, [], rfl, rfl⟩
      | ok arrivals =>
          right
          have once : TerminatesOnce (itemsOf arrivals) :=
            proper.queue _ List.mem_cons_self arrivals rfl
          have rest : ∀ pending ∈ queue, ∀ arrivals, pending.generation = .ok arrivals →
              TerminatesOnce (itemsOf arrivals) :=
            fun pending member => proper.queue pending (List.mem_cons_of_mem _ member)
          have running : ∀ other some_arrivals,
              some (index, arrivals) = some (other, some_arrivals) →
                TerminatesOnce (itemsOf some_arrivals) := by
            rintro other some_arrivals ⟨⟩
            exact once
          have smaller : arrivals.length + 1 + passes queue + 1 <
              0 + (arrivals.length + 2 + passes queue) + 1 := by
            omega
          cases echo with
          | none => exact ⟨rfl, rfl, rfl, adds_nil _, smaller, ⟨rest, running⟩, rfl, rfl⟩
          | some text =>
              cases text with
              | nil => exact ⟨rfl, rfl, rfl, adds_nil _, smaller, ⟨rest, running⟩, rfl, rfl⟩
              | cons c text =>
                  exact ⟨rfl, rfl, rfl, adds_text (c :: text) index usage _ queue, smaller,
                    ⟨rest, running⟩, rfl, rfl⟩

/-- A pass takes one arrival of the completion that is running. -/
theorem turn_running {index : Nat} {arrivals : List (Arrival ε)} (nothing : encoder.pending = [])
    (going : encoder.finished = false) (running : encoder.current = some (index, arrivals))
    (proper : encoder.Proper) :
    ((encoder.turn envelope).finished = true ∧
        Answers encoder.includeUsage envelope encoder.builder (encoder.turn envelope).pending
          encoder.later) ∨
      Goes encoder (encoder.turn envelope) := by
  have once := proper.current index arrivals running
  have queue_proper := proper.queue
  obtain ⟨queue, current, builder, includeUsage, frames, usage, started, finished, produced⟩ := encoder
  cases nothing
  cases going
  cases running
  cases arrivals with
  | nil =>
      obtain ⟨events, last, split, -⟩ := once
      exact absurd split.symm (List.append_ne_nil_of_right_ne_nil _ (List.cons_ne_nil _ _))
  | cons arrival arrivals =>
      have smaller : arrivals.length + 1 + passes queue + 1 <
          arrivals.length + 1 + 1 + passes queue + 1 := by
        omega
      have running : TerminatesOnce (itemsOf arrivals) → ∀ other some_arrivals,
          some (index, arrivals) = some (other, some_arrivals) →
            TerminatesOnce (itemsOf some_arrivals) := by
        rintro once other some_arrivals ⟨⟩
        exact once
      cases arrival with
      | tick =>
          right
          cases started with
          | false => exact ⟨rfl, rfl, rfl, adds_nil _, smaller, ⟨queue_proper, running once⟩, rfl, rfl⟩
          | true => exact ⟨rfl, rfl, rfl, adds_nil _, smaller, ⟨queue_proper, running once⟩, rfl, rfl⟩
      | item item =>
          cases item with
          | failure error =>
              left
              exact ⟨rfl, [], rfl, rfl⟩
          | event event =>
              right
              have plain : (Item.event event : Item ε).isTerminal = false →
                  TerminatesOnce (itemsOf arrivals) :=
                fun unfinished => (terminatesOnce_cons_plain unfinished).mp once
              cases event with
              | contentDelta fragment =>
                  exact ⟨rfl, rfl, rfl, adds_text fragment index usage _ queue, smaller,
                    ⟨queue_proper, running (plain rfl)⟩, rfl, rfl⟩
              | finished reason measured =>
                  have last : itemsOf arrivals = [] := eq_nil_of_terminal rfl once
                  have collected : collectEvents [] .length usage
                      (.event (.finished reason measured) :: itemsOf arrivals) =
                        .ok ([], reason, accumulateUsage usage (UsageBody.ofUsage measured)) := by
                    rw [last]
                    rfl
                  have room : 0 + passes queue + 1 <
                      arrivals.length + 1 + 1 + passes queue + 1 := by
                    omega
                  exact ⟨rfl, rfl, rfl, adds_finish index reason _ queue collected, room,
                    ⟨queue_proper, nofun⟩, rfl, rfl⟩
              | started tokens =>
                  exact ⟨rfl, rfl, rfl, adds_nil _, smaller, ⟨queue_proper, running (plain rfl)⟩, rfl,
                    rfl⟩
              | reasoningDelta fragment =>
                  exact ⟨rfl, rfl, rfl, adds_nil _, smaller, ⟨queue_proper, running (plain rfl)⟩, rfl,
                    rfl⟩
              | toolCallDelta call id name arguments =>
                  exact ⟨rfl, rfl, rfl, adds_nil _, smaller, ⟨queue_proper, running (plain rfl)⟩, rfl,
                    rfl⟩
              | timings measured =>
                  exact ⟨rfl, rfl, rfl, adds_nil _, smaller, ⟨queue_proper, running (plain rfl)⟩, rfl,
                    rfl⟩

end Turn

theorem frames_drained (envelope : ε → ErrorBody) (fuel : Nat) (encoder : Encoder ε) :
    encoder.frames envelope fuel = encoder.pending ++ encoder.drained.frames envelope fuel := by
  cases fuel with
  | zero => exact (List.append_nil _).symm
  | succ fuel => rfl

theorem frames_finished (envelope : ε → ErrorBody) (fuel : Nat) {encoder : Encoder ε}
    (finished : encoder.finished = true) : encoder.frames envelope fuel = encoder.pending := by
  cases fuel with
  | zero => rfl
  | succ fuel =>
      rw [Encoder.frames, finished, if_pos rfl, List.append_nil]

/-- The frames that an encoder sends answer what it has still to send. -/
theorem frames_answer (envelope : ε → ErrorBody) {fuel : Nat} {encoder : Encoder ε}
    (nothing : encoder.pending = []) (going : encoder.finished = false)
    (enough : encoder.size ≤ fuel) (proper : encoder.Proper) :
    Answers encoder.includeUsage envelope encoder.builder (encoder.frames envelope fuel)
      encoder.later := by
  induction fuel generalizing encoder with
  | zero =>
      unfold Encoder.size at enough
      omega
  | succ fuel ih =>
      have drained : encoder.drained = encoder := by
        unfold Encoder.drained
        rw [← nothing]
      have one : encoder.frames envelope (fuel + 1) = (encoder.turn envelope).frames envelope fuel := by
        rw [Encoder.frames, going, nothing, drained]
        rfl
      have turned : ((encoder.turn envelope).finished = true ∧
          Answers encoder.includeUsage envelope encoder.builder (encoder.turn envelope).pending
            encoder.later) ∨ Goes encoder (encoder.turn envelope) := by
        cases current : encoder.current with
        | none => exact turn_between nothing going current proper
        | some running => exact turn_running nothing going current proper
      rw [one]
      rcases turned with ⟨finished, answers⟩ | goes
      · rw [frames_finished envelope fuel finished]
        exact answers
      · rw [frames_drained]
        have later := @ih (encoder.turn envelope).drained rfl goes.going
          (Nat.le_of_lt_succ (goes.smaller.trans_le enough)) ⟨goes.proper.queue, goes.proper.current⟩
        change Answers (encoder.turn envelope).includeUsage envelope (encoder.turn envelope).builder _
          (encoder.turn envelope).later at later
        rw [goes.builder, goes.includeUsage] at later
        exact later.after goes.usages goes.errors goes.adds

/-! ### The choices by their indices -/

theorem indices_collectAll {usage total : UsageBody} {queue : List (PendingCompletion ε)}
    {choices : List CompletionChoice} (collected : collectAll usage queue = .ok (choices, total)) :
    choices.map CompletionChoice.index = queue.map PendingCompletion.index := by
  induction queue generalizing usage choices with
  | nil =>
      cases collected
      rfl
  | cons pending queue ih =>
      rw [collectAll_cons] at collected
      cases generated : pending.generation with
      | error error =>
          rw [generated] at collected
          cases collected
      | ok arrivals =>
          rw [generated] at collected
          dsimp only [Except.bind, collectRest, bind] at collected
          split at collected
          · cases collected
          · rename_i found _
            cases rest : collectAll found.2.2 queue with
            | error error =>
                rw [rest] at collected
                cases collected
            | ok later =>
                rw [rest] at collected
                cases collected
                rw [List.map_cons, List.map_cons, ih rest]

theorem indices_queueOf (request : CompletionRequest) (prompts : List (List Char))
    (generations : Nat → Except ε (List (Arrival ε))) :
    (queueOf request prompts generations).map PendingCompletion.index =
      (List.range prompts.length).map fun position => min position 0xffffffff := by
  apply List.ext_getElem
  · simp [queueOf]
  · intro position _ _
    simp [queueOf]

/-- No two choices have one index, as long as the indices are the positions. -/
theorem nodup_indices {count : Nat} (few : count ≤ 0x100000000) :
    ((List.range count).map fun position => min position 0xffffffff).Nodup := by
  have same : ((List.range count).map fun position => min position 0xffffffff) = List.range count := by
    conv_rhs => rw [← List.map_id (List.range count)]
    apply List.map_congr_left
    intro position member
    have := List.mem_range.mp member
    change min position 0xffffffff = position
    omega
  rw [same]
  exact List.nodup_range

/-- With one choice to an index, what is heard at the index is the choice. -/
theorem heard_choice {choices : List CompletionChoice}
    (apart : (choices.map CompletionChoice.index).Nodup) {choice : CompletionChoice}
    (listed : choice ∈ choices) :
    textOf choice.index choices = choice.text ∧
      finishesOf choice.index choices = choice.finishReason.toList := by
  induction choices with
  | nil => cases listed
  | cons first choices ih =>
      rw [List.map_cons, List.nodup_cons] at apart
      rw [textOf_cons, finishesOf_cons]
      rcases List.mem_cons.mp listed with rfl | later
      · have silent : ∀ other ∈ choices, other.index ≠ choice.index := by
          intro other member same
          exact apart.1 (List.mem_map.mpr ⟨other, member, same⟩)
        have no_text : textOf choice.index choices = [] := by
          apply List.flatMap_eq_nil_iff.mpr
          exact fun other member => if_neg (silent other member)
        have no_finish : finishesOf choice.index choices = [] := by
          apply List.flatMap_eq_nil_iff.mpr
          exact fun other member => if_neg (silent other member)
        rw [no_text, no_finish, if_pos rfl, if_pos rfl, List.append_nil, List.append_nil]
        exact ⟨rfl, rfl⟩
      · have other : first.index ≠ choice.index := by
          intro same
          exact apart.1 (List.mem_map.mpr ⟨choice, later, same.symm⟩)
        rw [if_neg other, if_neg other, List.nil_append, List.nil_append]
        exact ih apart.2 later

/-! ### A request -/

section Request

variable (envelope : ε → ErrorBody) (builder : CompletionChunkBuilder) (request : CompletionRequest)
  (generations : Nat → Except ε (List (Arrival ε)))

/-- The frames of the streamed reply to a request, with the generations of its completions. -/
def streamed : Except CompletionError (List CompletionFrame) :=
  request.expand.map fun prompts =>
    encode envelope (queueOf request prompts generations) builder request.wantsUsage

/-- The choices and the usage of the reply in one piece. -/
def aggregated : Except CompletionError (Except ε (List CompletionChoice × UsageBody)) :=
  request.expand.map fun prompts => collectAll UsageBody.zero (queueOf request prompts generations)

variable {envelope builder request generations}

/-- The streamed chunks add up to the reply in one piece, by the index of the choices and so choice by
choice, with the same reasons and the same usage; or both replies are the same error. -/
theorem completions_agree {frames : List CompletionFrame}
    {result : Except ε (List CompletionChoice × UsageBody)}
    (once : ∀ position arrivals, generations position = .ok arrivals →
      TerminatesOnce (itemsOf arrivals))
    (streaming : streamed envelope builder request generations = .ok frames)
    (collecting : aggregated request generations = .ok result) :
    Answers request.wantsUsage envelope builder frames result ∧
      ∀ choices usage, result = .ok (choices, usage) → choices.length ≤ 0x100000000 →
        ∀ choice ∈ choices, textOf choice.index (sentChoices frames) = choice.text ∧
          finishesOf choice.index (sentChoices frames) = choice.finishReason.toList := by
  unfold streamed at streaming
  unfold aggregated at collecting
  cases expanded : request.expand with
  | error error =>
      rw [expanded] at streaming
      cases streaming
  | ok prompts =>
      rw [expanded] at streaming collecting
      cases streaming
      cases collecting
      have proper : (Encoder.start (queueOf request prompts generations) builder
          request.wantsUsage).Proper := by
        refine ⟨?_, nofun⟩
        intro pending member arrivals generated
        obtain ⟨position, short, rfl⟩ := List.mem_mapIdx.mp member
        exact once position arrivals generated
      have answers : Answers request.wantsUsage envelope builder
          (encode envelope (queueOf request prompts generations) builder request.wantsUsage)
          (collectAll UsageBody.zero (queueOf request prompts generations)) :=
        frames_answer envelope rfl rfl (Nat.le_refl _) proper
      refine ⟨answers, ?_⟩
      intro choices usage collected few choice listed
      dsimp only at collected ⊢
      rw [collected] at answers
      have indices := indices_collectAll collected
      rw [indices_queueOf] at indices
      have count := congrArg List.length indices
      rw [List.length_map, List.length_map, List.length_range] at count
      have apart : (choices.map CompletionChoice.index).Nodup := by
        rw [indices]
        exact nodup_indices (count ▸ few)
      rw [answers.texts, answers.finishes]
      exact heard_choice apart listed

end Request

/-- Two prompts with two completions each, which are echoed. -/
def twoPrompts : CompletionRequest where
  prompt := some (.many ["one".toList, "two".toList])
  includeUsage := some true
  n := some 2
  echo := some true
  logprobs := none
  bestOf := none
  suffix := none

/-- A keep-alive, a fragment and the end; the fragment is the position of the completion. -/
def shortGeneration (position : Nat) : Except Unit (List (Arrival Unit)) :=
  .ok [.tick, .item (.event (.contentDelta (Nat.toDigits 10 position))),
    .item (.event (.finished .stop ⟨3, 1, 4, 2⟩))]

theorem shortGeneration_once (position : Nat) (arrivals : List (Arrival Unit))
    (generated : shortGeneration position = .ok arrivals) : TerminatesOnce (itemsOf arrivals) := by
  cases generated
  exact ⟨[_], _, rfl, by simp [Item.isTerminal, GenerationEvent.isFinished], rfl⟩

theorem two_prompts_agree :
    ∃ frames, streamed (fun _ => .invalidRequest [] []) ⟨"cmpl-1".toList, "m".toList, 0⟩ twoPrompts
        shortGeneration = .ok frames ∧
      textOf 3 (sentChoices frames) = "two3".toList ∧
      finishesOf 3 (sentChoices frames) = ["stop".toList] ∧
      sentUsages frames = [⟨12, 4, 16, some 8⟩] := by
  refine ⟨_, rfl, ?_⟩
  have collected : aggregated twoPrompts shortGeneration = .ok (.ok
      ([⟨"one0".toList, 0, some "stop".toList⟩, ⟨"one1".toList, 1, some "stop".toList⟩,
        ⟨"two2".toList, 2, some "stop".toList⟩, ⟨"two3".toList, 3, some "stop".toList⟩],
        ⟨12, 4, 16, some 8⟩)) := by
    rfl
  obtain ⟨agrees, choices⟩ := completions_agree shortGeneration_once rfl collected
  obtain ⟨text, finish⟩ := choices _ _ rfl (by decide) ⟨"two3".toList, 3, some "stop".toList⟩ (by simp)
  exact ⟨text, finish, agrees.usages⟩

end Lightweight.Gateway.Completions
