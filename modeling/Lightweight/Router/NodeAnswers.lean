import Lightweight.Router.AttemptWalk
import Lightweight.Router.RewriterEnding

/-! What a node answers to one attempt, what the router makes of it, and what the client gets
(`attempt_one`, `bad_request`, `read_bounded`, `commit` and `relay` of
`lightweight-router/src/proxy.rs`); and the nodes that are asked in one attempt at a route. -/

namespace Lightweight.Router

open Lightweight.Catalog Utf8

/-- How much of a refusal is read. -/
def refusalLimit : Nat := 64 * 1024

/-- The headers of an answer that are passed on, by name. -/
structure Heads where
  contentType : Option (List Char)
  cacheControl : Option (List Char)
  retryAfter : Option (List Char)
deriving DecidableEq, Repr

def Heads.of (headers : List Char → Option (List Char)) : Heads :=
  ⟨headers "content-type".toList, headers "cache-control".toList, headers "retry-after".toList⟩

/-- A body by its chunks; nothing where reading on fails. -/
abbrev Chunks := List (Option (List UInt8))

structure NodeResponse where
  status : Nat
  headers : List Char → Option (List Char)
  body : Chunks

inductive TransportError where
  | connect
  | timeout
  | other
deriving DecidableEq, Repr

/-- What comes of sending a request to a node. -/
inductive NodeAnswer where
  | failed (error : TransportError)
  | answered (response : NodeResponse)

/-- What an attempt tells of its node's health. -/
inductive HealthNote where
  | unchanged
  | failure
  | forgetModel
deriving DecidableEq, Repr

/-- A body that is still unread, or one that was read. -/
inductive Body where
  | stream (chunks : Chunks)
  | whole (bytes : List UInt8)

def Body.chunks : Body → Chunks
  | .stream chunks => chunks
  | .whole bytes => [some bytes]

structure Response where
  status : Nat
  heads : Heads
  body : Body

/-- What one attempt came to, with the response that is the client's if it committed. -/
inductive SentAttempt where
  | committed (response : Response)
  | next (refusal : Option Refusal)
  | contextOverflow (refusal : Refusal)

/-- The attempt as the walk over the plan takes it. -/
def SentAttempt.toAttempt : SentAttempt → Attempt
  | .committed response => .committed response.status
  | .next refusal => .next refusal
  | .contextOverflow refusal => .contextOverflow refusal

/-- A body read whole, unless reading it fails. -/
def readAll : Chunks → Option (List UInt8)
  | [] => some []
  | none :: _ => none
  | some chunk :: rest => (readAll rest).map (chunk ++ ·)

/-- Read a refusal body, up to `refusalLimit`. -/
def readBounded (collected : List UInt8) : Chunks → List UInt8
  | some chunk :: rest =>
      let room := refusalLimit - collected.length
      let collected := collected ++ chunk.take room
      if refusalLimit ≤ collected.length then collected else readBounded collected rest
  | _ => collected

def codeKey : List Char := "code".toList

def errorCode (serde : Serde) (body : List UInt8) : Option (List Char) := do
  let value ← (fromUtf8 body).bind serde.fromStr
  let error ← value.get errorKey
  let code ← error.get codeKey
  asStr code

/-- The router's own answer where a node's cannot be read. -/
def upstreamUnreadable : Response where
  status := 502
  heads := ⟨some "application/json".toList, none, none⟩
  body := .whole (encode ("\x7b\"error\":\x7b\"message\":" ++
    "\"the upstream node's response could not be read\",\"type\":\"server_error\"," ++
    "\"code\":\"upstream_failed\"\x7d\x7d").toList)

/-- The committed upstream response, still carrying the node's body unread. -/
def intoResponse (response : NodeResponse) : Response :=
  ⟨response.status, .of response.headers, .stream response.body⟩

def refusalOf (response : NodeResponse) (body : List UInt8) : Refusal where
  status := response.status
  contentType := (Heads.of response.headers).contentType
  retryAfter := (Heads.of response.headers).retryAfter
  body := body

def refusalResponse (refusal : Refusal) : Response :=
  ⟨refusal.status, ⟨refusal.contentType, none, refusal.retryAfter⟩, .whole refusal.body⟩

def contextOverflowCode : List Char := "context_length_exceeded".toList
def modelNotFoundCode : List Char := "model_not_found".toList

/-- A node's `400`. -/
def badRequest (serde : Serde) (response : NodeResponse) : SentAttempt :=
  match readAll response.body with
  | none => .committed upstreamUnreadable
  | some body =>
      if errorCode serde body = some contextOverflowCode then
        .contextOverflow (refusalOf response body)
      else .committed ⟨response.status, .of response.headers, .whole body⟩

/-- Decide whether an answer committed. -/
def attemptOne (serde : Serde) : NodeAnswer → SentAttempt × HealthNote
  | .failed error => (.next none, if error = .other then .unchanged else .failure)
  | .answered response =>
      if response.status = 400 then (badRequest serde response, .unchanged)
      else if response.status ∉ [404, 502, 503, 504] then
        (.committed (intoResponse response), .unchanged)
      else
        let refusal := refusalOf response (readBounded [] response.body)
        if response.status = 404 then
          if errorCode serde refusal.body = some modelNotFoundCode then (.next none, .forgetModel)
          else (.committed (refusalResponse refusal), .unchanged)
        else (.next (some refusal), .unchanged)

/-- The `model` of a whole JSON body, written anew, and the node's prompt count. -/
def rewriteBodyMeasuring (serde : Serde) (body : List UInt8) (publicModel : List Char) :
    Option (List UInt8) × Option Nat :=
  match (fromUtf8 body).bind serde.fromStr with
  | some (.object event) =>
      if namesModel event then
        (some (encode (serde.toString (.object (Map.insert modelKey (.string publicModel) event)))),
          promptTokens event)
      else (none, promptTokens event)
  | _ => (none, none)

/-- How the trace of a request ends. -/
inductive RelayOutcome where
  | ok
  | interrupted
deriving DecidableEq, Repr

/-- Relay a committed stream: what is sent on, by pieces, and how the request ends. -/
def relay (serde : Serde) : FrameRewriter → Chunks → List (List UInt8) × RelayOutcome
  | rewriter, [] =>
      let ended := rewriter.finish serde
      (if ended.2 = [] then [] else [ended.2], if ended.1.completed then .ok else .interrupted)
  | rewriter, none :: _ =>
      let ended := rewriter.abort serde
      (if ended.2 = [] then [] else [ended.2], .interrupted)
  | rewriter, some chunk :: rest =>
      let pushed := rewriter.push serde chunk
      if pushed.1.finished then ([pushed.2], .interrupted)
      else
        let later := relay serde pushed.1 rest
        (if pushed.2 = [] then later.1 else pushed.2 :: later.1, later.2)

/-- What the client gets. -/
structure ClientResponse where
  status : Nat
  heads : Heads
  body : List UInt8
deriving DecidableEq

def eventStream : List Char := "text/event-stream".toList

def Heads.isStream (heads : Heads) : Bool := heads.contentType.any fun value =>
  eventStream.isPrefixOf value

/-- Put the route's name on a committed response. -/
def commit (serde : Serde) (route : List Char) (response : Response) : ClientResponse :=
  if response.heads.isStream && isSuccess response.status then
    ⟨response.status, response.heads,
      (relay serde (.new route) response.body.chunks).1.flatten⟩
  else
    match readAll response.body.chunks with
    | none => ⟨upstreamUnreadable.status, upstreamUnreadable.heads,
        (readAll upstreamUnreadable.body.chunks).getD []⟩
    | some bytes =>
        ⟨response.status, response.heads,
          if isSuccess response.status then (rewriteBodyMeasuring serde bytes route).1.getD bytes else bytes⟩

/-! ### One answer -/

/-- The bytes of a body that arrive before reading it fails. -/
def arrived : Chunks → List (List UInt8)
  | some chunk :: rest => chunk :: arrived rest
  | _ => []

/-- How reading a body ends. -/
def endingOf (chunks : Chunks) : Ending := if none ∈ chunks then .abort else .finish

theorem readBounded_eq (collected : List UInt8) (chunks : Chunks)
    (room : collected.length ≤ refusalLimit) :
    readBounded collected chunks = (collected ++ (arrived chunks).flatten).take refusalLimit := by
  induction chunks generalizing collected with
  | nil => simp [readBounded, arrived, List.take_of_length_le room]
  | cons first rest ih =>
      cases first with
      | none => simp [readBounded, arrived, List.take_of_length_le room]
      | some chunk =>
          have grown : (collected ++ chunk.take (refusalLimit - collected.length)).length ≤
              refusalLimit := by
            simp only [List.length_append, List.length_take]
            omega
          have whole : (collected ++ chunk).take refusalLimit =
              collected ++ chunk.take (refusalLimit - collected.length) := by
            rw [List.take_append, List.take_of_length_le room]
          simp only [readBounded, arrived, List.flatten_cons]
          by_cases full : refusalLimit ≤
              (collected ++ chunk.take (refusalLimit - collected.length)).length
          · rw [if_pos full, ← List.append_assoc, List.take_append]
            have enough : refusalLimit ≤ (collected ++ chunk).length := by
              simp only [List.length_append, List.length_take] at full ⊢
              omega
            rw [Nat.sub_eq_zero_of_le enough, List.take_zero, List.append_nil, whole]
          · rw [if_neg full, ih _ grown]
            have short : chunk.length ≤ refusalLimit - collected.length := by
              simp only [List.length_append, List.length_take] at full
              omega
            rw [List.take_of_length_le short, List.append_assoc]

theorem readAll_eq (chunks : Chunks) :
    readAll chunks = if none ∈ chunks then none else some (arrived chunks).flatten := by
  induction chunks with
  | nil => rfl
  | cons first rest ih =>
      cases first with
      | none => simp [readAll]
      | some chunk =>
          by_cases broken : none ∈ rest
          · simp [readAll, ih, broken]
          · simp [readAll, ih, broken, arrived]

/-- A rewriter that has ended the stream forwards nothing more. -/
theorem relayed_finished (serde : Serde) {rewriter : FrameRewriter}
    (finished : rewriter.finished = true) (chunks : List (List UInt8)) (ending : Ending) :
    rewriter.relayed serde chunks ending = [] := by
  have still : rewriter.pushAll serde chunks = (rewriter, []) := by
    induction chunks with
    | nil => rfl
    | cons chunk rest ih =>
        rw [FrameRewriter.pushAll, FrameRewriter.push, if_pos finished, ih]
        rfl
  rw [FrameRewriter.relayed, still]
  cases ending with
  | finish => simp [FrameRewriter.close, FrameRewriter.finish, finished]
  | abort => simp [FrameRewriter.close, FrameRewriter.abort, finished]

/-- The relay sends what the rewriter makes of the chunks that arrive and of how they end. -/
theorem relay_flatten (serde : Serde) (rewriter : FrameRewriter) (chunks : Chunks) :
    (relay serde rewriter chunks).1.flatten =
      rewriter.relayed serde (arrived chunks) (endingOf chunks) := by
  have last : ∀ bytes : List UInt8, (if bytes = [] then [] else [bytes]).flatten = bytes := by
    intro bytes
    by_cases empty : bytes = [] <;> simp [empty]
  induction chunks generalizing rewriter with
  | nil =>
      simp only [relay, arrived, last]
      rfl
  | cons first rest ih =>
      cases first with
      | none =>
          simp only [relay, arrived, last]
          simp [endingOf, FrameRewriter.relayed, FrameRewriter.pushAll, FrameRewriter.close]
      | some chunk =>
          have ending : endingOf (some chunk :: rest) = endingOf rest := by simp [endingOf]
          have onward : rewriter.relayed serde (chunk :: arrived rest) (endingOf rest) =
              (rewriter.push serde chunk).2 ++
                (rewriter.push serde chunk).1.relayed serde (arrived rest) (endingOf rest) := by
            simp only [FrameRewriter.relayed, FrameRewriter.pushAll, List.append_assoc]
          rw [ending, arrived, onward, relay]
          by_cases finished : (rewriter.push serde chunk).1.finished = true
          · rw [if_pos finished, relayed_finished serde finished]
            simp
          · rw [if_neg finished, ← ih]
            by_cases silent : (rewriter.push serde chunk).2 = []
            · simp [silent]
            · simp [silent]

/-- What arrives of a body. -/
def bytesOf (response : NodeResponse) : List UInt8 := (arrived response.body).flatten

/-- The node was not reached, or turned the request away before it ran: it is not ready, it does not
have the model, or the prompt is longer than its context. -/
def Unanswered (serde : Serde) : NodeAnswer → Prop
  | .failed _ => True
  | .answered response =>
      response.status = 502 ∨ response.status = 503 ∨ response.status = 504 ∨
        (response.status = 404 ∧
          errorCode serde ((bytesOf response).take refusalLimit) = some modelNotFoundCode) ∨
        (response.status = 400 ∧ none ∉ response.body ∧
          errorCode serde (bytesOf response) = some contextOverflowCode)

/-- The refusal of a node that turned the request away: what there is of it, up to a limit but for a
`400`. A `404` names the node's own model and is nothing to show. -/
def NodeAnswer.refusal : NodeAnswer → Option Refusal
  | .failed _ => none
  | .answered response =>
      if response.status = 404 then none
      else if response.status = 400 then some (refusalOf response (bytesOf response))
      else some (refusalOf response ((bytesOf response).take refusalLimit))

/-- A node's answer as the client of the route gets it. -/
def clientOf (serde : Serde) (route : List Char) (response : NodeResponse) : ClientResponse :=
  let heads := Heads.of response.headers
  if response.status = 404 then
    ⟨404, ⟨heads.contentType, none, heads.retryAfter⟩, (bytesOf response).take refusalLimit⟩
  else if heads.isStream && isSuccess response.status then
    ⟨response.status, heads, (FrameRewriter.new route).relayed serde (arrived response.body)
      (endingOf response.body)⟩
  else if none ∈ response.body then
    ⟨502, upstreamUnreadable.heads, (readAll upstreamUnreadable.body.chunks).getD []⟩
  else
    ⟨response.status, heads,
      if isSuccess response.status then
        (rewriteBodyMeasuring serde (bytesOf response) route).1.getD (bytesOf response)
      else bytesOf response⟩

theorem commit_whole (serde : Serde) (route : List Char) {status : Nat}
    (failed : isSuccess status = false) (heads : Heads) (bytes : List UInt8) :
    commit serde route ⟨status, heads, .whole bytes⟩ = ⟨status, heads, bytes⟩ := by
  simp [commit, failed, Body.chunks, readAll]

/-- The router's own answer goes out as it is. -/
theorem commit_upstreamUnreadable (serde : Serde) (route : List Char) :
    commit serde route upstreamUnreadable =
      ⟨502, upstreamUnreadable.heads, (readAll upstreamUnreadable.body.chunks).getD []⟩ := by
  have failed : isSuccess 502 = false := by decide
  have whole : ∀ (heads : Heads) (bytes : List UInt8),
      commit serde route ⟨502, heads, .whole bytes⟩ =
        ⟨502, heads, (readAll (Body.whole bytes).chunks).getD []⟩ := by
    intro heads bytes
    rw [commit_whole serde route failed]
    simp [Body.chunks, readAll]
  exact whole _ _

theorem commit_intoResponse (serde : Serde) (route : List Char) {response : NodeResponse}
    (other : response.status ≠ 404) :
    commit serde route (intoResponse response) = clientOf serde route response := by
  rcases Bool.eq_false_or_eq_true
    ((Heads.of response.headers).isStream && isSuccess response.status) with stream | whole
  · simp only [commit, clientOf, intoResponse, Body.chunks, if_neg other, stream, if_true,
      relay_flatten]
  · simp only [commit, clientOf, intoResponse, Body.chunks, if_neg other, whole, readAll_eq]
    by_cases broken : none ∈ response.body
    · simp only [if_pos broken]
      rfl
    · simp only [if_neg broken]
      rfl

/-- What a node's `400` comes to. -/
theorem badRequest_spec (serde : Serde) {response : NodeResponse} (bad : response.status = 400) :
    (none ∉ response.body ∧ errorCode serde (bytesOf response) = some contextOverflowCode ∧
      badRequest serde response = .contextOverflow (refusalOf response (bytesOf response))) ∨
      (¬(none ∉ response.body ∧ errorCode serde (bytesOf response) = some contextOverflowCode) ∧
        ∃ committed, badRequest serde response = .committed committed ∧
          ∀ route, commit serde route committed = clientOf serde route response) := by
  have other : response.status ≠ 404 := by omega
  have failed : isSuccess response.status = false := by simp [isSuccess, bad]
  by_cases broken : none ∈ response.body
  · right
    refine ⟨fun holds => holds.1 broken, upstreamUnreadable, ?_, ?_⟩
    · rw [badRequest, readAll_eq, if_pos broken]
    · intro route
      rw [commit_upstreamUnreadable, clientOf, if_neg other, failed, Bool.and_false,
        if_neg Bool.false_ne_true, if_pos broken]
  · have read : readAll response.body = some (bytesOf response) := by
      rw [readAll_eq, if_neg broken, bytesOf]
    by_cases overflows : errorCode serde (bytesOf response) = some contextOverflowCode
    · left
      refine ⟨broken, overflows, ?_⟩
      simp only [badRequest, read, if_pos overflows]
    · right
      refine ⟨fun holds => overflows holds.2,
        ⟨response.status, .of response.headers, .whole (bytesOf response)⟩, ?_, ?_⟩
      · simp only [badRequest, read, if_neg overflows]
      · intro route
        rw [commit_whole serde route failed, clientOf, if_neg other, failed, Bool.and_false,
          if_neg Bool.false_ne_true, if_neg broken, if_neg Bool.false_ne_true]

/-- An attempt is over without an answer, with the refusal to show for it, or it is the node's answer
that the client gets. -/
theorem attemptOne_spec (serde : Serde) (answer : NodeAnswer) :
    (Unanswered serde answer ∧ (attemptOne serde answer).1 = .next answer.refusal) ∨
      (Unanswered serde answer ∧ ∃ refusal, answer.refusal = some refusal ∧
        (attemptOne serde answer).1 = .contextOverflow refusal) ∨
      (¬Unanswered serde answer ∧ ∃ response committed, answer = .answered response ∧
        (attemptOne serde answer).1 = .committed committed ∧
        ∀ route, commit serde route committed = clientOf serde route response) := by
  cases answer with
  | failed error => exact .inl ⟨trivial, rfl⟩
  | answered response =>
      by_cases bad : response.status = 400
      · have other : response.status ≠ 404 := by omega
        have sent : (attemptOne serde (.answered response)).1 = badRequest serde response := by
          simp only [attemptOne, if_pos bad]
        rcases badRequest_spec serde bad with ⟨whole, overflows, came⟩ | ⟨stands, committed, came, got⟩
        · right; left
          have unanswered : Unanswered serde (.answered response) :=
            .inr (.inr (.inr (.inr ⟨bad, whole, overflows⟩)))
          refine ⟨unanswered, refusalOf response (bytesOf response), ?_, sent.trans came⟩
          simp only [NodeAnswer.refusal, if_neg other, if_pos bad]
        · right; right
          refine ⟨?_, response, committed, rfl, sent.trans came, got⟩
          intro unanswered
          have only : none ∉ response.body ∧
              errorCode serde (bytesOf response) = some contextOverflowCode := by
            simpa [Unanswered, bad] using unanswered
          exact stands only
      · have read : readBounded [] response.body = (bytesOf response).take refusalLimit :=
          readBounded_eq [] response.body (Nat.zero_le _)
        by_cases missing : response.status = 404
        · by_cases model : errorCode serde ((bytesOf response).take refusalLimit) =
              some modelNotFoundCode
          · left
            refine ⟨.inr (.inr (.inr (.inl ⟨missing, model⟩))), ?_⟩
            simp [attemptOne, missing, read, refusalOf, model, NodeAnswer.refusal]
          · right; right
            refine ⟨?_, response, refusalResponse
              (refusalOf response ((bytesOf response).take refusalLimit)), rfl, ?_, ?_⟩
            · simp [Unanswered, missing, model]
            · simp [attemptOne, missing, read, refusalOf, model]
            · intro route
              rw [refusalResponse, commit_whole serde route (by simp [refusalOf, missing, isSuccess]),
                clientOf, if_pos missing]
              simp [refusalOf, missing]
        · by_cases unready : response.status ∈ [404, 502, 503, 504]
          · left
            have refused : response.status = 502 ∨ response.status = 503 ∨ response.status = 504 := by
              simpa [missing] using unready
            refine ⟨?_, ?_⟩
            · rcases refused with status | status | status <;> simp [Unanswered, status]
            · simp only [attemptOne, if_neg bad, if_neg (not_not.mpr unready), if_neg missing, read,
                NodeAnswer.refusal]
          · right; right
            refine ⟨?_, response, intoResponse response, rfl, ?_, ?_⟩
            · simp only [List.mem_cons, List.not_mem_nil, or_false, not_or] at unready
              simp [Unanswered, bad, unready]
            · simp only [attemptOne, if_neg bad, if_pos unready]
            · exact fun route => commit_intoResponse serde route missing

/-! ### The nodes asked in one attempt at a route -/

section Asking

/-- The world in which the node at each place of the plan answers so. -/
def AttemptOracle.answering (oracle : AttemptOracle) (serde : Serde) (answers : Nat → NodeAnswer) :
    AttemptOracle :=
  { oracle with outcome := fun place => (attemptOne serde (answers place)).1.toAttempt }

/-- The last refusal among what the nodes asked have answered. -/
def lastRefusalOf (answers : Nat → NodeAnswer) (asked : List (Nat × AttemptTrace)) :
    Option Refusal :=
  (asked.filterMap fun ask => (answers ask.1).refusal).getLast?

variable {serde : Serde} {answers : Nat → NodeAnswer} {asked : List (Nat × AttemptTrace)}
  {walk after : Walk}

/-- What a walk has asked so far, each with its place in the plan; nobody has answered. -/
structure Heard (serde : Serde) (answers : Nat → NodeAnswer) (asked : List (Nat × AttemptTrace))
    (walk : Walk) : Prop where
  traces : asked.map Prod.snd = walk.attempts
  rising : (asked.map Prod.fst).Pairwise (· < ·)
  unanswered : ∀ ask ∈ asked, Unanswered serde (answers ask.1)
  refusal : walk.lastRefusal = lastRefusalOf answers asked

/-- The node asked last has answered, with this status. -/
def Answered (serde : Serde) (answers : Nat → NodeAnswer) (last : Nat × AttemptTrace)
    (deployment : DeploymentId) (status : Nat) : Prop :=
  last.2.deployment = deployment ∧ ¬Unanswered serde (answers last.1) ∧
    ∃ response committed, answers last.1 = .answered response ∧
      (attemptOne serde (answers last.1)).1 = .committed committed ∧ committed.status = status ∧
      ∀ route, commit serde route committed = clientOf serde route response

/-- What a walk that is over has asked. -/
structure Over (serde : Serde) (answers : Nat → NodeAnswer) (asked : List (Nat × AttemptTrace))
    (ended : RouteEnd) (attempts : List AttemptTrace) : Prop where
  traces : asked.map Prod.snd = attempts
  rising : (asked.map Prod.fst).Pairwise (· < ·)
  unanswered : ∀ ask ∈ asked.dropLast, Unanswered serde (answers ask.1)
  committed : ∀ deployment status lease, ended = .committed deployment status lease →
    ∃ last, asked.getLast? = some last ∧ Answered serde answers last deployment status
  failed : ∀ failure, ended = .failed failure → (∀ ask ∈ asked, Unanswered serde (answers ask.1)) ∧
    ∀ refusal, failure.response = .refusal refusal ↔ lastRefusalOf answers asked = some refusal

/-- A turn of the loop goes on with nobody having answered, or the walk is over. -/
def StepHeard (serde : Serde) (answers : Nat → NodeAnswer) (bound : Nat) : WalkStep → Prop
  | .next walk | .done walk =>
      ∃ asked, Heard serde answers asked walk ∧ ∀ ask ∈ asked, ask.1 < bound
  | .stop ended walk => ∃ asked, Over serde answers asked ended walk.attempts

theorem Heard.of_same (heard : Heard serde answers asked walk)
    (attempts : after.attempts = walk.attempts) (refusal : after.lastRefusal = walk.lastRefusal) :
    Heard serde answers asked after :=
  ⟨heard.traces.trans attempts.symm, heard.rising, heard.unanswered, refusal.trans heard.refusal⟩

theorem rising_concat (rising : (asked.map Prod.fst).Pairwise (· < ·)) {place : Nat}
    (below : ∀ ask ∈ asked, ask.1 < place) (trace : AttemptTrace) :
    ((asked ++ [(place, trace)]).map Prod.fst).Pairwise (· < ·) := by
  rw [List.map_append, List.map_singleton, List.pairwise_append]
  refine ⟨rising, List.pairwise_singleton _ _, ?_⟩
  intro earlier member last same
  rw [List.mem_singleton.mp same]
  rcases List.mem_map.mp member with ⟨ask, listed, rfl⟩
  exact below ask listed

/-- One more node is asked, and does not answer. -/
theorem Heard.ask (heard : Heard serde answers asked walk) {place : Nat}
    (below : ∀ ask ∈ asked, ask.1 < place) {trace : AttemptTrace}
    (unanswered : Unanswered serde (answers place))
    (attempts : after.attempts = walk.attempts ++ [trace])
    (refusal : after.lastRefusal = (answers place).refusal.or walk.lastRefusal) :
    Heard serde answers (asked ++ [(place, trace)]) after where
  traces := by rw [List.map_append, heard.traces, attempts, List.map_singleton]
  rising := rising_concat heard.rising below trace
  unanswered := by
    intro ask member
    rcases List.mem_append.mp member with old | last
    · exact heard.unanswered ask old
    · rw [List.mem_singleton.mp last]
      exact unanswered
  refusal := by
    rw [refusal, heard.refusal, lastRefusalOf, lastRefusalOf, List.filterMap_append]
    cases shown : (answers place).refusal with
    | none => simp [shown]
    | some refusal => simp [shown]

theorem below_concat {place : Nat} (below : ∀ ask ∈ asked, ask.1 < place) (trace : AttemptTrace) :
    ∀ ask ∈ asked ++ [(place, trace)], ask.1 < place + 1 := by
  intro ask member
  rcases List.mem_append.mp member with old | last
  · exact Nat.lt_succ_of_lt (below ask old)
  · rw [List.mem_singleton.mp last]
    exact Nat.lt_succ_self place

/-- The deadline ends a walk between two nodes. -/
theorem Heard.outOfTime (heard : Heard serde answers asked walk) (before : Bool) :
    Over serde answers asked (.budgetExhausted before) walk.attempts where
  traces := heard.traces
  rising := heard.rising
  unanswered := fun ask member => heard.unanswered ask (List.mem_of_mem_dropLast member)
  committed := fun _ _ _ impossible => RouteEnd.noConfusion impossible
  failed := fun _ impossible => RouteEnd.noConfusion impossible

/-- The node asked last ends the walk, with its answer or by the deadline. -/
theorem Heard.last (heard : Heard serde answers asked walk) {place : Nat}
    (below : ∀ ask ∈ asked, ask.1 < place) {trace : AttemptTrace} {ended : RouteEnd}
    (unfailed : ∀ failure, ended ≠ .failed failure)
    (answered : ∀ deployment status lease, ended = .committed deployment status lease →
      Answered serde answers (place, trace) deployment status) :
    Over serde answers (asked ++ [(place, trace)]) ended (walk.attempts ++ [trace]) where
  traces := by rw [List.map_append, heard.traces, List.map_singleton]
  rising := rising_concat heard.rising below trace
  unanswered := by
    rw [List.dropLast_concat]
    exact heard.unanswered
  committed := fun deployment status lease same =>
    ⟨(place, trace), List.getLast?_concat, answered deployment status lease same⟩
  failed := fun failure same => absurd same (unfailed failure)

variable [Lowercase] {round : Round}

theorem moveOn_heard (oracle : AttemptOracle) (rest : List Candidate)
    (heard : Heard serde answers asked walk) {place : Nat} (below : ∀ ask ∈ asked, ask.1 < place)
    {trace : AttemptTrace} (unanswered : Unanswered serde (answers place))
    (attempts : after.attempts = walk.attempts ++ [trace])
    (refusal : after.lastRefusal = walk.lastRefusal) :
    StepHeard serde answers (place + 1)
      (round.moveOn oracle place rest (answers place).refusal after) := by
  have next : ∀ {further : Walk}, further.attempts = after.attempts →
      further.lastRefusal = (answers place).refusal.or after.lastRefusal →
      Heard serde answers (asked ++ [(place, trace)]) further := by
    intro further same shown
    rw [refusal] at shown
    exact heard.ask below unanswered (same.trans attempts) shown
  unfold Round.moveOn
  dsimp only
  split
  · split
    · refine ⟨asked ++ [(place, trace)], Heard.outOfTime ?_ false⟩
      exact next rfl rfl
    · exact ⟨_, next rfl rfl, below_concat below trace⟩
  · exact ⟨_, next rfl rfl, below_concat below trace⟩

theorem overflow_heard (oracle : AttemptOracle) (candidate : Candidate) (rest : List Candidate)
    (heard : Heard serde answers asked walk) {place : Nat} (below : ∀ ask ∈ asked, ask.1 < place)
    {trace : AttemptTrace} (unanswered : Unanswered serde (answers place)) {refusal : Refusal}
    (shown : (answers place).refusal = some refusal)
    (attempts : after.attempts = walk.attempts ++ [trace]) :
    StepHeard serde answers (place + 1)
      (round.overflow oracle place candidate rest refusal after) := by
  have next : ∀ {further : Walk}, further.attempts = after.attempts →
      further.lastRefusal = some refusal →
      Heard serde answers (asked ++ [(place, trace)]) further := by
    intro further same last
    apply heard.ask below unanswered (same.trans attempts)
    rw [last, shown, Option.some_or]
  unfold Round.overflow
  dsimp only
  split
  · exact ⟨_, next rfl rfl, below_concat below trace⟩
  · split
    · refine ⟨asked ++ [(place, trace)], Heard.outOfTime ?_ false⟩
      exact next rfl rfl
    · exact ⟨_, next rfl rfl, below_concat below trace⟩

/-- One turn of the loop, by what came of its candidate. -/
theorem turn_heard (oracle : AttemptOracle) {place : Nat} {candidate : Candidate}
    {rest : List Candidate} (at' : round.plan.candidates[place]? = some candidate)
    (heard : Heard serde answers asked walk) (below : ∀ ask ∈ asked, ask.1 < place) :
    StepHeard serde answers (place + 1)
      (round.turn (oracle.answering serde answers) place candidate rest walk) := by
  have skipped : ∃ asked, Heard serde answers asked walk ∧ ∀ ask ∈ asked, ask.1 < place + 1 :=
    ⟨asked, heard, fun ask member => Nat.lt_succ_of_lt (below ask member)⟩
  unfold Round.turn
  split
  · exact skipped
  · split
    · exact skipped
    · rename_i planned decided
      have named := decision_deployment at' decided
      dsimp only
      split
      · exact skipped
      · split
        · exact ⟨asked, heard.outOfTime _⟩
        · cases taken : walk.takeLease place candidate.deployment with
          | mk lease leased =>
              rcases Walk.takeLease_spec taken with ⟨load, rfl, _⟩
              dsimp only
              generalize decision : (if walk.afterOverflow = true then
                { planned with reason := RoutingReason.contextOverflowFailover } else planned) = sent
              have same : sent.deployment = candidate.deployment := by
                rw [← decision, ← named]
                split <;> rfl
              split
              · exact ⟨_, heard.last below (fun _ impossible => RouteEnd.noConfusion impossible)
                  (fun _ _ _ impossible => RouteEnd.noConfusion impossible)⟩
              · rcases attemptOne_spec serde (answers place) with ⟨unanswered, came⟩ |
                  ⟨unanswered, refusal, shown, came⟩ | ⟨answered, response, committed, said, came, got⟩
                · simp only [AttemptOracle.answering, came, SentAttempt.toAttempt]
                  exact moveOn_heard _ rest heard below unanswered rfl rfl
                · simp only [AttemptOracle.answering, came, SentAttempt.toAttempt]
                  exact overflow_heard _ candidate rest heard below unanswered shown rfl
                · simp only [AttemptOracle.answering, came, SentAttempt.toAttempt]
                  refine ⟨_, heard.last below (fun _ impossible => RouteEnd.noConfusion impossible) ?_⟩
                  intro deployment status lease' ended
                  cases ended
                  exact ⟨same, answered, response, committed, said, came, rfl, got⟩

/-- A walk that comes to its end has no answer to give but the last refusal. -/
theorem Heard.concluded (heard : Heard serde answers asked walk) :
    Over serde answers asked (.failed (round.conclude walk)) walk.attempts where
  traces := heard.traces
  rising := heard.rising
  unanswered := fun ask member => heard.unanswered ask (List.mem_of_mem_dropLast member)
  committed := fun _ _ _ impossible => RouteEnd.noConfusion impossible
  failed := by
    intro failure same
    cases same
    refine ⟨heard.unanswered, ?_⟩
    intro refusal
    rw [← heard.refusal, Round.conclude]
    cases last : walk.lastRefusal with
    | none => simp
    | some shown => simp

/-- The whole loop, by induction on the candidates that are left. -/
theorem walkFrom_heard (oracle : AttemptOracle) {place : Nat} {rest : List Candidate}
    (plan : round.plan.candidates.drop place = rest) (heard : Heard serde answers asked walk)
    (below : ∀ ask ∈ asked, ask.1 < place) :
    ∃ asked, Over serde answers asked
      (round.walkFrom (oracle.answering serde answers) place rest walk).1
      (round.walkFrom (oracle.answering serde answers) place rest walk).2.attempts := by
  induction rest generalizing place asked walk with
  | nil => exact ⟨asked, heard.concluded⟩
  | cons candidate rest ih =>
      have at' : round.plan.candidates[place]? = some candidate := by
        rw [← List.head?_drop, plan, List.head?_cons]
      have plan' : round.plan.candidates.drop (place + 1) = rest := by
        rw [← List.tail_drop, plan, List.tail_cons]
      have turned : StepHeard serde answers (place + 1)
          (round.turn (oracle.answering serde answers) place candidate rest walk) :=
        turn_heard oracle at' heard below
      rw [Round.walkFrom]
      cases step : round.turn (oracle.answering serde answers) place candidate rest walk with
      | next further =>
          rw [step] at turned
          rcases turned with ⟨asked', heard', below'⟩
          exact ih plan' heard' below'
      | done further =>
          rw [step] at turned
          rcases turned with ⟨asked', heard', _⟩
          exact ⟨asked', heard'.concluded⟩
      | stop ended further =>
          rw [step] at turned
          exact turned

/-- Whatever the nodes answer, in whatever pieces, and whenever the deadline comes: a node is asked
only when no node asked before it has run the request; what the client gets is the answer of the last
one, as it stands, with the route's name on it; and a route that fails has the last refusal to show,
if any node sent one. -/
theorem route_passes_one_answer (state : RouterState) (route : Route) (needs : RequestRequirements)
    (header : Option (List Char)) (budget : Option RequestBudget) (now : Nat)
    (oracle : AttemptOracle) (serde : Serde) (answers : Nat → NodeAnswer) :
    ∃ asked, Over serde answers asked
      (attemptRoute state route needs header budget now (oracle.answering serde answers)).ended
      (attemptRoute state route needs header budget now (oracle.answering serde answers)).attempts := by
  unfold attemptRoute
  dsimp only
  cases planned : state.selector.planWithAffinity state.topology route state.health state.observed
      needs (lookupSession state.affinity (state.affinity.session route.name header) now).1 with
  | mk outcome selector =>
      cases outcome with
      | error failure =>
          refine ⟨[], rfl, List.Pairwise.nil, fun _ member => absurd member List.not_mem_nil,
            fun _ _ _ impossible => RouteEnd.noConfusion impossible, ?_⟩
          intro failed same
          cases same
          refine ⟨fun _ member => absurd member List.not_mem_nil, ?_⟩
          intro refusal
          cases failure <;> simp [planFailure, lastRefusalOf]
      | ok plan =>
          dsimp only
          rw [Walk.dropReservation_attempts]
          exact walkFrom_heard oracle rfl
            ⟨rfl, List.Pairwise.nil, fun _ member => absurd member List.not_mem_nil, rfl⟩
            fun _ member => absurd member List.not_mem_nil

end Asking

end Lightweight.Router
