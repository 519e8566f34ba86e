import Lightweight.Router.Affinity
import Lightweight.Router.Select

/-! One attempt at one logical route (`attempt_route` of `lightweight-router/src/proxy.rs`): the
session's affinity, the plan, and every deployment in it with failover before a response. What a node
answers, what the clock says and which attempt the deadline cuts come from an oracle. -/

namespace Lightweight.Router

open Lightweight.Catalog

/-- One client request's deadline for reaching a response. -/
structure RequestBudget where
  deadline : Nat
  configured : Nat
  started : Nat
deriving DecidableEq, Repr

/-- Whether `budget` refuses new work at `now`. No budget never refuses. -/
def expired (budget : Option RequestBudget) (now : Nat) : Bool :=
  budget.any fun budget => budget.deadline ≤ now

inductive RoutingReason where
  | explicitSingleDeployment
  | primaryHealthy
  | primaryUnavailableFallback
  | primaryFailedFallback
  | roundRobin
  | roundRobinFailover
  | leastBusy
  | leastBusyTiebreak
  | leastBusyFailover
  | contextOverflowFailover
  | sessionAffinity
deriving DecidableEq, Repr

structure RoutingDecision where
  route : RouteName
  deployment : DeploymentId
  node : NodeId
  reason : RoutingReason
deriving DecidableEq, Repr

/-- Sending to `candidates[attempt]`, given that every earlier candidate was tried and failed. -/
def Plan.decision (plan : Plan) (attempt : Nat) : Option RoutingDecision :=
  plan.candidates[attempt]?.map fun candidate =>
    let reason :=
      if attempt = 0 ∧ plan.sticky = some .hit then .sessionAffinity
      else match plan.policy with
        | .priority =>
            if plan.routeSize = 1 then .explicitSingleDeployment
            else if 0 < attempt then .primaryFailedFallback
            else if candidate.position = 0 then .primaryHealthy
            else .primaryUnavailableFallback
        | .roundRobin => if 0 < attempt then .roundRobinFailover else .roundRobin
        | .leastBusy =>
            if 0 < attempt then .leastBusyFailover
            else match plan.selection with
              | .leastBusy _ _ true => .leastBusyTiebreak
              | _ => .leastBusy
    ⟨plan.route, candidate.deployment, candidate.node, reason⟩

/-- How `router_requests_total` counts a request. -/
inductive RequestOutcome where
  | ok
  | clientError
  | serverError
  | unavailable
  | requestBudgetExhausted
deriving DecidableEq, Repr

def RequestOutcome.ofStatus (status : Nat) : RequestOutcome :=
  if 200 ≤ status ∧ status ≤ 399 then .ok
  else if 400 ≤ status ∧ status ≤ 499 then .clientError
  else .serverError

/-- What route history learns from a request. -/
inductive RouteObservation where
  | success
  | serverError
  | interrupted
  | unavailable
  | capabilityMismatch
  | neutral
deriving DecidableEq, Repr

inductive FallbackReason where
  | routeUnavailable
  | routeExhausted
  | routeCapabilityMismatch
deriving DecidableEq, Repr

/-- A node's answer that is worth returning. -/
structure Refusal where
  status : Nat
  contentType : Option (List Char)
  retryAfter : Option (List Char)
  body : List UInt8
deriving DecidableEq, Repr

/-- What came of one attempt. -/
inductive Attempt where
  | committed (status : Nat)
  | next (refusal : Option Refusal)
  | contextOverflow (refusal : Refusal)
deriving DecidableEq, Repr

inductive AttemptOutcome where
  | committed
  | failed
  | contextOverflow
  | requestBudgetExhausted
deriving DecidableEq, Repr

/-- One attempt in the trace, with the reading of the clock that let it begin. -/
structure AttemptTrace where
  route : RouteName
  deployment : DeploymentId
  reason : RoutingReason
  outcome : AttemptOutcome
  startedAt : Nat
deriving DecidableEq, Repr

structure OverflowStep where
  deployment : DeploymentId
  context : Option Nat
deriving DecidableEq, Repr

structure OverflowTrace where
  estimatedPromptTokens : Option Nat
  tooSmall : List OverflowStep
  answeredContext : Option Nat
deriving DecidableEq, Repr

/-- The route's own error, as the client would get it. -/
inductive FailureResponse where
  | refusal (refusal : Refusal)
  | routing (failure : RoutingFailure)
deriving DecidableEq, Repr

structure RouteFailure where
  response : FailureResponse
  outcome : RequestOutcome
  observation : Option RouteObservation
  reason : Option FallbackReason
  route : RouteName
deriving DecidableEq, Repr

inductive RouteEnd where
  | committed (deployment : DeploymentId) (status : Nat) (lease : Lease)
  | failed (failure : RouteFailure)
  | budgetExhausted (beforeFirstAttempt : Bool)
deriving DecidableEq, Repr

def RouteEnd.isCommitted : RouteEnd → Bool
  | .committed _ _ _ => true
  | _ => false

/-- What the world does at each candidate of the plan: the clock at the start check, whether the
attempt is still waiting when the deadline comes, its outcome, and the clock after it. -/
structure AttemptOracle where
  startedAt : Nat → Nat
  cut : Nat → Bool
  outcome : Nat → Attempt
  endedAt : Nat → Nat

/-- What the loop reads. -/
structure Round [Lowercase] where
  topology : Topology
  route : Route
  plan : Plan
  observed : DeploymentId → Option DeploymentObservation
  needs : RequestRequirements
  session : Option AffinityKey
  budget : Option RequestBudget

/-- The loop's variables, and what it writes for others to see. -/
structure Walk where
  load : LoadBook
  affinity : AffinityBook
  reservation : Option Lease
  lastRefusal : Option Refusal
  tooSmall : Option Nat
  afterOverflow : Bool
  stickyFailed : Option Reassignment
  attemptsMade : Nat
  attempts : List AttemptTrace
  contextOverflow : Option OverflowTrace
  finalDeployment : Option DeploymentId
  requests : List (RouteName × RequestOutcome)
  failovers : Nat
  contextOverflowFailovers : Nat

/-- Whether the loop goes on to the next candidate, leaves for its end, or returns from inside. -/
inductive WalkStep where
  | next (walk : Walk)
  | done (walk : Walk)
  | stop (ended : RouteEnd) (walk : Walk)

/-- Record where a session's request succeeded. -/
def settleAffinity (affinity : AffinityBook) (key : AffinityKey) (planned : Option Sticky)
    (stickyFailed : Option Reassignment) (answered : DeploymentId) (now : Nat) : AffinityBook :=
  let reassigned := match planned, stickyFailed with
    | some .hit, some reason => some reason
    | some (.broken reason), _ => some reason
    | _, _ => none
  match reassigned with
  | some _ => affinity.reassignAt key answered now
  | none => (affinity.establishAt key answered now).2

def isSuccess (status : Nat) : Bool := 200 ≤ status && status ≤ 299

namespace Walk

/-- A slot for one attempt: the one reserved with the plan for the first candidate, or a new one. A
reservation that was not for this candidate is dropped. -/
def takeLease (walk : Walk) (attempt : Nat) (deployment : DeploymentId) : Lease × Walk :=
  match walk.reservation, attempt with
  | some lease, 0 => (lease, { walk with reservation := none })
  | some lease, _ =>
      let (taken, load) := (walk.load.release lease).acquire deployment
      (taken, { walk with load, reservation := none })
  | none, _ =>
      let (taken, load) := walk.load.acquire deployment
      (taken, { walk with load })

def drop (walk : Walk) (lease : Lease) : Walk :=
  { walk with load := walk.load.release lease }

/-- What a return does to a reservation that no attempt took. -/
def dropReservation (walk : Walk) : Walk :=
  match walk.reservation with
  | some lease => { walk with load := walk.load.release lease, reservation := none }
  | none => walk

end Walk

section Loop

variable [Lowercase]

def Round.contextOf (round : Round) (candidate : Candidate) : Option Nat :=
  (round.observed candidate.deployment).map DeploymentObservation.contextLength

/-- Only a candidate advertising more than `floor` is worth trying. -/
def Round.largerThan (round : Round) (candidate : Candidate) (floor : Option Nat) : Bool :=
  match floor with
  | none => true
  | some floor => (round.contextOf candidate).any fun context => floor < context

def Round.trace (round : Round) (decision : RoutingDecision) (startedAt : Nat)
    (outcome : AttemptOutcome) : AttemptTrace :=
  ⟨round.route.name, decision.deployment, decision.reason, outcome, startedAt⟩

/-- Try the next candidate, if one is left that is larger than what overflowed. -/
def Round.moveOn (round : Round) (oracle : AttemptOracle) (attempt : Nat) (rest : List Candidate)
    (refusal : Option Refusal) (walk : Walk) : WalkStep :=
  let sticky := attempt = 0 ∧ round.plan.sticky = some .hit
  let walk := { walk with
    afterOverflow := false
    stickyFailed := if sticky then some .stickyFailed else walk.stickyFailed
    lastRefusal := refusal.or walk.lastRefusal }
  if rest.any fun next => round.largerThan next walk.tooSmall then
    if expired round.budget (oracle.endedAt attempt) then .stop (.budgetExhausted false) walk
    else .next { walk with failovers := walk.failovers + 1 }
  else .next walk

/-- Raise the floor to the context that overflowed; a context never seen cannot be compared with, so
nothing is known to be larger than it. -/
def Round.overflow (round : Round) (oracle : AttemptOracle) (attempt : Nat) (candidate : Candidate)
    (rest : List Candidate) (refusal : Refusal) (walk : Walk) : WalkStep :=
  let sticky := attempt = 0 ∧ round.plan.sticky = some .hit
  let failed := round.contextOf candidate
  let trace := walk.contextOverflow.getD ⟨round.needs.promptTokens, [], none⟩
  let walk := { walk with
    stickyFailed := if sticky then some .stickyContextOverflow else walk.stickyFailed
    contextOverflow := some
      { trace with tooSmall := trace.tooSmall ++ [⟨candidate.deployment, failed⟩] }
    tooSmall := some (max (failed.getD u32Max) (walk.tooSmall.getD 0))
    lastRefusal := some refusal }
  if !rest.any fun next => round.largerThan next walk.tooSmall then .done walk
  else if expired round.budget (oracle.endedAt attempt) then .stop (.budgetExhausted false) walk
  else .next { walk with
    afterOverflow := true
    failovers := walk.failovers + 1
    contextOverflowFailovers := walk.contextOverflowFailovers + 1 }

/-- The answer is the client's: the session settles where a request succeeded, and only there. -/
def Round.commit (round : Round) (oracle : AttemptOracle) (attempt : Nat) (candidate : Candidate)
    (status : Nat) (lease : Lease) (walk : Walk) : WalkStep :=
  let affinity := match isSuccess status, round.session with
    | true, some key => settleAffinity walk.affinity key round.plan.sticky walk.stickyFailed
        candidate.deployment (oracle.endedAt attempt)
    | _, _ => walk.affinity
  .stop (.committed candidate.deployment status lease) { walk with
    affinity
    contextOverflow := if walk.afterOverflow then
        walk.contextOverflow.map fun trace =>
          { trace with answeredContext := round.contextOf candidate }
      else walk.contextOverflow
    finalDeployment := some candidate.deployment
    requests := walk.requests ++ [(round.route.name, .ofStatus status)] }

/-- One turn of the loop over the plan's candidates. -/
def Round.turn (round : Round) (oracle : AttemptOracle) (attempt : Nat) (candidate : Candidate)
    (rest : List Candidate) (walk : Walk) : WalkStep :=
  if !round.largerThan candidate walk.tooSmall then .next walk
  else
    match round.plan.decision attempt with
    | none => .done walk
    | some planned =>
        let decision :=
          if walk.afterOverflow then { planned with reason := .contextOverflowFailover } else planned
        match round.topology.node candidate.node with
        | none => .next walk
        | some _ =>
            -- No attempt starts once the budget is spent: no lease, no connection, nothing sent.
            if expired round.budget (oracle.startedAt attempt) then
              .stop (.budgetExhausted (walk.attemptsMade == 0)) walk
            else
              let (lease, walk) := walk.takeLease attempt candidate.deployment
              let ended := fun outcome => { walk with
                attemptsMade := walk.attemptsMade + 1
                attempts := walk.attempts ++
                  [round.trace decision (oracle.startedAt attempt) outcome] }
              if round.budget.isSome && oracle.cut attempt then
                .stop (.budgetExhausted false) ((ended .requestBudgetExhausted).drop lease)
              else
                match oracle.outcome attempt with
                | .next refusal => round.moveOn oracle attempt rest refusal ((ended .failed).drop lease)
                | .contextOverflow refusal =>
                    round.overflow oracle attempt candidate rest refusal
                      ((ended .contextOverflow).drop lease)
                | .committed status =>
                    round.commit oracle attempt candidate status lease (ended .committed)

/-- The end of a walk that nothing answered: the last refusal, or that nothing could take it. -/
def Round.conclude (round : Round) (walk : Walk) : RouteFailure :=
  match walk.lastRefusal with
  | some refusal =>
      let unready := refusal.status = 502 ∨ refusal.status = 503 ∨ refusal.status = 504
      { response := .refusal refusal
        outcome := .ofStatus refusal.status
        observation := if unready then some .unavailable else none
        reason := if unready ∧ walk.contextOverflow.isNone then some .routeExhausted else none
        route := round.route.name }
  | none =>
      { response := .routing (.routeUnavailable round.route.name)
        outcome := .unavailable
        observation := none
        reason := some .routeUnavailable
        route := round.route.name }

/-- The loop from the candidate at `attempt` on. -/
def Round.walkFrom (round : Round) (oracle : AttemptOracle) :
    Nat → List Candidate → Walk → RouteEnd × Walk
  | _, [], walk => (.failed (round.conclude walk), walk)
  | attempt, candidate :: rest, walk =>
      match round.turn oracle attempt candidate rest walk with
      | .next walk => round.walkFrom oracle (attempt + 1) rest walk
      | .done walk => (.failed (round.conclude walk), walk)
      | .stop ended walk => (ended, walk)

end Loop

/-- What `attempt_route` reads and writes of the router; the snapshots of the health book are read
once. -/
structure RouterState [Lowercase] where
  topology : Topology
  health : NodeId → Option NodeStatus
  observed : DeploymentId → Option DeploymentObservation
  selector : Selector
  affinity : AffinityBook

/-- What is left when an attempt at a route is over. -/
structure RouteAttempt [Lowercase] where
  ended : RouteEnd
  state : RouterState
  attempts : List AttemptTrace
  contextOverflow : Option OverflowTrace
  requests : List (RouteName × RequestOutcome)

section Route

variable [Lowercase]

/-- The failure of a route that has no plan. -/
def planFailure (route : RouteName) (failure : RoutingFailure) : RouteFailure :=
  match failure with
  | .capabilityMismatch _ _ _ =>
      { response := .routing failure, outcome := .clientError,
        observation := some .capabilityMismatch, reason := some .routeCapabilityMismatch, route }
  | .routeUnavailable _ =>
      { response := .routing failure, outcome := .unavailable, observation := none,
        reason := some .routeUnavailable, route }
  | _ =>
      { response := .routing failure, outcome := .unavailable, observation := none, reason := none,
        route }

def Walk.start (load : LoadBook) (affinity : AffinityBook) (reservation : Option Lease) : Walk :=
  { load, affinity, reservation, lastRefusal := none, tooSmall := none, afterOverflow := false,
    stickyFailed := none, attemptsMade := 0, attempts := [], contextOverflow := none,
    finalDeployment := none, requests := [], failovers := 0, contextOverflowFailovers := 0 }

/-- The deployment the session is kept on, and the book after it was looked up. -/
def lookupSession (affinity : AffinityBook) (session : Option AffinityKey) (now : Nat) :
    Option DeploymentId × AffinityBook :=
  match session with
  | none => (none, affinity)
  | some key => affinity.lookupAt key now

/-- One attempt at one logical route. `header` is the session header, `now` the clock when the
affinity is looked up. -/
def attemptRoute (state : RouterState) (route : Route) (needs : RequestRequirements)
    (header : Option (List Char)) (budget : Option RequestBudget) (now : Nat)
    (oracle : AttemptOracle) : RouteAttempt :=
  let session := state.affinity.session route.name header
  let (sticky, affinity) := lookupSession state.affinity session now
  match state.selector.planWithAffinity state.topology route state.health state.observed needs
      sticky with
  | (.error failure, selector) =>
      { ended := .failed (planFailure route.name failure)
        state := { state with selector, affinity }
        attempts := []
        contextOverflow := none
        requests := [] }
  | (.ok plan, selector) =>
      let round : Round :=
        { topology := state.topology, route, plan, observed := state.observed, needs, session,
          budget }
      let (ended, walk) := round.walkFrom oracle 0 plan.candidates
        (.start selector.load affinity plan.reservation)
      let walk := walk.dropReservation
      { ended
        state := { state with
          selector := { selector with load := walk.load }
          affinity := walk.affinity }
        attempts := walk.attempts
        contextOverflow := walk.contextOverflow
        requests := walk.requests }

end Route

end Lightweight.Router
