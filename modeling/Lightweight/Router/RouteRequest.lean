import Lightweight.Router.Attempt
import Lightweight.Router.Fallback

/-! One request from the moment it has a route to its end (`route_request` of
`lightweight-router/src/proxy.rs`): the initial route, the routes its list names if it was `Auto`'s
to choose, and what is counted on the way. How each route attempt ends comes from an oracle that
promises what `attempt_route` does. -/

namespace Lightweight.Router

open Lightweight.Catalog

/-- How a request's trace says it ended. -/
inductive FinishOutcome where
  | counted (outcome : RequestOutcome)
  | interrupted
  | cancelled
deriving DecidableEq, Repr

def RouteObservation.ofOutcome : FinishOutcome → RouteObservation
  | .counted .ok => .success
  | .counted .serverError => .serverError
  | .interrupted => .interrupted
  | .counted .unavailable => .unavailable
  | _ => .neutral

/-- Where a request was when its budget ended it. -/
inductive Stage where
  | classifier
  | routePlanning
  | sameRouteAttempt
  | crossRouteFallback
deriving DecidableEq, Repr

/-- What is counted, observed or traced outside the request. -/
inductive RequestEvent where
  | recorded (route : RouteName) (outcome : RequestOutcome)
  | finished (route : RouteName) (status : Option Nat) (outcome : FinishOutcome)
  | observed (route : RouteName) (observation : RouteObservation)
  | crossRouteFallback (source target : RouteName) (reason : FallbackReason)
  | crossRouteExhausted (initial : RouteName) (reason : FallbackReason)
  | budgetExhausted (stage : Stage)
deriving DecidableEq, Repr

def RequestEvent.isRecorded : RequestEvent → Bool
  | .recorded _ _ => true
  | _ => false

def RequestEvent.isFinished : RequestEvent → Bool
  | .finished _ _ _ => true
  | _ => false

inductive HopReason where
  | fallback (reason : FallbackReason)
  | contextLengthExceeded
  | requestBudgetExhausted
deriving DecidableEq, Repr

structure FallbackAttemptTrace where
  route : RouteName
  committed : Bool
  reason : Option HopReason
deriving DecidableEq, Repr

structure FallbackTrace where
  initialRoute : RouteName
  finalRoute : RouteName
  exhausted : Bool
  attempts : List FallbackAttemptTrace
deriving DecidableEq, Repr

/-- Everything measured about one routed request. -/
structure Tracker where
  route : RouteName
  policy : RoutePolicy
  finished : Bool
  nested : Bool
  observation : Option RouteObservation
  budget : Option RequestBudget
  unobserved : Bool
  fallback : Option FallbackTrace
deriving DecidableEq, Repr

/-- One route's observation, never for the router's own classification requests. -/
def observeRoute (route : RouteName) (observation : RouteObservation) (nested : Bool) :
    List RequestEvent :=
  if nested then [] else [.observed route observation]

namespace Tracker

def new (route : RouteName) (policy : RoutePolicy) (nested : Bool)
    (budget : Option RequestBudget) : Tracker :=
  { route, policy, finished := false, nested, observation := none, budget, unobserved := false,
    fallback := none }

/-- Only the first call counts. -/
def finish (tracker : Tracker) (status : Option Nat) (outcome : FinishOutcome) :
    Tracker × List RequestEvent :=
  if tracker.finished then (tracker, [])
  else
    let observed :=
      if tracker.unobserved then []
      else observeRoute tracker.route (tracker.observation.getD (.ofOutcome outcome)) tracker.nested
    ({ tracker with finished := true }, observed ++ [.finished tracker.route status outcome])

/-- What is left is finished as cancelled. -/
def drop (tracker : Tracker) : List RequestEvent :=
  (tracker.finish none .cancelled).2

/-- Finish, and go out of scope. -/
def finishAndDrop (tracker : Tracker) (status : Option Nat) (outcome : FinishOutcome) :
    List RequestEvent :=
  let (finished, events) := tracker.finish status outcome
  events ++ finished.drop

/-- Point the request at the next route of its fallback plan. -/
def retarget (tracker : Tracker) (route : Route) : Tracker :=
  { tracker with
    route := route.name, policy := route.policy, observation := none, unobserved := false }

/-- The budget refused the route's first attempt: count the request under `label`. -/
def unattempted (tracker : Tracker) (label : RouteName) : Tracker :=
  { tracker with route := label, unobserved := true }

end Tracker

/-- How a committed body goes: read whole, unreadable, streamed to its end or broken off, or left by
the client. -/
inductive BodyEnding where
  | whole
  | unreadable
  | stream (completed : Bool)
  | abandoned
deriving DecidableEq, Repr

/-- A committed response holds the tracker until its body is over, ends it if there is an end, and
drops it. -/
def relayEvents (tracker : Tracker) (status : Nat) (ending : BodyEnding) : List RequestEvent :=
  let (held, ended) := match ending with
    | .whole => tracker.finish (some status) (.counted (.ofStatus status))
    | .unreadable => tracker.finish (some 502) (.counted .serverError)
    | .stream true => tracker.finish (some status) (.counted .ok)
    | .stream false => tracker.finish (some status) .interrupted
    | .abandoned => (tracker, [])
  ended ++ held.finishAndDrop (some (if ending = .unreadable then 502 else status)) .cancelled

def FailureResponse.status : FailureResponse → Nat
  | .refusal sent => sent.status
  | .routing (.unknownRoute _) => 404
  | .routing .noDefaultRoute => 400
  | .routing (.routeUnavailable _) => 503
  | .routing (.capabilityMismatch _ _ _) => 400

/-- What `attempt_route` itself counts: a committed request. -/
def RouteEnd.requests (ended : RouteEnd) (route : RouteName) :
    List (RouteName × RequestOutcome) :=
  match ended with
  | .committed _ status _ => [(route, .ofStatus status)]
  | _ => []

/-- How the attempts at the routes end. Only a budget stops a route. -/
structure RouteOracle (budget : Option RequestBudget) where
  ends : Nat → Route → RouteEnd
  overflowed : Nat → Route → Bool
  checkedAt : Nat → Nat
  ending : BodyEnding
  limited : ∀ hop route before, ends hop route = .budgetExhausted before → budget.isSome = true

/-- A request that has a route. `refused` is the status of a refusal by `requirements::extract`, which
`Auto` has read before. -/
structure RoutedRequest [Lowercase] where
  topology : Topology
  crossRouteFallback : CrossRouteFallback
  isAuto : Bool
  nested : Bool
  budget : Option RequestBudget
  initial : Route
  refused : Option Nat
  startedAt : Nat

/-- The routes attempted, with how each ended, and what was counted. -/
structure RequestEnd where
  attempted : List (RouteName × RouteEnd)
  events : List RequestEvent
deriving DecidableEq, Repr

/-- End a request the budget stopped. -/
def exhaust (tracker : Tracker) (stage : Stage) : List RequestEvent :=
  match tracker.budget with
  | none => tracker.finishAndDrop none (.counted .serverError)
  | some _ =>
      (if tracker.nested then [] else [.budgetExhausted stage]) ++
        [.recorded tracker.route .requestBudgetExhausted] ++
        tracker.finishAndDrop (some 504) (.counted .requestBudgetExhausted)

/-- Answer the client with the route's own error, counting the request once, under this route. -/
def RouteFailure.conclude (failure : RouteFailure) (tracker : Tracker) : List RequestEvent :=
  [.recorded failure.route failure.outcome] ++
    Tracker.finishAndDrop { tracker with observation := failure.observation }
      (some failure.response.status) (.counted failure.outcome)

/-- The end of a walk whose last route attempt committed nothing. -/
def concludeChain (initial : RouteName) (hops : List FallbackAttemptTrace) (failure : RouteFailure)
    (overflowed : Bool) (tracker : Tracker) : List RequestEvent :=
  if hops.isEmpty then failure.conclude tracker
  else
    let reason := (failure.reason.map HopReason.fallback).or
      (if overflowed then some .contextLengthExceeded else none)
    let exhausted := failure.reason.toList.map (RequestEvent.crossRouteExhausted initial)
    exhausted ++ failure.conclude { tracker with
      fallback := some ⟨initial, failure.route, failure.reason.isSome,
        hops ++ [⟨failure.route, false, reason⟩]⟩ }

section Chain

variable [Lowercase]

namespace RoutedRequest

/-- The routes the request may move to, read once from the initial route's own list. -/
def fallbackPlan (request : RoutedRequest) : List RouteName :=
  if request.isAuto && !request.nested then
    request.crossRouteFallback.chain request.initial.name
  else []

/-- The name a request is counted under when no route was attempted. -/
def label (request : RoutedRequest) (route : Route) : RouteName :=
  if request.isAuto then autoRoute else route.name

/-- The budget stopped `route`: on a fallback route, before the initial one's first attempt, or
after it. -/
def stopped (request : RoutedRequest) (route : Route) (hops : List FallbackAttemptTrace)
    (beforeFirstAttempt : Bool) (tracker : Tracker) : List RequestEvent :=
  if !hops.isEmpty then
    let block := tracker.fallback.map fun trace => { trace with
      attempts := trace.attempts.dropLast ++ (trace.attempts.getLast?.map fun last =>
        { last with committed := false, reason := some .requestBudgetExhausted }).toList }
    exhaust { tracker with
      fallback := block, unobserved := beforeFirstAttempt || tracker.unobserved } .crossRouteFallback
  else if beforeFirstAttempt then
    exhaust (tracker.unattempted (request.label route)) .routePlanning
  else exhaust tracker .sameRouteAttempt

/-- The tracker of a request that moves on to `next`; its trace is right if `next` commits. -/
def movedTo (request : RoutedRequest) (tracker : Tracker) (hops : List FallbackAttemptTrace)
    (next : Route) : Tracker :=
  { tracker.retarget next with
    fallback := some ⟨request.initial.name, next.name, false, hops ++ [⟨next.name, true, none⟩]⟩ }

/-- The loop: one route attempt at a time. Only an uncommitted failure for a fallback reason moves
the request to the next route of its plan. -/
def chainFrom (request : RoutedRequest) (oracle : RouteOracle request.budget) :
    List RouteName → Nat → Route → List FallbackAttemptTrace → Tracker → RequestEnd
  | remaining, hop, route, hops, tracker =>
      let ended := oracle.ends hop route
      let counted := (ended.requests route.name).map fun (name, outcome) =>
        RequestEvent.recorded name outcome
      match ended with
      | .committed _ status _ =>
          ⟨[(route.name, ended)], counted ++ relayEvents tracker status oracle.ending⟩
      | .budgetExhausted before =>
          ⟨[(route.name, ended)], counted ++ request.stopped route hops before tracker⟩
      | .failed failure =>
          let concluded := concludeChain request.initial.name hops failure
            (oracle.overflowed hop route) tracker
          match failure.reason, remaining with
          | some reason, name :: rest =>
              match request.topology.route name with
              | none => ⟨[(route.name, ended)], counted ++ concluded⟩
              | some next =>
                  let hops := hops ++ [⟨failure.route, false, some (.fallback reason)⟩]
                  let observation := failure.observation.getD (.ofOutcome (.counted failure.outcome))
                  if expired request.budget (oracle.checkedAt hop) then
                    ⟨[(route.name, ended)], counted ++ exhaust { tracker with
                      observation := some observation
                      fallback := some ⟨request.initial.name, failure.route, false, hops⟩ }
                      .crossRouteFallback⟩
                  else
                    let after := chainFrom request oracle rest (hop + 1) next hops
                      (request.movedTo tracker hops next)
                    ⟨(route.name, ended) :: after.attempted,
                      counted ++ observeRoute failure.route observation request.nested ++
                        [.crossRouteFallback failure.route next.name reason] ++ after.events⟩
          | _, _ => ⟨[(route.name, ended)], counted ++ concluded⟩

/-- A request with a route, to its end. -/
def routeRequest (request : RoutedRequest) (oracle : RouteOracle request.budget) : RequestEnd :=
  let tracker := Tracker.new request.initial.name request.initial.policy request.nested
    request.budget
  match request.refused with
  | some status =>
      ⟨[], [.recorded request.initial.name .clientError] ++
        tracker.finishAndDrop (some status) (.counted .clientError)⟩
  | none =>
      if expired request.budget request.startedAt then
        ⟨[], exhaust (tracker.unattempted (request.label request.initial)) .routePlanning⟩
      else
        request.chainFrom oracle request.fallbackPlan 0 request.initial [] tracker

end RoutedRequest

end Chain

end Lightweight.Router
