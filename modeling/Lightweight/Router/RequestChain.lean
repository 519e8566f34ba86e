import Lightweight.Router.AttemptWalk
import Lightweight.Router.RouteRequest

/-! The walk of a request over its routes: where it may go, what moves it on, and that it is counted
and finished once however long it gets. -/

namespace Lightweight.Router

open Lightweight.Catalog

/-- How often a request is counted, and how often it is finished. -/
structure Counted (recorded finished : Nat) (events : List RequestEvent) : Prop where
  recorded : events.countP RequestEvent.isRecorded = recorded
  finished : events.countP RequestEvent.isFinished = finished

namespace Counted

theorem append {r r' f f' : Nat} {events others : List RequestEvent} (first : Counted r f events)
    (second : Counted r' f' others) : Counted (r + r') (f + f') (events ++ others) := by
  constructor
  · rw [List.countP_append, first.recorded, second.recorded]
  · rw [List.countP_append, first.finished, second.finished]

theorem nil : Counted 0 0 [] := ⟨rfl, rfl⟩

theorem observed (route : RouteName) (observation : RouteObservation) (nested : Bool) :
    Counted 0 0 (observeRoute route observation nested) := by
  cases nested with
  | true => exact nil
  | false => exact ⟨rfl, rfl⟩

end Counted

namespace Tracker

theorem finish_counted {tracker : Tracker} (running : tracker.finished = false)
    (status : Option Nat) (outcome : FinishOutcome) :
    Counted 0 1 (tracker.finish status outcome).2 ∧
      (tracker.finish status outcome).1.finished = true := by
  unfold finish
  rw [if_neg (by simp [running])]
  refine ⟨?_, rfl⟩
  have last : Counted 0 1 [RequestEvent.finished tracker.route status outcome] := ⟨rfl, rfl⟩
  by_cases hidden : tracker.unobserved = true
  · simpa [hidden] using last
  · have seen := Counted.observed tracker.route (tracker.observation.getD (.ofOutcome outcome))
      tracker.nested
    simpa [hidden] using seen.append last

/-- A call that comes after the first does nothing. -/
theorem finish_finished {tracker : Tracker} (ended : tracker.finished = true)
    (status : Option Nat) (outcome : FinishOutcome) :
    tracker.finish status outcome = (tracker, []) := by
  unfold finish
  rw [if_pos ended]

theorem finishAndDrop_finished {tracker : Tracker} (ended : tracker.finished = true)
    (status : Option Nat) (outcome : FinishOutcome) :
    tracker.finishAndDrop status outcome = [] := by
  simp [finishAndDrop, drop, finish_finished ended]

theorem finishAndDrop_counted {tracker : Tracker} (running : tracker.finished = false)
    (status : Option Nat) (outcome : FinishOutcome) :
    Counted 0 1 (tracker.finishAndDrop status outcome) := by
  have first := finish_counted running status outcome
  have later : (tracker.finish status outcome).1.drop = [] := by
    rw [drop, finish_finished first.2]
  change Counted 0 1 ((tracker.finish status outcome).2 ++ (tracker.finish status outcome).1.drop)
  rw [later, List.append_nil]
  exact first.1

end Tracker

/-- A committed body finishes the request once, by its end or by its drop. -/
theorem relayEvents_counted {tracker : Tracker} (running : tracker.finished = false) (status : Nat)
    (ending : BodyEnding) : Counted 0 1 (relayEvents tracker status ending) := by
  have ended : ∀ code outcome after, Counted 0 1 ((tracker.finish code outcome).2 ++
      (tracker.finish code outcome).1.finishAndDrop after .cancelled) := by
    intro code outcome after
    have first := Tracker.finish_counted running code outcome
    rw [Tracker.finishAndDrop_finished first.2, List.append_nil]
    exact first.1
  cases ending with
  | whole => exact ended _ _ _
  | unreadable => exact ended _ _ _
  | stream completed =>
      cases completed with
      | true => exact ended _ _ _
      | false => exact ended _ _ _
  | abandoned => exact Tracker.finishAndDrop_counted running _ _

theorem exhaust_counted {tracker : Tracker} (running : tracker.finished = false)
    (limited : tracker.budget.isSome = true) (stage : Stage) :
    Counted 1 1 (exhaust tracker stage) := by
  have recorded : Counted 1 0 [RequestEvent.recorded tracker.route .requestBudgetExhausted] :=
    ⟨rfl, rfl⟩
  have marked : Counted 0 0
      (if tracker.nested then [] else [RequestEvent.budgetExhausted stage]) := by
    cases tracker.nested with
    | true => exact .nil
    | false => exact ⟨rfl, rfl⟩
  unfold exhaust
  cases budget : tracker.budget with
  | none =>
      rw [budget] at limited
      cases limited
  | some limit =>
      exact (marked.append recorded).append (Tracker.finishAndDrop_counted running _ _)

theorem conclude_counted (failure : RouteFailure) {tracker : Tracker}
    (running : tracker.finished = false) : Counted 1 1 (failure.conclude tracker) := by
  have recorded : Counted 1 0 [RequestEvent.recorded failure.route failure.outcome] := ⟨rfl, rfl⟩
  have observed : Tracker.finished { tracker with observation := failure.observation } = false :=
    running
  exact recorded.append (Tracker.finishAndDrop_counted observed _ _)

theorem concludeChain_counted (initial : RouteName) (hops : List FallbackAttemptTrace)
    (failure : RouteFailure) (overflowed : Bool) {tracker : Tracker}
    (running : tracker.finished = false) :
    Counted 1 1 (concludeChain initial hops failure overflowed tracker) := by
  unfold concludeChain
  split
  · exact conclude_counted failure running
  · have marked : Counted 0 0
        (failure.reason.toList.map (RequestEvent.crossRouteExhausted initial)) := by
      cases failure.reason with
      | none => exact .nil
      | some reason => exact ⟨rfl, rfl⟩
    apply marked.append (conclude_counted failure ?_)
    exact running

section Chain

variable [Lowercase]

theorem stopped_counted (request : RoutedRequest) (route : Route)
    (hops : List FallbackAttemptTrace) (before : Bool) {tracker : Tracker}
    (running : tracker.finished = false) (limited : tracker.budget.isSome = true) :
    Counted 1 1 (request.stopped route hops before tracker) := by
  unfold RoutedRequest.stopped
  split
  · exact exhaust_counted (by exact running) (by exact limited) .crossRouteFallback
  · split
    · exact exhaust_counted (by exact running) (by exact limited) .routePlanning
    · exact exhaust_counted running limited .sameRouteAttempt

/-- What holds of a walk that starts at `route` with the routes `remaining` before it. -/
structure Chained (route : Route) (remaining : List RouteName) (result : RequestEnd) : Prop where
  routes : ∃ taken, result.attempted.map Prod.fst = route.name :: taken ∧ taken <+: remaining
  moves : ∀ step ∈ result.attempted.dropLast, ∃ failure reason,
    step.2 = .failed failure ∧ failure.reason = some reason
  counted : Counted 1 1 result.events

omit [Lowercase] in
theorem Chained.single {route : Route} (remaining : List RouteName) {ended : RouteEnd}
    {events : List RequestEvent} (counted : Counted 1 1 events) :
    Chained route remaining ⟨[(route.name, ended)], events⟩ := by
  refine ⟨⟨[], rfl, List.nil_prefix⟩, ?_, counted⟩
  intro step member
  cases member

omit [Lowercase] in
/-- One more route before a walk, which failed for a reason to move on. -/
theorem Chained.move {route next : Route} {name : RouteName} {rest : List RouteName}
    {result : RequestEnd} (after : Chained next rest result) (named : next.name = name)
    {ended : RouteEnd} {failure : RouteFailure} {reason : FallbackReason}
    (failed : ended = .failed failure) (moved : failure.reason = some reason)
    {events : List RequestEvent} (counted : Counted 0 0 events) :
    Chained route (name :: rest)
      ⟨(route.name, ended) :: result.attempted, events ++ result.events⟩ := by
  rcases after.routes with ⟨taken, names, begins⟩
  have further : result.attempted ≠ [] := by
    rintro none'
    rw [none'] at names
    cases names
  refine ⟨⟨name :: taken, ?_, ?_⟩, ?_, counted.append after.counted⟩
  · rw [List.map_cons, names, named]
  · exact (List.prefix_cons_inj name).mpr begins
  · intro step member
    rw [List.dropLast_cons_of_ne_nil further] at member
    rcases List.mem_cons.mp member with rfl | later
    · exact ⟨failure, reason, failed, moved⟩
    · exact after.moves step later

theorem topology_route_name {topology : Topology} {name : RouteName} {route : Route}
    (found : topology.route name = some route) : route.name = name := by
  simpa using List.find?_some found

omit [Lowercase] in
theorem committed_counted {tracker : Tracker} (running : tracker.finished = false)
    (route : RouteName) (status : Nat) (ending : BodyEnding) :
    Counted 1 1 ([RequestEvent.recorded route (.ofStatus status)] ++
      relayEvents tracker status ending) := by
  have recorded : Counted 1 0 [RequestEvent.recorded route (.ofStatus status)] := ⟨rfl, rfl⟩
  exact recorded.append (relayEvents_counted running status ending)

/-- A route that does not move the request on is its last. -/
theorem chainFrom_stays (request : RoutedRequest) (oracle : RouteOracle request.budget)
    (remaining : List RouteName) (hop : Nat) (route : Route) (hops : List FallbackAttemptTrace)
    {tracker : Tracker} (running : tracker.finished = false)
    (budget : tracker.budget = request.budget)
    (stays : ∀ failure reason, oracle.ends hop route = .failed failure →
      failure.reason = some reason → remaining = []) :
    Chained route remaining (request.chainFrom oracle remaining hop route hops tracker) := by
  unfold RoutedRequest.chainFrom
  cases ended : oracle.ends hop route with
  | committed deployment status lease =>
      exact .single _ (committed_counted running route.name status oracle.ending)
  | budgetExhausted before =>
      have limited := oracle.limited hop route before ended
      rw [← budget] at limited
      exact .single _ (stopped_counted request route hops before running limited)
  | failed failure =>
      have concluded := concludeChain_counted request.initial.name hops failure
        (oracle.overflowed hop route) running
      dsimp only
      cases moved : failure.reason with
      | none => exact .single _ concluded
      | some reason =>
          rw [stays failure reason ended moved]
          exact .single _ concluded

/-- The loop, by induction on the routes that are left. -/
theorem chainFrom_chained (request : RoutedRequest) (oracle : RouteOracle request.budget)
    (remaining : List RouteName) (hop : Nat) (route : Route) (hops : List FallbackAttemptTrace)
    {tracker : Tracker} (running : tracker.finished = false)
    (budget : tracker.budget = request.budget) :
    Chained route remaining (request.chainFrom oracle remaining hop route hops tracker) := by
  induction remaining generalizing hop route hops tracker with
  | nil => exact chainFrom_stays request oracle [] hop route hops running budget fun _ _ _ _ => rfl
  | cons name rest ih =>
      by_cases moves : ∃ failure reason, oracle.ends hop route = .failed failure ∧
          failure.reason = some reason
      · rcases moves with ⟨failure, reason, ended, moved⟩
        have concluded := concludeChain_counted request.initial.name hops failure
          (oracle.overflowed hop route) running
        unfold RoutedRequest.chainFrom
        rw [ended]
        dsimp only
        rw [moved]
        dsimp only
        cases found : request.topology.route name with
        | none => exact .single _ concluded
        | some next =>
            dsimp only
            split
            · rename_i spent
              have limited : tracker.budget.isSome = true := by
                rw [budget]
                exact Option.isSome_of_any spent
              exact .single _ (exhaust_counted (by exact running) (by exact limited) _)
            · have going : (request.movedTo tracker
                  (hops ++ [⟨failure.route, false, some (.fallback reason)⟩]) next).finished =
                    false := running
              have after := ih (hop + 1) next
                (hops ++ [⟨failure.route, false, some (.fallback reason)⟩]) going budget
              have passed : Counted 0 0 [RequestEvent.crossRouteFallback failure.route next.name
                  reason] := ⟨rfl, rfl⟩
              exact after.move (topology_route_name found) rfl moved
                ((Counted.observed _ _ _).append passed)
      · apply chainFrom_stays request oracle (name :: rest) hop route hops running budget
        intro failure reason ended moved
        exact absurd ⟨failure, reason, ended, moved⟩ moves

/-- Where a request may go and what is counted of it: its own route and then some of that route's
list, in order and none twice; on to the next only from a failure with a reason; one route at most
unless it is a client's `Auto`; and one record and one finish at every end. -/
structure Conducts (request : RoutedRequest) (result : RequestEnd) : Prop where
  unattempted : result.attempted = [] ↔
    request.refused.isSome = true ∨ expired request.budget request.startedAt = true
  routes : result.attempted ≠ [] → ∃ taken,
    result.attempted.map Prod.fst = request.initial.name :: taken ∧
      taken <+: request.crossRouteFallback.chain request.initial.name
  distinct : (result.attempted.map Prod.fst).Nodup
  moves : ∀ step ∈ result.attempted.dropLast, ∃ failure reason,
    step.2 = .failed failure ∧ failure.reason = some reason
  alone : request.isAuto = false ∨ request.nested = true → result.attempted.length ≤ 1
  recordedOnce : result.events.countP RequestEvent.isRecorded = 1
  finishedOnce : result.events.countP RequestEvent.isFinished = 1

theorem fallbackPlan_within (request : RoutedRequest) :
    request.fallbackPlan <+: request.crossRouteFallback.chain request.initial.name := by
  unfold RoutedRequest.fallbackPlan
  split
  · exact List.prefix_refl _
  · exact List.nil_prefix

theorem fallbackPlan_alone {request : RoutedRequest}
    (alone : request.isAuto = false ∨ request.nested = true) : request.fallbackPlan = [] := by
  unfold RoutedRequest.fallbackPlan
  rcases alone with named | nested
  · simp [named]
  · simp [nested]

/-- A request that no route was attempted for. -/
theorem conducts_unattempted {request : RoutedRequest} {events : List RequestEvent}
    (early : request.refused.isSome = true ∨ expired request.budget request.startedAt = true)
    (counted : Counted 1 1 events) : Conducts request ⟨[], events⟩ := by
  refine ⟨?_, ?_, List.nodup_nil, ?_, ?_, counted.recorded, counted.finished⟩
  · simp [early]
  · intro some'
    exact absurd rfl some'
  · intro step member
    cases member
  · intro _
    exact Nat.zero_le 1

theorem Chained.conducts {request : RoutedRequest} {result : RequestEnd}
    (good : GoodChain request.topology.routes request.initial.name
      (request.crossRouteFallback.chain request.initial.name))
    (begun : ¬ (request.refused.isSome = true ∨ expired request.budget request.startedAt = true))
    (chained : Chained request.initial request.fallbackPlan result) : Conducts request result := by
  rcases chained.routes with ⟨taken, names, begins⟩
  have some' : result.attempted ≠ [] := by
    rintro none'
    rw [none'] at names
    cases names
  have own := begins.trans (fallbackPlan_within request)
  refine ⟨?_, ?_, ?_, chained.moves, ?_, chained.counted.recorded, chained.counted.finished⟩
  · simp [some', begun]
  · intro _
    exact ⟨taken, names, own⟩
  · rw [names, List.nodup_cons]
    refine ⟨?_, good.once.sublist own.sublist⟩
    intro member
    exact good.others (own.subset member)
  · intro alone
    rw [fallbackPlan_alone alone, List.prefix_nil] at begins
    have length := congrArg List.length names
    rw [begins, List.length_map] at length
    exact le_of_eq length

theorem request_conducts (request : RoutedRequest) {raw : CrossRouteFallbackFile}
    {reachable classifierRoutes : List RouteName}
    (validated : validate raw request.topology.routes reachable classifierRoutes =
      .ok request.crossRouteFallback) (oracle : RouteOracle request.budget) :
    Conducts request (request.routeRequest oracle) := by
  unfold RoutedRequest.routeRequest
  cases refused : request.refused with
  | some status =>
      have recorded : Counted 1 0 [RequestEvent.recorded request.initial.name .clientError] :=
        ⟨rfl, rfl⟩
      apply conducts_unattempted (Or.inl (by rw [refused]; rfl))
      exact recorded.append (Tracker.finishAndDrop_counted (by rfl) _ _)
  | none =>
      dsimp only
      split
      · rename_i spent
        have limited : request.budget.isSome = true := Option.isSome_of_any spent
        exact conducts_unattempted (Or.inr spent)
          (exhaust_counted (by rfl) (by exact limited) .routePlanning)
      · rename_i open'
        apply Chained.conducts (validate_good validated request.initial.name)
        · rw [refused]
          simp [open']
        · exact chainFrom_chained request oracle request.fallbackPlan 0 request.initial [] (by rfl)
            (by rfl)

/-- What `attempt_route` counts is what its end says. -/
theorem attemptRoute_requests (state : RouterState) (route : Route) (needs : RequestRequirements)
    (header : Option (List Char)) (budget : Option RequestBudget) (now : Nat)
    (oracle : AttemptOracle) :
    (attemptRoute state route needs header budget now oracle).requests =
      (attemptRoute state route needs header budget now oracle).ended.requests route.name := by
  cases planned : state.selector.planWithAffinity state.topology route state.health state.observed
      needs (lookupSession state.affinity (state.affinity.session route.name header) now).1 with
  | mk outcome selector =>
      cases outcome with
      | error failure =>
          rw [attemptRoute_unplanned planned budget oracle]
          rfl
      | ok plan =>
          rcases attemptRoute_walked planned budget oracle with
            ⟨round, ended, walk, _, _, named, held, same⟩
          rw [same, ← named]
          have ending := held.ending
          rw [RouteAttempt.ofWalk, walk.dropReservation_requests]
          cases ended with
          | committed deployment status lease => exact ending.2.2.2.1
          | failed failure => exact ending.2.2.1
          | budgetExhausted before => exact ending.2.2.1

/-- The oracle of a request whose routes are attempted by `attempt_route`, each in the state the
router is in by then. -/
def RouteOracle.ofAttempts (needs : RequestRequirements) (header : Option (List Char))
    (budget : Option RequestBudget) (state : Nat → RouterState) (now : Nat → Nat)
    (oracle : Nat → AttemptOracle) (checkedAt : Nat → Nat) (ending : BodyEnding) :
    RouteOracle budget where
  ends hop route :=
    (attemptRoute (state hop) route needs header budget (now hop) (oracle hop)).ended
  overflowed hop route :=
    (attemptRoute (state hop) route needs header budget (now hop)
      (oracle hop)).contextOverflow.isSome
  checkedAt
  ending
  limited hop route before stopped := by
    have limited := attemptRoute_limited (state hop) route needs header budget (now hop) (oracle hop)
    rw [stopped] at limited
    exact limited

end Chain

section Sample

attribute [local instance] asciiLowercase

def quickRoute : Route := ⟨['Q', 'u', 'i', 'c', 'k'], .leastBusy, [onA.id], none⟩

def generalRoute : Route := ⟨['G', 'e', 'n'], .leastBusy, [onB.id], none⟩

def quickTopology : Topology :=
  { spreadTopology with
    routes := [quickRoute, generalRoute]
    routeNames := by decide
    listed := by decide
    once := by decide
    allowed := by simp [quickRoute, generalRoute]
    unreserved := by decide
    default := by simp [spreadTopology] }

/-- A client's `Auto` request that the rules sent to the first route, which lists the second. -/
def autoRequest : RoutedRequest where
  topology := quickTopology
  crossRouteFallback := ⟨[(quickRoute.name, [generalRoute.name])]⟩
  isAuto := true
  nested := false
  budget := none
  initial := quickRoute
  refused := none
  startedAt := 0

/-- The first route has nothing to offer, the second answers and its stream runs to the end. -/
def unavailableThenAnswer : RouteOracle none where
  ends
    | 0, route => .failed (planFailure route.name (.routeUnavailable route.name))
    | _, _ => .committed onB.id 200 ⟨none⟩
  overflowed _ _ := false
  checkedAt _ := 0
  ending := .stream true
  limited hop route before stopped := by
    cases hop with
    | zero => cases stopped
    | succ hop => cases stopped

theorem request_conducts_after_unavailable_route :
    validate (Std.ExtTreeMap.ofList [(quickRoute.name, [generalRoute.name])])
        autoRequest.topology.routes [quickRoute.name] [] = .ok autoRequest.crossRouteFallback ∧
      (autoRequest.routeRequest unavailableThenAnswer).attempted.map Prod.fst =
        [quickRoute.name, generalRoute.name] ∧
      Conducts autoRequest (autoRequest.routeRequest unavailableThenAnswer) := by
  have validated : validate (Std.ExtTreeMap.ofList [(quickRoute.name, [generalRoute.name])])
      autoRequest.topology.routes [quickRoute.name] [] = .ok autoRequest.crossRouteFallback := by
    decide
  exact ⟨validated, by decide +kernel, request_conducts autoRequest validated unavailableThenAnswer⟩

end Sample

end Lightweight.Router
