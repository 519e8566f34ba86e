import Lightweight.Router.Attempt
import Lightweight.Router.SelectPlans

/-! What a walk over a plan keeps to, whatever the nodes answer and whenever the deadline comes: the
slots it takes are given back, the contexts it tries grow, and a session moves only on success. -/

namespace Lightweight.Router

open Lightweight.Catalog

/-- Giving back the slot just taken leaves the counts as they were. -/
theorem LoadBook.acquire_release (book : LoadBook) (deployment : DeploymentId) :
    (book.acquire deployment).2.release (book.acquire deployment).1 = book := by
  unfold acquire
  cases found : book.counters deployment with
  | none => rfl
  | some count =>
      have same : Function.update (Function.update book.counters deployment (some (count + 1)))
          deployment (some count) = book.counters := by
        rw [Function.update_idem, ← found, Function.update_eq_self]
      simp only [release, Function.update_self, Option.map_some, Nat.add_sub_cancel]
      rw [same]

@[simp]
theorem Walk.dropReservation_attempts (walk : Walk) :
    walk.dropReservation.attempts = walk.attempts := by
  unfold dropReservation
  split <;> rfl

@[simp]
theorem Walk.dropReservation_affinity (walk : Walk) :
    walk.dropReservation.affinity = walk.affinity := by
  unfold dropReservation
  split <;> rfl

@[simp]
theorem Walk.dropReservation_requests (walk : Walk) :
    walk.dropReservation.requests = walk.requests := by
  unfold dropReservation
  split <;> rfl

/-- A slot taken for an attempt changes the counts only, and once it is dropped leaves what dropping
the reservation would. -/
theorem Walk.takeLease_spec {walk after : Walk} {attempt : Nat} {deployment : DeploymentId}
    {lease : Lease} (taken : walk.takeLease attempt deployment = (lease, after)) :
    ∃ load, after = { walk with load, reservation := none } ∧
      load.release lease = walk.dropReservation.load := by
  unfold takeLease at taken
  cases held : walk.reservation with
  | none =>
      have back := walk.load.acquire_release deployment
      cases acquired : walk.load.acquire deployment with
      | mk given load =>
          rw [acquired] at back
          simp only [held, acquired] at taken
          cases taken
          refine ⟨load, ?_, ?_⟩
          · rw [← held]
          · rw [back, dropReservation, held]
  | some reserved =>
      cases attempt with
      | zero =>
          simp only [held] at taken
          cases taken
          refine ⟨walk.load, rfl, ?_⟩
          rw [dropReservation, held]
      | succ attempt =>
          have back := (walk.load.release reserved).acquire_release deployment
          cases acquired : (walk.load.release reserved).acquire deployment with
          | mk given load =>
              rw [acquired] at back
              simp only [held, acquired] at taken
              cases taken
              refine ⟨load, rfl, ?_⟩
              rw [back, dropReservation, held]

/-- Only a budget stops a route. -/
def RouteEnd.Limited (ended : RouteEnd) (budget : Option RequestBudget) : Prop :=
  match ended with
  | .budgetExhausted _ => budget.isSome = true
  | _ => True

section Turns

variable [Lowercase]

def Round.contextAt (round : Round) (deployment : DeploymentId) : Option Nat :=
  (round.observed deployment).map DeploymentObservation.contextLength

/-- The later attempt is at a context that is known and larger than the earlier one's; one never seen
counts as the largest. -/
def Round.Outgrows (round : Round) (earlier later : AttemptTrace) : Prop :=
  ∃ context, round.contextAt later.deployment = some context ∧
    (round.contextAt earlier.deployment).getD u32Max < context

/-- The attempts of a walk through the candidates `tried`: in their order, each begun in time, and
after an overflow only at larger contexts. -/
structure InOrder (round : Round) (tried : List Candidate) (attempts : List AttemptTrace) :
    Prop where
  order : (attempts.map AttemptTrace.deployment).Sublist (tried.map Candidate.deployment)
  larger : attempts.Pairwise fun a b => a.outcome = .contextOverflow → round.Outgrows a b
  begun : ∀ trace ∈ attempts, expired round.budget trace.startedAt = false

/-- What holds of a walk that has been through the candidates `tried` and answered nothing. -/
structure Tried (round : Round) (base : LoadBook) (affinity : AffinityBook)
    (tried : List Candidate) (walk : Walk) : Prop where
  inOrder : InOrder round tried walk.attempts
  uncommitted : ∀ trace ∈ walk.attempts, trace.outcome ≠ .committed
  load : walk.dropReservation.load = base
  affinity : walk.affinity = affinity
  requests : walk.requests = []

/-- The floor is at least every context that overflowed. -/
def Floored (round : Round) (walk : Walk) : Prop :=
  ∀ trace ∈ walk.attempts, trace.outcome = .contextOverflow →
    ∃ floor, walk.tooSmall = some floor ∧ (round.contextAt trace.deployment).getD u32Max ≤ floor

/-- What holds at the end of a walk. A commit keeps its slot, and is the last attempt. -/
structure Walked (round : Round) (base : LoadBook) (affinity : AffinityBook)
    (tried : List Candidate) (ended : RouteEnd) (walk : Walk) : Prop where
  inOrder : InOrder round tried walk.attempts
  limited : ended.Limited round.budget
  ending : match ended with
    | .committed deployment status lease =>
        (∃ earlier last, walk.attempts = earlier ++ [last] ∧ last.deployment = deployment ∧
          last.outcome = .committed ∧ ∀ trace ∈ earlier, trace.outcome ≠ .committed) ∧
        walk.load.release lease = base ∧ walk.reservation = none ∧
        walk.requests = [(round.route.name, .ofStatus status)] ∧
        (isSuccess status = false → walk.affinity = affinity)
    | _ => (∀ trace ∈ walk.attempts, trace.outcome ≠ .committed) ∧
        walk.dropReservation.load = base ∧ walk.requests = [] ∧ walk.affinity = affinity

variable {round : Round} {base : LoadBook} {affinity : AffinityBook} {tried : List Candidate}
  {walk : Walk}

theorem Tried.walked (held : Tried round base affinity tried walk) {ended : RouteEnd}
    (limited : ended.Limited round.budget) (uncommitted : ended.isCommitted = false) :
    Walked round base affinity tried ended walk := by
  refine ⟨held.inOrder, limited, ?_⟩
  cases ended with
  | committed deployment status lease => cases uncommitted
  | failed failure => exact ⟨held.uncommitted, held.load, held.requests, held.affinity⟩
  | budgetExhausted before => exact ⟨held.uncommitted, held.load, held.requests, held.affinity⟩

/-- A walk that ends without a commit leaves what its last turn did. -/
theorem Walked.unanswered {ended : RouteEnd} (held : Walked round base affinity tried ended walk)
    (uncommitted : ended.isCommitted = false) : Tried round base affinity tried walk := by
  have ending := held.ending
  cases ended with
  | committed deployment status lease => cases uncommitted
  | failed failure =>
      exact ⟨held.inOrder, ending.1, ending.2.1, ending.2.2.2, ending.2.2.1⟩
  | budgetExhausted before =>
      exact ⟨held.inOrder, ending.1, ending.2.1, ending.2.2.2, ending.2.2.1⟩

theorem InOrder.mono {attempts : List AttemptTrace} {all : List Candidate}
    (held : InOrder round tried attempts) (more : tried.Sublist all) :
    InOrder round all attempts :=
  { held with order := held.order.trans (more.map Candidate.deployment) }

theorem Walked.mono {ended : RouteEnd} {all : List Candidate}
    (held : Walked round base affinity tried ended walk) (more : tried.Sublist all) :
    Walked round base affinity all ended walk :=
  ⟨held.inOrder.mono more, held.limited, held.ending⟩

/-- A candidate that is passed over. -/
theorem Tried.skip (held : Tried round base affinity tried walk) (candidate : Candidate) :
    Tried round base affinity (tried ++ [candidate]) walk :=
  { held with inOrder := held.inOrder.mono (List.sublist_append_left _ _) }

theorem Floored.outgrows {candidate : Candidate} (floored : Floored round walk)
    (large : round.largerThan candidate walk.tooSmall = true) {trace : AttemptTrace}
    (named : trace.deployment = candidate.deployment) :
    ∀ earlier ∈ walk.attempts, earlier.outcome = .contextOverflow →
      round.Outgrows earlier trace := by
  intro earlier member overflowed
  rcases floored earlier member overflowed with ⟨floor, raised, below⟩
  rw [raised] at large
  rcases Option.any_eq_true_iff_get .. |>.mp large with ⟨seen, bigger⟩
  refine ⟨(round.contextOf candidate).get seen, ?_, ?_⟩
  · rw [named]
    exact (Option.some_get seen).symm
  · exact lt_of_le_of_lt below (by simpa using bigger)

/-- One more attempt, at a candidate above the floor and before the deadline. -/
theorem Tried.append (held : Tried round base affinity tried walk) (floored : Floored round walk)
    {candidate : Candidate} (large : round.largerThan candidate walk.tooSmall = true)
    {trace : AttemptTrace} (named : trace.deployment = candidate.deployment)
    (open' : expired round.budget trace.startedAt = false) :
    InOrder round (tried ++ [candidate]) (walk.attempts ++ [trace]) := by
  constructor
  · rw [List.map_append, List.map_append, List.map_singleton, List.map_singleton, named]
    exact held.inOrder.order.append (List.Sublist.refl _)
  · rw [List.pairwise_append]
    refine ⟨held.inOrder.larger, List.pairwise_singleton _ _, ?_⟩
    intro earlier member later last
    rw [List.mem_singleton.mp last]
    exact floored.outgrows large named earlier member
  · intro other member
    rcases List.mem_append.mp member with old | last
    · exact held.inOrder.begun other old
    · rw [List.mem_singleton.mp last]
      exact open'

/-- An attempt that was not answered, its slot dropped. -/
theorem Tried.attempt (held : Tried round base affinity tried walk) {candidate : Candidate}
    {trace : AttemptTrace}
    (inOrder : InOrder round (tried ++ [candidate]) (walk.attempts ++ [trace]))
    (unanswered : trace.outcome ≠ .committed) {load : LoadBook} {lease : Lease}
    (given : load.release lease = walk.dropReservation.load) (made : Nat) :
    Tried round base affinity (tried ++ [candidate])
      (Walk.drop { walk with
        load, reservation := none, attemptsMade := made, attempts := walk.attempts ++ [trace] }
        lease) := by
  refine ⟨inOrder, ?_, given.trans held.load, held.affinity, held.requests⟩
  intro other member
  rcases List.mem_append.mp member with old | last
  · exact held.uncommitted other old
  · rw [List.mem_singleton.mp last]
    exact unanswered

/-- A step of the loop keeps what holds so far, or ends the walk with what holds at its end. -/
def TurnKeeps (round : Round) (base : LoadBook) (affinity : AffinityBook) (tried : List Candidate) :
    WalkStep → Prop
  | .next walk => Tried round base affinity tried walk ∧ Floored round walk
  | .done walk => Tried round base affinity tried walk
  | .stop ended walk => Walked round base affinity tried ended walk

theorem Tried.stopped (held : Tried round base affinity tried walk)
    (limited : round.budget.isSome = true) (before : Bool) :
    TurnKeeps round base affinity tried (.stop (.budgetExhausted before) walk) :=
  held.walked limited rfl

/-- The rest of the loop's variables play no part. -/
theorem Tried.of_same {after : Walk} (held : Tried round base affinity tried walk)
    (attempts : after.attempts = walk.attempts) (load : after.load = walk.load)
    (reservation : after.reservation = walk.reservation)
    (settled : after.affinity = walk.affinity) (requests : after.requests = walk.requests) :
    Tried round base affinity tried after := by
  have counts : after.dropReservation.load = walk.dropReservation.load := by
    unfold Walk.dropReservation
    rw [reservation]
    cases walk.reservation with
    | none => exact load
    | some lease => exact congrArg (fun book => LoadBook.release book lease) load
  constructor
  · rw [attempts]
    exact held.inOrder
  · rw [attempts]
    exact held.uncommitted
  · exact counts.trans held.load
  · exact settled.trans held.affinity
  · exact requests.trans held.requests

theorem moveOn_keeps (oracle : AttemptOracle) (attempt : Nat) (rest : List Candidate)
    (refusal : Option Refusal) (held : Tried round base affinity tried walk)
    (floored : Floored round walk) :
    TurnKeeps round base affinity tried (round.moveOn oracle attempt rest refusal walk) := by
  unfold Round.moveOn
  dsimp only
  split
  · split
    · rename_i spent
      apply Tried.stopped ?_ (Option.isSome_of_any spent)
      exact held.of_same rfl rfl rfl rfl rfl
    · exact ⟨held.of_same rfl rfl rfl rfl rfl, floored⟩
  · exact ⟨held.of_same rfl rfl rfl rfl rfl, floored⟩

/-- The floor rises to the context that just overflowed, and stays above the earlier ones. -/
theorem overflow_keeps (oracle : AttemptOracle) (attempt : Nat) (candidate : Candidate)
    (rest : List Candidate) (refusal : Refusal) (held : Tried round base affinity tried walk)
    {earlier : List AttemptTrace} {last : AttemptTrace} (split' : walk.attempts = earlier ++ [last])
    (named : last.deployment = candidate.deployment)
    (floored : ∀ trace ∈ earlier, trace.outcome = .contextOverflow →
      ∃ floor, walk.tooSmall = some floor ∧
        (round.contextAt trace.deployment).getD u32Max ≤ floor) :
    TurnKeeps round base affinity tried
      (round.overflow oracle attempt candidate rest refusal walk) := by
  unfold Round.overflow
  dsimp only
  split
  · exact held.of_same rfl rfl rfl rfl rfl
  · split
    · rename_i spent
      apply Tried.stopped ?_ (Option.isSome_of_any spent)
      exact held.of_same rfl rfl rfl rfl rfl
    · refine ⟨held.of_same rfl rfl rfl rfl rfl, ?_⟩
      intro trace member overflowed
      refine ⟨_, rfl, ?_⟩
      change trace ∈ walk.attempts at member
      rw [split'] at member
      rcases List.mem_append.mp member with old | final
      · rcases floored trace old overflowed with ⟨floor, raised, below⟩
        rw [raised]
        exact le_trans below (Nat.le_max_right _ _)
      · rw [List.mem_singleton.mp final, named]
        exact Nat.le_max_left _ _

/-- A commit keeps its slot and counts the request, and moves the session only on success. -/
theorem commit_keeps (oracle : AttemptOracle) (attempt : Nat) {candidate : Candidate} (status : Nat)
    (held : Tried round base affinity tried walk) {trace : AttemptTrace}
    (inOrder : InOrder round (tried ++ [candidate]) (walk.attempts ++ [trace]))
    (named : trace.deployment = candidate.deployment) (answered : trace.outcome = .committed)
    {load : LoadBook} {lease : Lease} (given : load.release lease = walk.dropReservation.load)
    (made : Nat) :
    TurnKeeps round base affinity (tried ++ [candidate])
      (round.commit oracle attempt candidate status lease { walk with
        load, reservation := none, attemptsMade := made, attempts := walk.attempts ++ [trace] }) := by
  refine ⟨inOrder, trivial, ⟨walk.attempts, trace, rfl, named, answered, held.uncommitted⟩,
    given.trans held.load, rfl, ?_, ?_⟩
  · change walk.requests ++ _ = _
    rw [held.requests]
    rfl
  · intro failed
    dsimp only
    rw [failed]
    exact held.affinity

omit [Lowercase] in
theorem decision_deployment {plan : Plan} {attempt : Nat} {decision : RoutingDecision}
    {candidate : Candidate} (at' : plan.candidates[attempt]? = some candidate)
    (planned : plan.decision attempt = some decision) :
    decision.deployment = candidate.deployment := by
  unfold Plan.decision at planned
  rw [at', Option.map_some, Option.some.injEq] at planned
  rw [← planned]

/-- One turn of the loop, by what came of its candidate. -/
theorem turn_keeps (oracle : AttemptOracle) {candidate : Candidate} {rest : List Candidate}
    (at' : round.plan.candidates[tried.length]? = some candidate)
    (held : Tried round base affinity tried walk) (floored : Floored round walk) :
    TurnKeeps round base affinity (tried ++ [candidate])
      (round.turn oracle tried.length candidate rest walk) := by
  unfold Round.turn
  split
  · exact ⟨held.skip candidate, floored⟩
  · rename_i large
    have large : round.largerThan candidate walk.tooSmall = true := by simpa using large
    split
    · exact held.skip candidate
    · rename_i planned decided
      have named := decision_deployment at' decided
      dsimp only
      split
      · exact ⟨held.skip candidate, floored⟩
      · split
        · rename_i spent
          exact (held.skip candidate).stopped (Option.isSome_of_any spent) _
        · rename_i open'
          have open' : expired round.budget (oracle.startedAt tried.length) = false := by
            simpa using open'
          cases taken : walk.takeLease tried.length candidate.deployment with
          | mk lease leased =>
              rcases Walk.takeLease_spec taken with ⟨load, rfl, given⟩
              dsimp only
              -- The reason is the plan's or the overflow's; the deployment is the candidate's.
              generalize decision : (if walk.afterOverflow = true then
                { planned with reason := RoutingReason.contextOverflowFailover } else planned) = sent
              have same : sent.deployment = candidate.deployment := by
                rw [← decision, ← named]
                split <;> rfl
              have inOrder : ∀ outcome, InOrder round (tried ++ [candidate]) (walk.attempts ++
                  [round.trace sent (oracle.startedAt tried.length) outcome]) := by
                intro outcome
                exact held.append floored large same open'
              split
              · rename_i cut
                exact (held.attempt (inOrder _) (by simp [Round.trace]) given _).stopped
                  (Bool.and_eq_true_iff.mp cut).1 false
              · split
                · apply moveOn_keeps oracle tried.length rest _
                    (held.attempt (inOrder _) (by simp [Round.trace]) given _)
                  intro trace member overflowed
                  rcases List.mem_append.mp member with old | last
                  · exact floored trace old overflowed
                  · rw [List.mem_singleton.mp last] at overflowed
                    cases overflowed
                · exact overflow_keeps oracle tried.length candidate rest _
                    (held.attempt (inOrder _) (by simp [Round.trace]) given _) rfl same floored
                · exact commit_keeps oracle tried.length _ held (inOrder _) same rfl given _

/-- The whole loop, by induction on the candidates that are left. -/
theorem walkFrom_walked (oracle : AttemptOracle) {rest : List Candidate}
    (plan : round.plan.candidates = tried ++ rest) (held : Tried round base affinity tried walk)
    (floored : Floored round walk) {ended : RouteEnd} {after : Walk}
    (ran : round.walkFrom oracle tried.length rest walk = (ended, after)) :
    Walked round base affinity round.plan.candidates ended after := by
  induction rest generalizing tried walk with
  | nil =>
      cases ran
      rw [plan, List.append_nil]
      exact held.walked trivial rfl
  | cons candidate rest ih =>
      have at' : round.plan.candidates[tried.length]? = some candidate := by
        rw [plan]
        simp
      have plan' : round.plan.candidates = (tried ++ [candidate]) ++ rest := by
        rw [plan, List.append_assoc, List.singleton_append]
      have through : (tried ++ [candidate]).Sublist round.plan.candidates := by
        rw [plan']
        exact List.sublist_append_left _ _
      have turned : TurnKeeps round base affinity (tried ++ [candidate])
          (round.turn oracle tried.length candidate rest walk) := turn_keeps oracle at' held floored
      rw [Round.walkFrom] at ran
      cases step : round.turn oracle tried.length candidate rest walk with
      | next further =>
          rw [step] at turned ran
          apply ih plan' turned.1 turned.2
          rw [List.length_append]
          exact ran
      | done further =>
          rw [step] at turned ran
          cases ran
          have concluded : Walked round base affinity (tried ++ [candidate])
              (.failed (round.conclude after)) after :=
            Tried.walked turned trivial rfl
          exact concluded.mono through
      | stop stopped further =>
          rw [step] at turned ran
          cases ran
          exact turned.mono through

end Turns

/-- The slot a plan reserves is the only one it takes. -/
theorem reserve_releases (selector : Selector) (plan : Plan) (affinity : AffinityBook) :
    (Walk.start (selector.reserve plan).2.load affinity
      (selector.reserve plan).1.reservation).dropReservation.load = selector.load := by
  unfold Selector.reserve
  cases plan.candidates.head? with
  | none => rfl
  | some first => exact selector.load.acquire_release first.deployment

theorem takeTurn_load (selector : Selector) (policy : RoutePolicy) (state : Option (Nat × Nat))
    (found : Eligible) (observed : DeploymentId → Option DeploymentObservation) :
    (selector.takeTurn policy state found observed).2.load = selector.load := by
  unfold Selector.takeTurn
  split <;> rfl

section Routes

variable [Lowercase]

theorem plan_releases {selector after : Selector} {topology : Topology} {route : Route}
    {health : NodeId → Option NodeStatus} {observed : DeploymentId → Option DeploymentObservation}
    {needs : RequestRequirements} {sticky : Option DeploymentId} {plan : Plan}
    (planned : selector.planWithAffinity topology route health observed needs sticky =
      (.ok plan, after)) (affinity : AffinityBook) :
    (Walk.start after.load affinity plan.reservation).dropReservation.load = selector.load := by
  unfold Selector.planWithAffinity at planned
  split at planned
  · cases planned
  · dsimp only at planned
    split at planned
    · cases planned
      exact reserve_releases selector _ affinity
    · cases planned
      rw [← takeTurn_load selector route.policy]
      exact reserve_releases _ _ affinity

/-- How an attempt at a route goes, whatever the oracle: the deployments it tries are the plan's in
the plan's order, none twice, the first answer is the last attempt, contexts grow after an overflow,
no attempt begins after the deadline, no slot is kept without an answer, and no session moves
without a success. -/
structure FailsOver (state : RouterState) (route : Route) (needs : RequestRequirements)
    (header : Option (List Char)) (budget : Option RequestBudget) (now : Nat)
    (result : RouteAttempt) : Prop where
  order : ∀ plan selector, state.selector.planWithAffinity state.topology route state.health
      state.observed needs (lookupSession state.affinity
        (state.affinity.session route.name header) now).1 = (.ok plan, selector) →
    (result.attempts.map AttemptTrace.deployment).Sublist
      (plan.candidates.map Candidate.deployment)
  unplanned : ∀ failure selector, state.selector.planWithAffinity state.topology route state.health
      state.observed needs (lookupSession state.affinity
        (state.affinity.session route.name header) now).1 = (.error failure, selector) →
    result.attempts = [] ∧ result.ended.isCommitted = false
  distinct : (result.attempts.map AttemptTrace.deployment).Nodup
  firstAnswer : result.attempts.Pairwise fun a _ => a.outcome ≠ .committed
  answered : ∀ deployment status lease, result.ended = .committed deployment status lease →
    ∃ last, result.attempts.getLast? = some last ∧ last.deployment = deployment ∧
      last.outcome = .committed
  unanswered : result.ended.isCommitted = false →
    ∀ trace ∈ result.attempts, trace.outcome ≠ .committed
  larger : result.attempts.Pairwise fun a b => a.outcome = .contextOverflow →
    ∃ context, (state.observed b.deployment).map DeploymentObservation.contextLength =
        some context ∧
      ((state.observed a.deployment).map DeploymentObservation.contextLength).getD u32Max < context
  inTime : ∀ trace ∈ result.attempts, ∀ limit, budget = some limit →
    trace.startedAt < limit.deadline
  slots : result.ended.isCommitted = false → result.state.selector.load = state.selector.load
  sessions : (∀ deployment status lease, result.ended = .committed deployment status lease →
      isSuccess status = false) →
    result.state.affinity =
        (lookupSession state.affinity (state.affinity.session route.name header) now).2 ∧
      ∀ key, result.state.affinity.stickyAt key now = state.affinity.stickyAt key now

omit [Lowercase] in
theorem lookupSession_stickyAt (affinity : AffinityBook) (session : Option AffinityKey)
    (now : Nat) (key : AffinityKey) :
    (lookupSession affinity session now).2.stickyAt key now = affinity.stickyAt key now := by
  cases session with
  | none => rfl
  | some own => exact affinity.lookupAt_stickyAt own key now

omit [Lowercase] in
theorem not_expired {budget : Option RequestBudget} {now : Nat}
    (open' : expired budget now = false) : ∀ limit, budget = some limit → now < limit.deadline := by
  rintro limit rfl
  simpa [expired] using open'

theorem Walked.firstAnswer {round : Round} {base : LoadBook} {affinity : AffinityBook}
    {tried : List Candidate} {ended : RouteEnd} {walk : Walk}
    (held : Walked round base affinity tried ended walk) :
    walk.attempts.Pairwise fun a _ => a.outcome ≠ .committed := by
  have alone : ∀ attempts : List AttemptTrace, (∀ trace ∈ attempts, trace.outcome ≠ .committed) →
      attempts.Pairwise fun a _ => a.outcome ≠ .committed := by
    intro attempts unanswered
    have any : attempts.Pairwise fun _ _ => True := List.pairwise_of_forall fun _ _ => trivial
    exact any.imp_of_mem fun member _ _ => unanswered _ member
  have ending := held.ending
  cases ended with
  | committed deployment status lease =>
      rcases ending.1 with ⟨earlier, last, same, _, _, unanswered⟩
      rw [same, List.pairwise_append]
      refine ⟨alone earlier unanswered, List.pairwise_singleton _ _, ?_⟩
      intro trace member _ _
      exact unanswered trace member
  | failed failure => exact alone walk.attempts ending.1
  | budgetExhausted before => exact alone walk.attempts ending.1

theorem tried_start (round : Round) {base load : LoadBook} {affinity : AffinityBook}
    {reservation : Option Lease}
    (held : (Walk.start load affinity reservation).dropReservation.load = base) :
    Tried round base affinity [] (.start load affinity reservation) := by
  refine ⟨⟨List.Sublist.refl _, List.Pairwise.nil, ?_⟩, ?_, held, rfl, rfl⟩
  · intro trace member
    cases member
  · intro trace member
    cases member

theorem floored_start (round : Round) (load : LoadBook) (affinity : AffinityBook)
    (reservation : Option Lease) : Floored round (.start load affinity reservation) := by
  intro trace member
  cases member

/-- What `attempt_route` leaves after its walk, a reservation it did not use dropped. -/
def RouteAttempt.ofWalk (state : RouterState) (selector : Selector) (ended : RouteEnd)
    (walk : Walk) : RouteAttempt where
  ended
  state := { state with
    selector := { selector with load := walk.dropReservation.load }
    affinity := walk.dropReservation.affinity }
  attempts := walk.dropReservation.attempts
  contextOverflow := walk.dropReservation.contextOverflow
  requests := walk.dropReservation.requests

theorem Walked.failsOver {state : RouterState} {route : Route} {needs : RequestRequirements}
    {header : Option (List Char)} {budget : Option RequestBudget} {now : Nat} {plan : Plan}
    {selector : Selector} {round : Round} {ended : RouteEnd} {walk : Walk}
    (configured : route ∈ state.topology.routes)
    (planned : state.selector.planWithAffinity state.topology route state.health state.observed
      needs (lookupSession state.affinity (state.affinity.session route.name header) now).1 =
        (.ok plan, selector))
    (observed : round.observed = state.observed) (limited : round.budget = budget)
    (held : Walked round state.selector.load
      (lookupSession state.affinity (state.affinity.session route.name header) now).2
      plan.candidates ended walk) :
    FailsOver state route needs header budget now (.ofWalk state selector ended walk) := by
  have once := planned_nodup configured planned
  have ending := held.ending
  rw [RouteAttempt.ofWalk, walk.dropReservation_attempts, walk.dropReservation_affinity]
  constructor
  · intro other after again
    rw [planned] at again
    cases again
    exact held.inOrder.order
  · intro failure after again
    rw [planned] at again
    cases again
  · exact once.sublist held.inOrder.order
  · exact held.firstAnswer
  · rintro deployment status lease rfl
    rcases ending.1 with ⟨earlier, last, same, named, committed, _⟩
    refine ⟨last, ?_, named, committed⟩
    rw [same, List.getLast?_concat]
  · intro uncommitted
    exact (held.unanswered uncommitted).uncommitted
  · have larger := held.inOrder.larger
    simp only [Round.Outgrows, Round.contextAt, observed] at larger
    exact larger
  · intro trace member
    have open' := held.inOrder.begun trace member
    rw [limited] at open'
    exact not_expired open'
  · intro uncommitted
    exact (held.unanswered uncommitted).load
  · intro unsuccessful
    have same : walk.affinity =
        (lookupSession state.affinity (state.affinity.session route.name header) now).2 := by
      cases ended with
      | committed deployment status lease =>
          exact ending.2.2.2.2 (unsuccessful deployment status lease rfl)
      | failed failure => exact ending.2.2.2
      | budgetExhausted before => exact ending.2.2.2
    refine ⟨same, ?_⟩
    intro key
    change walk.affinity.stickyAt key now = _
    rw [same]
    exact lookupSession_stickyAt state.affinity _ now key

/-- A route with a plan, as a walk from its start. -/
theorem attemptRoute_walked {state : RouterState} {route : Route} {needs : RequestRequirements}
    {header : Option (List Char)} {now : Nat} {plan : Plan} {selector : Selector}
    (planned : state.selector.planWithAffinity state.topology route state.health state.observed
      needs (lookupSession state.affinity (state.affinity.session route.name header) now).1 =
        (.ok plan, selector)) (budget : Option RequestBudget) (oracle : AttemptOracle) :
    ∃ (round : Round) (ended : RouteEnd) (walk : Walk), round.observed = state.observed ∧
      round.budget = budget ∧ round.route = route ∧
      Walked round state.selector.load
        (lookupSession state.affinity (state.affinity.session route.name header) now).2
        plan.candidates ended walk ∧
      attemptRoute state route needs header budget now oracle =
        .ofWalk state selector ended walk := by
  unfold attemptRoute
  dsimp only
  rw [planned]
  dsimp only
  generalize walked : Round.walkFrom _ oracle 0 plan.candidates _ = ran
  rcases ran with ⟨ended, walk⟩
  have held := walkFrom_walked oracle rfl
    (tried_start _ (plan_releases planned (lookupSession state.affinity
      (state.affinity.session route.name header) now).2)) (floored_start _ _ _ _) walked
  exact ⟨_, ended, walk, rfl, rfl, rfl, held, rfl⟩

theorem attemptRoute_unplanned {state : RouterState} {route : Route} {needs : RequestRequirements}
    {header : Option (List Char)} {now : Nat} {failure : RoutingFailure} {selector : Selector}
    (planned : state.selector.planWithAffinity state.topology route state.health state.observed
      needs (lookupSession state.affinity (state.affinity.session route.name header) now).1 =
        (.error failure, selector)) (budget : Option RequestBudget) (oracle : AttemptOracle) :
    attemptRoute state route needs header budget now oracle =
      { ended := .failed (planFailure route.name failure)
        state := { state with
          selector
          affinity :=
            (lookupSession state.affinity (state.affinity.session route.name header) now).2 }
        attempts := []
        contextOverflow := none
        requests := [] } := by
  unfold attemptRoute
  dsimp only
  rw [planned]

theorem attempt_route_fails_over (state : RouterState) (route : Route)
    (configured : route ∈ state.topology.routes) (needs : RequestRequirements)
    (header : Option (List Char)) (budget : Option RequestBudget) (now : Nat)
    (oracle : AttemptOracle) :
    FailsOver state route needs header budget now
      (attemptRoute state route needs header budget now oracle) := by
  cases planned : state.selector.planWithAffinity state.topology route state.health state.observed
      needs (lookupSession state.affinity (state.affinity.session route.name header) now).1 with
  | mk outcome selector =>
      cases outcome with
      | error failure =>
          rw [attemptRoute_unplanned planned budget oracle]
          constructor
          · intro plan after again
            rw [planned] at again
            cases again
          · intro _ _ _
            exact ⟨rfl, rfl⟩
          · exact List.nodup_nil
          · exact List.Pairwise.nil
          · rintro deployment status lease impossible
            cases impossible
          · intro _ trace member
            cases member
          · exact List.Pairwise.nil
          · intro trace member
            cases member
          · intro _
            exact congrArg Selector.load (planWithAffinity_error planned)
          · intro _
            exact ⟨rfl, fun key => lookupSession_stickyAt state.affinity _ now key⟩
      | ok plan =>
          rcases attemptRoute_walked planned budget oracle with
            ⟨round, ended, walk, observed, limited, _, held, same⟩
          rw [same]
          exact held.failsOver configured planned observed limited

theorem attemptRoute_limited (state : RouterState) (route : Route) (needs : RequestRequirements)
    (header : Option (List Char)) (budget : Option RequestBudget) (now : Nat)
    (oracle : AttemptOracle) :
    (attemptRoute state route needs header budget now oracle).ended.Limited budget := by
  cases planned : state.selector.planWithAffinity state.topology route state.health state.observed
      needs (lookupSession state.affinity (state.affinity.session route.name header) now).1 with
  | mk outcome selector =>
      cases outcome with
      | error failure =>
          rw [attemptRoute_unplanned planned budget oracle]
          trivial
      | ok plan =>
          rcases attemptRoute_walked planned budget oracle with
            ⟨round, ended, walk, _, own, _, held, same⟩
          rw [same, ← own]
          exact held.limited

end Routes

section Sample

attribute [local instance] asciiLowercase

/-- An affinity book that is switched off. -/
def idleBook : AffinityBook where
  policy := ⟨false, [], 0, 1⟩
  hash _ := 0
  walk := id
  walks _ := List.Perm.refl _
  entries := ∅
  expiredEvictions := 0
  capacityEvictions := 0

/-- Two deployments that are both up, the second with the larger context. -/
def spreadState : RouterState where
  topology := spreadTopology
  health := servingHealth
  observed id := some ⟨chatOnly, if id = onA.id then 4096 else 8192, 1, 0⟩
  selector := .new spreadTopology
  affinity := idleBook

/-- The first refuses the prompt as too long, the second answers. -/
def overflowThenAnswer : AttemptOracle where
  startedAt attempt := attempt
  cut _ := false
  outcome
    | 0 => .contextOverflow ⟨400, none, none, []⟩
    | _ => .committed 200
  endedAt attempt := attempt

theorem attempt_route_fails_over_after_overflow :
    spreadRoute ∈ spreadState.topology.routes ∧
      (attemptRoute spreadState spreadRoute chatNeeds none (some ⟨1000, 1000, 0⟩) 0
        overflowThenAnswer).attempts.map AttemptTrace.deployment = [onA.id, onB.id] ∧
      FailsOver spreadState spreadRoute chatNeeds none (some ⟨1000, 1000, 0⟩) 0
        (attemptRoute spreadState spreadRoute chatNeeds none (some ⟨1000, 1000, 0⟩) 0
          overflowThenAnswer) :=
  ⟨by decide, by decide, attempt_route_fails_over spreadState spreadRoute (by decide) chatNeeds none
    (some ⟨1000, 1000, 0⟩) 0 overflowThenAnswer⟩

end Sample

end Lightweight.Router
