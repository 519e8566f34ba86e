import Lightweight.Rotation
import Lightweight.Transition
import Lightweight.Router.SelectPlans

/-! Callers that plan at once on one round-robin route. Drawing a turn is one atomic step, so
whatever the interleaving each value of the cursor is drawn once, and the turns go round the ring of
the capable deployments. -/

namespace Lightweight.Router

open Lightweight.Catalog Lightweight.Transition Lightweight.Rotation

/-- Where a caller is in `plan_with_affinity`: not in it, past both filters, or past the draw. -/
inductive TurnPhase where
  | idle
  | filtered (found : Eligible) (observed : DeploymentId → Option DeploymentObservation)
      (sticky : Option DeploymentId)
  | drawn (found : Eligible) (broken : Option Sticky) (cursor : Nat)

/-- Callers of one route: the selector they share, and the plans made so far. -/
structure Turns (Caller : Type) where
  selector : Selector
  phase : Caller → TurnPhase
  plans : List Plan

inductive TurnAction (Caller : Type) where
  | filter (caller : Caller) (health : NodeId → Option NodeStatus)
      (observed : DeploymentId → Option DeploymentObservation) (needs : RequestRequirements)
      (sticky : Option DeploymentId)
  | follow (caller : Caller)
  | draw (caller : Caller)
  | order (caller : Caller)
  | elsewhere (selector : Selector)

/-- Why the session's deployment was passed over, if it was. -/
def brokenBy (standing : Option (Except Reassignment Nat)) : Option Sticky :=
  match standing with
  | some (.error reason) => some (.broken reason)
  | _ => none

section Held

variable {Caller : Type}

/-- No one is planning yet. -/
def Turns.idle (selector : Selector) : Turns Caller where
  selector := selector
  phase _ := .idle
  plans := []

/-! ### Who holds a turn -/

/-- The turn a plan was made in: none on an affinity hit. -/
def Plan.turn (plan : Plan) : Option Nat :=
  match plan.selection with
  | .roundRobin cursor _ => some cursor
  | _ => none

def TurnPhase.turn : TurnPhase → Option Nat
  | .drawn _ _ cursor => some cursor
  | _ => none

/-- The plan that a caller past the draw is about to make, but for its slot. -/
def TurnPhase.plan : TurnPhase → Option Plan
  | .drawn found broken cursor => some { orderRoundRobin found cursor with sticky := broken }
  | _ => none

/-- A plan on the ring: in turn, or from the session's deployment on. -/
inductive OnRing (ring : List DeploymentId) (plan : Plan) : Prop where
  | turn (cursor : Nat) : plan.turn = some cursor → plan.sticky ≠ some .hit →
      plan.candidates.map Candidate.deployment = turned ring cursor → OnRing ring plan
  | hit : plan.turn = none → plan.sticky = some .hit →
      (plan.candidates.map Candidate.deployment).IsRotated ring → OnRing ring plan

/-- Every turn drawn since `first` is held once, by a plan or by a caller about to make one. -/
structure Held (index : Nat) (ring : List DeploymentId) (first now : Nat) (state : Turns Caller) :
    Prop where
  cursor : state.selector.cursors[index]? = some now
  begun : first ≤ now
  filtered : ∀ caller found observed sticky, state.phase caller = .filtered found observed sticky →
    found.candidates.map Candidate.deployment = ring
  drawn : ∀ caller found broken cursor, state.phase caller = .drawn found broken cursor →
    found.candidates.map Candidate.deployment = ring ∧ broken ≠ some .hit ∧
      first ≤ cursor ∧ cursor < now ∧ cursor ∉ state.plans.filterMap Plan.turn
  apart : ∀ caller other cursor, (state.phase caller).turn = some cursor →
    (state.phase other).turn = some cursor → caller = other
  plans : ∀ plan ∈ state.plans, OnRing ring plan
  past : ∀ cursor ∈ state.plans.filterMap Plan.turn, first ≤ cursor ∧ cursor < now
  once : (state.plans.filterMap Plan.turn).Nodup
  every : ∀ cursor, first ≤ cursor → cursor < now →
    cursor ∈ state.plans.filterMap Plan.turn ∨ ∃ caller, (state.phase caller).turn = some cursor

/-- The plans in which a deployment came first by a turn of the policy. -/
def leads (plans : List Plan) (id : DeploymentId) : Nat :=
  plans.countP fun plan => plan.sticky ≠ some .hit ∧
    plan.candidates.head?.map Candidate.deployment = some id

/-- The plans made, and those that only their order is missing of. -/
def Turns.made (state : Turns Caller) (pending : List Caller) : List Plan :=
  state.plans ++ pending.filterMap fun caller => (state.phase caller).plan

/-! ### Plans of the route -/

theorem reserve_keeps (selector : Selector) (plan : Plan) :
    (selector.reserve plan).2.cursors = selector.cursors ∧
      (selector.reserve plan).1.turn = plan.turn ∧
      (selector.reserve plan).1.sticky = plan.sticky := by
  unfold Selector.reserve
  split <;> exact ⟨rfl, rfl, rfl⟩

/-- An affinity hit draws nothing, and starts the ring at the session's deployment. -/
theorem planSticky_ring (selector : Selector) (found : Eligible) {known : Option Nat}
    (isKnown : known.isSome) (index : Nat)
    (observed : DeploymentId → Option DeploymentObservation) :
    (selector.planSticky .roundRobin known found index observed).2.cursors = selector.cursors ∧
    (selector.planSticky .roundRobin known found index observed).1.turn = none ∧
    OnRing (found.candidates.map Candidate.deployment)
      (selector.planSticky .roundRobin known found index observed).1 := by
  obtain ⟨place, rfl⟩ := Option.isSome_iff_exists.mp isKnown
  have kept := fun plan => reserve_keeps selector plan
  refine ⟨(kept _).1, (kept _).2.1, .hit (kept _).2.1 (kept _).2.2 ?_⟩
  rw [Selector.planSticky, reserve_candidates]
  exact (List.IsRotated.forall found.candidates index).map Candidate.deployment

theorem brokenBy_ne_hit (standing : Option (Except Reassignment Nat)) :
    brokenBy standing ≠ some .hit := by
  unfold brokenBy
  split <;> simp

/-- A plan made in turn. -/
theorem orderRoundRobin_ring (found : Eligible) (cursor : Nat) :
    (orderRoundRobin found cursor).candidates.map Candidate.deployment =
      turned (found.candidates.map Candidate.deployment) cursor := by
  rw [turned, List.length_map, ← List.map_rotate]
  rfl

/-! ### What is held -/

variable {state : Turns Caller} {index first now : Nat} {ring : List DeploymentId}
  {pending : List Caller}

theorem Held.start {selector : Selector} {index first : Nat} {ring : List DeploymentId}
    (cursor : selector.cursors[index]? = some first) :
    Held index ring first first (Turns.idle selector : Turns Caller) where
  cursor := cursor
  begun := Nat.le_refl first
  filtered _ _ _ _ phase := by cases phase
  drawn _ _ _ _ phase := by cases phase
  apart _ _ _ turn _ := by cases turn
  plans := by simp [Turns.idle]
  past := by simp [Turns.idle]
  once := by simp [Turns.idle]
  every := by omega

/-- A plan made on an affinity hit is no turn. -/
theorem Held.hit (held : Held index ring first now state) {plan : Plan} {selector : Selector}
    (kept : selector.cursors = state.selector.cursors) (turn : plan.turn = none)
    (onRing : OnRing ring plan) :
    Held index ring first now ⟨selector, state.phase, state.plans ++ [plan]⟩ := by
  have turns : (state.plans ++ [plan]).filterMap Plan.turn = state.plans.filterMap Plan.turn := by
    simp [turn]
  constructor
  · rw [kept]
    exact held.cursor
  · exact held.begun
  · exact held.filtered
  · rw [turns]
    exact held.drawn
  · exact held.apart
  · intro made member
    rcases List.mem_append.mp member with old | final
    · exact held.plans made old
    · rw [List.mem_singleton.mp final]
      exact onRing
  · rw [turns]
    exact held.past
  · rw [turns]
    exact held.once
  · rw [turns]
    exact held.every

theorem TurnPhase.plan_turn (phase : TurnPhase) : phase.plan.bind Plan.turn = phase.turn := by
  cases phase <;> rfl

theorem Held.made_onRing (held : Held index ring first now state) (pending : List Caller) :
    ∀ plan ∈ state.made pending, OnRing ring plan := by
  intro plan member
  rcases List.mem_append.mp member with done | waiting
  · exact held.plans plan done
  · obtain ⟨caller, _, coming⟩ := List.mem_filterMap.mp waiting
    cases phase : state.phase caller with
    | idle => simp [phase, TurnPhase.plan] at coming
    | filtered _ _ _ => simp [phase, TurnPhase.plan] at coming
    | drawn found broken cursor =>
        rw [phase] at coming
        cases coming
        have mine := held.drawn caller found broken cursor phase
        refine .turn cursor rfl mine.2.1 ?_
        rw [← mine.1]
        exact orderRoundRobin_ring found cursor

/-- Each turn drawn since the start led to one plan. -/
theorem Held.made_turns (held : Held index ring first now state) (once : pending.Nodup)
    (exactly : ∀ caller, caller ∈ pending ↔ (state.phase caller).turn.isSome) :
    ((state.made pending).filterMap Plan.turn).Perm (List.range' first (now - first)) := by
  have turns : (state.made pending).filterMap Plan.turn = state.plans.filterMap Plan.turn ++
      pending.filterMap fun caller => (state.phase caller).turn := by
    rw [Turns.made, List.filterMap_append, List.filterMap_filterMap]
    simp only [TurnPhase.plan_turn]
  have waiting : ∀ cursor, (cursor ∈ pending.filterMap fun caller => (state.phase caller).turn) ↔
      ∃ caller, (state.phase caller).turn = some cursor := by
    intro cursor
    rw [List.mem_filterMap]
    constructor
    · intro found
      obtain ⟨caller, _, holds⟩ := found
      exact ⟨caller, holds⟩
    · intro found
      obtain ⟨caller, holds⟩ := found
      exact ⟨caller, (exactly caller).mpr (by rw [holds]; rfl), holds⟩
  have callers : ∀ caller cursor, (state.phase caller).turn = some cursor →
      first ≤ cursor ∧ cursor < now ∧ cursor ∉ state.plans.filterMap Plan.turn := by
    intro caller cursor holds
    cases phase : state.phase caller with
    | idle => simp [phase, TurnPhase.turn] at holds
    | filtered _ _ _ => simp [phase, TurnPhase.turn] at holds
    | drawn found broken value =>
        rw [phase] at holds
        cases holds
        exact (held.drawn caller found broken _ phase).2.2
  rw [turns, List.perm_ext_iff_of_nodup]
  · intro cursor
    rw [List.mem_append, waiting, List.mem_range'_1]
    have begun := held.begun
    constructor
    · intro drawn
      rcases drawn with done | holds
      · have inside := held.past cursor done
        omega
      · obtain ⟨caller, holds⟩ := holds
        have inside := callers caller cursor holds
        omega
    · intro inside
      exact held.every cursor inside.1 (by omega)
  · rw [List.nodup_append]
    refine ⟨held.once, ?_, ?_⟩
    · apply once.filterMap
      intro caller other cursor drawn again
      exact held.apart caller other cursor drawn again
    · intro cursor done other holds same
      obtain ⟨caller, holds⟩ := (waiting other).mp holds
      rw [same] at done
      exact (callers caller other holds).2.2 done
  · exact List.nodup_range'

/-- The plans that a deployment leads, told by the turns. -/
theorem leads_turns {plans : List Plan} (onRing : ∀ plan ∈ plans, OnRing ring plan)
    (id : DeploymentId) :
    leads plans id =
      (plans.filterMap Plan.turn).countP fun turn => (turned ring turn).head? = some id := by
  rw [List.countP_filterMap]
  apply List.countP_congr
  intro plan member
  cases onRing plan member with
  | turn cursor turn missed order => simp [turn, missed, ← order, List.head?_map]
  | hit turn followed _ => simp [turn, followed]

theorem count_turns {plans : List Plan} (onRing : ∀ plan ∈ plans, OnRing ring plan) :
    (plans.filterMap Plan.turn).length = plans.countP fun plan => plan.sticky ≠ some .hit := by
  rw [List.length_filterMap_eq_countP]
  apply List.countP_congr
  intro plan member
  cases onRing plan member with
  | turn cursor turn missed _ => simp [turn, missed]
  | hit turn followed _ => simp [turn, followed]

variable [DecidableEq Caller]

/-- A caller that holds no turn goes where it will hold none. -/
theorem Held.move (held : Held index ring first now state) {caller : Caller} {phase : TurnPhase}
    (before : (state.phase caller).turn = none) (later : phase.turn = none)
    (filtered : ∀ found observed sticky, phase = .filtered found observed sticky →
      found.candidates.map Candidate.deployment = ring) :
    Held index ring first now
      { state with phase := Function.update state.phase caller phase } := by
  have turns : ∀ other, (Function.update state.phase caller phase other).turn =
      (state.phase other).turn := by
    intro other
    by_cases same : other = caller
    · rw [same, Function.update_self, before, later]
    · rw [Function.update_of_ne same]
  constructor
  · exact held.cursor
  · exact held.begun
  · intro other found observed sticky at'
    by_cases same : other = caller
    · rw [same] at at'
      exact filtered found observed sticky (by simpa using at')
    · exact held.filtered other found observed sticky (by simpa [same] using at')
  · intro other found broken cursor at'
    by_cases same : other = caller
    · rw [same] at at'
      have mine : phase = .drawn found broken cursor := by simpa using at'
      rw [mine] at later
      cases later
    · exact held.drawn other found broken cursor (by simpa [same] using at')
  · intro one other cursor drawn again
    rw [turns] at drawn again
    exact held.apart one other cursor drawn again
  · exact held.plans
  · exact held.past
  · exact held.once
  · intro cursor low high
    rcases held.every cursor low high with made | holds
    · exact Or.inl made
    · obtain ⟨other, holds⟩ := holds
      exact Or.inr ⟨other, (turns other).trans holds⟩

/-- The turn drawn is the cursor's value, which no one holds. -/
theorem Held.draw (held : Held index ring first now state) {caller : Caller} {found : Eligible}
    {observed : DeploymentId → Option DeploymentObservation} {sticky : Option DeploymentId}
    {broken : Option Sticky} (filtered : state.phase caller = .filtered found observed sticky)
    (missed : broken ≠ some .hit) (inWord : now + 1 < UInt64.size) :
    Held index ring first (now + 1) { state with
      selector := state.selector.advance index now
      phase := Function.update state.phase caller (.drawn found broken now) } := by
  have bound : index < state.selector.cursors.length :=
    (List.getElem?_eq_some_iff.mp held.cursor).1
  have earlier : ∀ other cursor, (state.phase other).turn = some cursor → cursor < now := by
    intro other cursor holds
    cases at' : state.phase other with
    | idle => simp [at', TurnPhase.turn] at holds
    | filtered _ _ _ => simp [at', TurnPhase.turn] at holds
    | drawn theirs why value =>
        rw [at'] at holds
        cases holds
        exact (held.drawn other theirs why _ at').2.2.2.1
  constructor
  · simp [Selector.advance, bound, Nat.mod_eq_of_lt inWord]
  · exact Nat.le_succ_of_le held.begun
  · intro other found observed sticky at'
    by_cases same : other = caller
    · rw [same] at at'
      simp at at'
    · exact held.filtered other found observed sticky (by simpa [same] using at')
  · intro other found' broken' cursor at'
    by_cases same : other = caller
    · rw [same] at at'
      simp only [Function.update_self, TurnPhase.drawn.injEq] at at'
      obtain ⟨rfl, rfl, rfl⟩ := at'
      refine ⟨held.filtered caller found observed sticky filtered, missed, held.begun,
        Nat.lt_succ_self now, ?_⟩
      intro made
      exact (held.past now made).2.false
    · have kept := held.drawn other found' broken' cursor (by simpa [same] using at')
      exact ⟨kept.1, kept.2.1, kept.2.2.1, Nat.lt_succ_of_lt kept.2.2.2.1, kept.2.2.2.2⟩
  · intro one other cursor drawn again
    by_cases sameOne : one = caller
    · by_cases sameOther : other = caller
      · rw [sameOne, sameOther]
      · have value : now = cursor := by simpa [sameOne, TurnPhase.turn] using drawn
        have before := earlier other cursor (by simpa [sameOther] using again)
        omega
    · by_cases sameOther : other = caller
      · have value : now = cursor := by simpa [sameOther, TurnPhase.turn] using again
        have before := earlier one cursor (by simpa [sameOne] using drawn)
        omega
      · exact held.apart one other cursor (by simpa [sameOne] using drawn)
          (by simpa [sameOther] using again)
  · exact held.plans
  · intro cursor made
    exact ⟨(held.past cursor made).1, Nat.lt_succ_of_lt (held.past cursor made).2⟩
  · exact held.once
  · intro cursor low high
    rcases Nat.lt_succ_iff_lt_or_eq.mp high with before | same
    · rcases held.every cursor low before with made | holds
      · exact Or.inl made
      · obtain ⟨other, holds⟩ := holds
        have different : other ≠ caller := by
          intro same
          rw [same, filtered] at holds
          cases holds
        exact Or.inr ⟨other, by simpa [different] using holds⟩
    · exact Or.inr ⟨caller, by simp [TurnPhase.turn, same]⟩

/-- The turn goes from the caller to the plan. -/
theorem Held.order (held : Held index ring first now state) {caller : Caller} {found : Eligible}
    {broken : Option Sticky} {cursor : Nat} {plan : Plan} {selector : Selector}
    (drawn : state.phase caller = .drawn found broken cursor)
    (kept : selector.cursors = state.selector.cursors) (turn : plan.turn = some cursor)
    (onRing : OnRing ring plan) :
    Held index ring first now
      ⟨selector, Function.update state.phase caller .idle, state.plans ++ [plan]⟩ := by
  have turns : (state.plans ++ [plan]).filterMap Plan.turn =
      state.plans.filterMap Plan.turn ++ [cursor] := by
    simp [turn]
  have mine := held.drawn caller found broken cursor drawn
  constructor
  · rw [kept]
    exact held.cursor
  · exact held.begun
  · intro other found observed sticky at'
    by_cases same : other = caller
    · rw [same] at at'
      simp at at'
    · exact held.filtered other found observed sticky (by simpa [same] using at')
  · intro other found' broken' value at'
    by_cases same : other = caller
    · rw [same] at at'
      simp at at'
    · have theirs : state.phase other = .drawn found' broken' value := by
        simpa [same] using at'
      have was := held.drawn other found' broken' value theirs
      refine ⟨was.1, was.2.1, was.2.2.1, was.2.2.2.1, ?_⟩
      rw [turns, List.mem_append, List.mem_singleton, not_or]
      refine ⟨was.2.2.2.2, ?_⟩
      intro equal
      exact same (held.apart other caller value (by rw [theirs]; rfl)
        (by rw [drawn, equal]; rfl))
  · intro one other value holds again
    by_cases sameOne : one = caller
    · simp [sameOne, TurnPhase.turn] at holds
    · by_cases sameOther : other = caller
      · simp [sameOther, TurnPhase.turn] at again
      · exact held.apart one other value (by simpa [sameOne] using holds)
          (by simpa [sameOther] using again)
  · intro made member
    rcases List.mem_append.mp member with old | final
    · exact held.plans made old
    · rw [List.mem_singleton.mp final]
      exact onRing
  · intro value made
    rw [turns, List.mem_append, List.mem_singleton] at made
    rcases made with old | final
    · exact held.past value old
    · rw [final]
      exact ⟨mine.2.2.1, mine.2.2.2.1⟩
  · rw [turns, List.nodup_append]
    refine ⟨held.once, List.nodup_singleton cursor, ?_⟩
    intro value old other final same
    rw [same, List.mem_singleton.mp final] at old
    exact mine.2.2.2.2 old
  · intro value low high
    rw [turns, List.mem_append, List.mem_singleton]
    rcases held.every value low high with made | holds
    · exact Or.inl (Or.inl made)
    · obtain ⟨other, holds⟩ := holds
      by_cases same : other = caller
      · rw [same, drawn] at holds
        exact Or.inl (Or.inr (Option.some.inj holds).symm)
      · exact Or.inr ⟨other, by simpa [same] using holds⟩

end Held

section Steps

variable [Lowercase] {Caller : Type} [DecidableEq Caller]

/-- The place of `name` among the routes. -/
def routeIndex (topology : Topology) (name : RouteName) : Nat :=
  topology.routes.findIdx fun other => other.name == name

/-- One step of one caller, or of anyone who plans on another route or gives a slot back. -/
def Turns.step (topology : Topology) (route : Route) (state : Turns Caller) :
    TurnAction Caller → Option (Turns Caller)
  | .filter caller health observed needs sticky =>
      match state.phase caller with
      | .idle =>
          match (eligible topology route health).bind fun found =>
              Lightweight.Router.filter found needs observed with
          | .error _ => some state
          | .ok found =>
              let phase := .filtered found observed sticky
              some { state with phase := Function.update state.phase caller phase }
      | _ => none
  | .follow caller =>
      match state.phase caller with
      | .filtered found observed sticky =>
          match sticky.map (stickyStanding found) with
          | some (.ok index) =>
              let known := state.selector.cursors[routeIndex topology route.name]?.map fun _ =>
                routeIndex topology route.name
              let (plan, after) :=
                state.selector.planSticky route.policy known found index observed
              some ⟨after, Function.update state.phase caller .idle, state.plans ++ [plan]⟩
          | _ => none
      | _ => none
  | .draw caller =>
      match state.phase caller, state.selector.cursors[routeIndex topology route.name]? with
      | .filtered found _ sticky, some cursor =>
          match sticky.map (stickyStanding found) with
          | some (.ok _) => none
          | standing =>
              let phase := .drawn found (brokenBy standing) cursor
              some { state with
                selector := state.selector.advance (routeIndex topology route.name) cursor
                phase := Function.update state.phase caller phase }
      | _, _ => none
  | .order caller =>
      match state.phase caller with
      | .drawn found broken cursor =>
          let (plan, after) := state.selector.reserve (orderRoundRobin found cursor)
          some ⟨after, Function.update state.phase caller .idle,
            state.plans ++ [{ plan with sticky := broken }]⟩
      | _ => none
  | .elsewhere selector =>
      if selector.cursors[routeIndex topology route.name]? =
          state.selector.cursors[routeIndex topology route.name]? then
        some { state with selector }
      else none

/-- The same deployments are capable for every plan that is made, and the cursor does not wrap. -/
def Steady (topology : Topology) (route : Route) (capable : DeploymentId → Bool) :
    Turns Caller → TurnAction Caller → Prop
  | _, .filter _ health observed needs _ =>
      (∀ id ∈ route.deployments,
        CanServe topology health observed needs id ↔ capable id = true) ∨
      ∃ failure, ((eligible topology route health).bind fun found =>
        Lightweight.Router.filter found needs observed) = .error failure
  | state, .draw _ =>
      ∀ cursor ∈ state.selector.cursors[routeIndex topology route.name]?,
        cursor + 1 < UInt64.size
  | _, _ => True

variable {topology : Topology} {route : Route} {state after : Turns Caller}

/-- With the same deployments capable, both filters leave the same ring. -/
theorem filtered_ring {health : NodeId → Option NodeStatus}
    {observed : DeploymentId → Option DeploymentObservation} {needs : RequestRequirements}
    {found : Eligible} {capable : DeploymentId → Bool} (configured : route ∈ topology.routes)
    (steady : ∀ id ∈ route.deployments,
      CanServe topology health observed needs id ↔ capable id = true)
    (kept : ((eligible topology route health).bind fun found => filter found needs observed) =
      .ok found) :
    found.candidates.map Candidate.deployment = route.deployments.filter capable := by
  rw [(filtered_spec configured kept).1, List.filter_filter]
  apply List.filter_congr
  intro id member
  rw [Bool.eq_iff_iff, ← steady id member,
    canServe_iff (topology.listed route configured id member), Bool.and_eq_true,
    List.isEmpty_iff, and_comm]

/-- One step of a run keeps who holds which turn. -/
theorem Held.step {capable : DeploymentId → Bool} {first now : Nat} {action : TurnAction Caller}
    (configured : route ∈ topology.routes) (roundRobin : route.policy = .roundRobin)
    (met : Steady topology route capable state action)
    (held : Held (routeIndex topology route.name) (route.deployments.filter capable) first now
      state) (stepped : state.step topology route action = some after) :
    ∃ next, Held (routeIndex topology route.name) (route.deployments.filter capable) first next
      after := by
  cases action with
  | filter caller health observed needs sticky =>
      simp only [Turns.step] at stepped
      split at stepped
      · rename_i idle
        split at stepped
        · cases stepped
          exact ⟨now, held⟩
        · rename_i found kept
          cases stepped
          refine ⟨now, held.move (by rw [idle]; rfl) rfl ?_⟩
          intro other _ _ same
          cases same
          rcases met with steady | failed
          · exact filtered_ring configured steady kept
          · obtain ⟨failure, failed⟩ := failed
            rw [kept] at failed
            cases failed
      · cases stepped
  | follow caller =>
      simp only [Turns.step] at stepped
      split at stepped
      · rename_i found observed sticky filtered
        split at stepped
        · rename_i index _
          cases stepped
          have known : (state.selector.cursors[routeIndex topology route.name]?.map fun _ =>
              routeIndex topology route.name).isSome := by
            rw [held.cursor]
            rfl
          have made := planSticky_ring state.selector found known index observed
          rw [held.filtered caller found observed sticky filtered] at made
          rw [← roundRobin] at made
          have turnless : (state.phase caller).turn = none := by
            rw [filtered]
            rfl
          have moved := held.move turnless (by rfl : TurnPhase.idle.turn = none)
            (by intro _ _ _ same; cases same)
          exact ⟨now, moved.hit made.1 made.2.1 made.2.2⟩
        · cases stepped
      · cases stepped
  | draw caller =>
      simp only [Turns.step] at stepped
      split at stepped
      · rename_i found observed sticky cursor filtered at'
        have value : now = cursor := Option.some.inj (held.cursor.symm.trans at')
        split at stepped
        · cases stepped
        · cases stepped
          subst value
          exact ⟨now + 1, held.draw filtered (brokenBy_ne_hit _) (met now held.cursor)⟩
      · cases stepped
  | order caller =>
      simp only [Turns.step] at stepped
      split at stepped
      · rename_i found broken cursor drawn
        cases stepped
        have mine := held.drawn caller found broken cursor drawn
        have kept := reserve_keeps state.selector (orderRoundRobin found cursor)
        have turn : ({ (state.selector.reserve (orderRoundRobin found cursor)).1 with
            sticky := broken } : Plan).turn = some cursor := kept.2.1
        refine ⟨now, held.order drawn kept.1 turn (.turn cursor turn mine.2.1 ?_)⟩
        rw [← mine.1, ← orderRoundRobin_ring]
        exact congrArg (List.map Candidate.deployment) (reserve_candidates _ _)
      · cases stepped
  | elsewhere selector =>
      simp only [Turns.step] at stepped
      split at stepped
      · rename_i same
        cases stepped
        exact ⟨now, same.trans held.cursor, held.begun, held.filtered, held.drawn, held.apart,
          held.plans, held.past, held.once, held.every⟩
      · cases stepped

/-- In any run of planning callers on a round-robin route, however they interleave: no deployment
leads more turns than another by more than one, the cursor counts the plans that were no affinity
hits, and each plan is the configured order begun at some place. A plan counts from its draw on;
where no caller is between the draw and the order, these are the plans made. -/
theorem round_robin_fair {capable : DeploymentId → Bool} {selector : Selector} {first now : Nat}
    {pending : List Caller} (configured : route ∈ topology.routes)
    (roundRobin : route.policy = .roundRobin)
    (before : selector.cursors[routeIndex topology route.name]? = some first)
    (reached : Reaches (Turns.step topology route) (Steady topology route capable)
      (Turns.idle selector) state)
    (later : state.selector.cursors[routeIndex topology route.name]? = some now)
    (once : pending.Nodup)
    (exactly : ∀ caller, caller ∈ pending ↔ (state.phase caller).turn.isSome) :
    (∀ a ∈ route.deployments.filter capable, ∀ b ∈ route.deployments.filter capable,
      leads (state.made pending) a ≤ leads (state.made pending) b + 1) ∧
    now = first + (state.made pending).countP (fun plan => plan.sticky ≠ some .hit) ∧
    (∀ plan ∈ state.made pending, plan.sticky = some .hit → plan.turn = none) ∧
    ∀ plan ∈ state.made pending, (plan.candidates.map Candidate.deployment).IsRotated
      (route.deployments.filter capable) := by
  obtain ⟨value, held⟩ : ∃ value, Held (routeIndex topology route.name)
      (route.deployments.filter capable) first value state := by
    apply reached.invariant
    · exact ⟨first, Held.start before⟩
    · intro state action after met held stepped
      obtain ⟨now, held⟩ := held
      exact held.step configured roundRobin met stepped
  have same : now = value := Option.some.inj (later.symm.trans held.cursor)
  rw [same]
  have onRing := held.made_onRing pending
  have turns := held.made_turns once exactly
  refine ⟨?_, ?_, ?_, ?_⟩
  · intro a here b there
    rw [leads_turns onRing, leads_turns onRing]
    exact leads_shared ((topology.once route configured).filter _) here there turns
  · rw [← count_turns onRing, turns.length_eq, List.length_range']
    have begun := held.begun
    omega
  · intro plan member followed
    cases onRing plan member with
    | turn _ _ missed _ => exact absurd followed missed
    | hit turn _ _ => exact turn
  · intro plan member
    cases onRing plan member with
    | turn _ _ _ order =>
        rw [order]
        exact turned_isRotated _ _
    | hit _ _ order => exact order

/-- What the selector does for one caller is a run of its steps. -/
theorem planWithAffinity_turns {selector next : Selector} {plan : Plan}
    {health : NodeId → Option NodeStatus}
    {observed : DeploymentId → Option DeploymentObservation} {needs : RequestRequirements}
    {sticky : Option DeploymentId} (configured : route ∈ topology.routes)
    (roundRobin : route.policy = .roundRobin)
    (aligned : selector.cursors.length = topology.routes.length)
    (planned : selector.planWithAffinity topology route health observed needs sticky =
      (.ok plan, next)) {caller : Caller} (idle : state.phase caller = .idle)
    (shared : state.selector = selector) :
    Reaches (Turns.step topology route) Always state
      ⟨next, state.phase, state.plans ++ [plan]⟩ := by
  have place : (topology.routes.findIdx? fun other => other.name == route.name) =
      some (routeIndex topology route.name) := by
    rw [List.findIdx?_eq_some_iff_findIdx_eq]
    refine ⟨List.findIdx_lt_length_of_exists ⟨route, configured, by simp⟩, rfl⟩
  have bound : routeIndex topology route.name < selector.cursors.length := by
    rw [aligned]
    exact (List.findIdx?_eq_some_iff_findIdx_eq.mp place).1
  obtain ⟨cursor, value⟩ : ∃ cursor,
      selector.cursors[routeIndex topology route.name]? = some cursor :=
    ⟨_, List.getElem?_eq_getElem bound⟩
  obtain ⟨shared', phase, plans⟩ := state
  dsimp only at idle shared ⊢
  subst shared
  unfold Selector.planWithAffinity at planned
  split at planned
  · cases planned
  · rename_i found kept
    have filtered : Reaches (Turns.step topology route) Always
        (⟨shared', phase, plans⟩ : Turns Caller)
        ⟨shared', Function.update phase caller (.filtered found observed sticky), plans⟩ := by
      apply Reaches.act .start (.filter caller health observed needs sticky) trivial
      simp only [Turns.step, idle, kept]
    rw [place] at planned
    dsimp only [Option.bind_some] at planned
    split at planned
    · rename_i index standing
      cases planned
      apply filtered.act (.follow caller) trivial
      simp only [Turns.step, Function.update_self, standing, Function.update_idem]
      rw [Option.map_map, ← idle, Function.update_eq_self]
      rfl
    · rename_i missed
      rw [value, roundRobin] at planned
      cases planned
      have drawn : Reaches (Turns.step topology route) Always
          (⟨shared', phase, plans⟩ : Turns Caller)
          ⟨shared'.advance (routeIndex topology route.name) cursor,
            Function.update phase caller
              (.drawn found (brokenBy (sticky.map (stickyStanding found))) cursor),
            plans⟩ := by
        apply filtered.act (.draw caller) trivial
        simp only [Turns.step, Function.update_self, value, Function.update_idem]
      apply drawn.act (.order caller) trivial
      simp only [Turns.step, Function.update_self, Function.update_idem]
      rw [← idle, Function.update_eq_self]
      rfl

end Steps

section Sample

attribute [local instance] asciiLowercase

def ringRoute : Route := { spreadRoute with policy := .roundRobin }

def ringTopology : Topology where
  nodes := spreadTopology.nodes
  deployments := spreadTopology.deployments
  routes := [ringRoute]
  defaultRoute := none
  nodeIds := by decide
  deploymentIds := by decide
  routeNames := by simp
  hosted := by decide
  listed := by decide
  once := by decide
  allowed := by simp [ringRoute, spreadRoute]
  unreserved := by decide
  default := by simp

theorem ring_capable : ∀ id ∈ ringRoute.deployments,
    CanServe ringTopology servingHealth chatObserved chatNeeds id ↔ true = true := by
  unfold CanServe
  decide

/-- Two callers past both filters draw one after the other, and the second orders first. -/
theorem round_robin_fair_sample :
    ∃ state : Turns Bool, Reaches (Turns.step ringTopology ringRoute)
        (Steady ringTopology ringRoute fun _ => true) (Turns.idle (.new ringTopology)) state ∧
      state.plans.length = 1 ∧ state.selector.cursors = [2] ∧
      leads (state.made [true]) onA.id ≤ leads (state.made [true]) onB.id + 1 := by
  have filtered : Reaches (Turns.step ringTopology ringRoute)
      (Steady ringTopology ringRoute fun _ => true)
      (Turns.idle (.new ringTopology) : Turns Bool) _ :=
    (Reaches.start.act (TurnAction.filter true servingHealth chatObserved chatNeeds none)
      (Or.inl ring_capable) rfl).act
      (TurnAction.filter false servingHealth chatObserved chatNeeds none) (Or.inl ring_capable) rfl
  have reached : Reaches (Turns.step ringTopology ringRoute)
      (Steady ringTopology ringRoute fun _ => true)
      (Turns.idle (.new ringTopology) : Turns Bool) _ :=
    ((filtered.act (TurnAction.draw true) (by intro _ value; cases value; decide) rfl).act
      (TurnAction.draw false) (by intro _ value; cases value; decide) rfl).act
      (TurnAction.order false) trivial rfl
  refine ⟨_, reached, rfl, rfl, ?_⟩
  have fair := round_robin_fair (by decide) rfl rfl reached rfl (List.nodup_singleton true)
    (by intro caller; cases caller <;> decide)
  exact fair.1 onA.id (by decide) onB.id (by decide)

end Sample

end Lightweight.Router
