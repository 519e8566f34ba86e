import Lightweight.Transition
import Lightweight.Router.SelectPlans

/-! Callers that plan at once on one least-busy route. Reading the loads, choosing and reserving is
one section under the route's lock, so whatever the interleaving, each choice is made on the counts
as they are, and the counts stay in proportion to the capacities. -/

namespace Lightweight.Router

open Lightweight.Catalog Lightweight.Transition

/-! ### The order of loads -/

theorem Load.capacity_pos {load : Load} {limit : Nat} (known : load.capacity = some limit) :
    0 < limit := by
  have checked := (Option.filter_eq_some_iff.mp known).2
  simpa using checked

theorem compareLoad_swap (a b : Load) : compareLoad a b = (compareLoad b a).swap := by
  unfold compareLoad
  cases a.capacity with
  | none =>
      cases b.capacity with
      | none => exact (Nat.compare_swap b.active a.active).symm
      | some limitB => rfl
  | some limitA =>
      cases b.capacity with
      | none => rfl
      | some limitB => exact (Nat.compare_swap (b.active * limitA) (a.active * limitB)).symm

/-- Cross-multiplied comparisons chain, since a known capacity is positive. -/
theorem compareLoad_trans {a b c : Load} (first : (compareLoad a b).isLE)
    (second : (compareLoad b c).isLE) : (compareLoad a c).isLE := by
  unfold compareLoad at *
  cases knownA : a.capacity with
  | none =>
      cases knownB : b.capacity with
      | some limitB => simp [knownA, knownB] at first
      | none =>
          cases knownC : c.capacity with
          | some limitC => simp [knownB, knownC] at second
          | none =>
              simp only [knownA, knownB, knownC, Nat.isLE_compare] at first second ⊢
              exact first.trans second
  | some limitA =>
      cases knownC : c.capacity with
      | none => rfl
      | some limitC =>
          cases knownB : b.capacity with
          | none => simp [knownB, knownC] at second
          | some limitB =>
              simp only [knownA, knownB, knownC, Nat.isLE_compare] at first second ⊢
              apply Nat.le_of_mul_le_mul_right _ (Load.capacity_pos knownB)
              calc
                a.active * limitC * limitB = a.active * limitB * limitC := Nat.mul_right_comm ..
                _ ≤ b.active * limitA * limitC := Nat.mul_le_mul_right limitC first
                _ = b.active * limitC * limitA := Nat.mul_right_comm ..
                _ ≤ c.active * limitB * limitA := Nat.mul_le_mul_right limitA second
                _ = c.active * limitA * limitB := Nat.mul_right_comm ..

instance : Ord Load := ⟨compareLoad⟩

instance : Std.TransOrd Load where
  eq_swap := compareLoad_swap _ _
  isLE_trans := compareLoad_trans

/-- Loads first, then configured order. -/
theorem busierThan_eq :
    busierThan = compareLex (compareOn Prod.snd) (compareOn fun pair => pair.1.position) :=
  rfl

instance : Std.TransCmp busierThan := by
  rw [busierThan_eq]
  infer_instance

instance : Std.Total fun a b : Candidate × Load => busierThan a b ≠ .gt where
  total a b := by
    by_contra neither
    rw [not_or, not_ne_iff, not_ne_iff] at neither
    have swapped : busierThan b a = (busierThan a b).swap := Std.OrientedCmp.eq_swap
    rw [neither.1, neither.2] at swapped
    cases swapped

instance : IsTrans (Candidate × Load) fun a b => busierThan a b ≠ .gt where
  trans a b c first second := by
    have chained : (busierThan a c).isLE := Std.TransCmp.isLE_trans
      (Ordering.isLE_iff_ne_gt.mpr first) (Ordering.isLE_iff_ne_gt.mpr second)
    exact Ordering.isLE_iff_ne_gt.mp chained

/-- The first choice is the candidate whose load is least. -/
theorem orderLeastBusy_head {eligible : Eligible} {load : Candidate → Load} {first : Candidate}
    (chosen : (orderLeastBusy eligible (eligible.candidates.map load)).candidates.head? =
      some first) :
    first ∈ eligible.candidates ∧
      ∀ other ∈ eligible.candidates, (compareLoad (load first) (load other)).isLE := by
  let lighter : Candidate × Load → Candidate × Load → Prop := fun a b => busierThan a b ≠ .gt
  have paired : (eligible.candidates.zipIdx.map fun pair =>
      (pair.1, ((eligible.candidates.map load)[pair.2]?).getD ⟨0, none⟩)) =
      eligible.candidates.map fun candidate => (candidate, load candidate) := by
    apply List.ext_getElem
    · simp
    · intro i _ high
      rw [List.length_map] at high
      simp [List.getElem?_eq_getElem high]
  have head : (((eligible.candidates.map fun candidate =>
      (candidate, load candidate)).insertionSort lighter).map Prod.fst).head? = some first := by
    rw [← paired]
    exact chosen
  rw [List.head?_map, Option.map_eq_some_iff] at head
  rcases head with ⟨best, leads, rfl⟩
  rcases List.head?_eq_some_iff.mp leads with ⟨rest, sorted⟩
  have ordered := List.pairwise_insertionSort lighter
    (eligible.candidates.map fun candidate => (candidate, load candidate))
  have member : ∀ pair, pair ∈ best :: rest ↔
      pair ∈ eligible.candidates.map fun candidate => (candidate, load candidate) := by
    intro pair
    rw [← sorted]
    exact (List.perm_insertionSort lighter _).mem_iff
  rw [sorted] at ordered
  rcases List.mem_map.mp ((member best).mp List.mem_cons_self) with ⟨candidate, present, rfl⟩
  refine ⟨present, ?_⟩
  intro other listed
  rcases List.mem_cons.mp ((member (other, load other)).mpr (List.mem_map_of_mem listed)) with
    same | later
  · have equal : other = candidate := congrArg Prod.fst same
    rw [equal]
    show (compare (load candidate) (load candidate)).isLE
    exact Std.ReflCmp.isLE_rfl
  · have below : busierThan (candidate, load candidate) (other, load other) ≠ .gt :=
      List.rel_of_pairwise_cons ordered later
    have first := Ordering.isLE_then_iff_and.mp (Ordering.isLE_iff_ne_gt.mpr below)
    exact first.1

/-! ### The section under the lock -/

/-- What a plan reads of one candidate. -/
def loadOf (book : LoadBook) (observed : DeploymentId → Option DeploymentObservation)
    (candidate : Candidate) : Load :=
  { active := book.active candidate.deployment
    limit := (observed candidate.deployment).map DeploymentObservation.maxConcurrentRequests }

/-- Where a caller is: outside the section, reading the loads one by one, or about to leave it with
a slot reserved. -/
inductive ChoosingPhase where
  | outside
  | reading (loads : List Load)
  | reserved (plan : Plan)
deriving DecidableEq

/-- Callers of one route: the counts they share, and who holds the route's lock. -/
structure Choosing (Caller : Type) where
  load : LoadBook
  lock : Option Caller
  phase : Caller → ChoosingPhase

inductive ChoosingAction (Caller : Type) where
  | lock (caller : Caller)
  | read (caller : Caller)
  | reserve (caller : Caller)
  | unlock (caller : Caller)
deriving DecidableEq, Repr

section Callers

variable {Caller : Type} [DecidableEq Caller]

/-- One step of one caller. A caller may come back for another plan. -/
def Choosing.step (fixed : Eligible)
    (observed : DeploymentId → Option DeploymentObservation) (state : Choosing Caller) :
    ChoosingAction Caller → Option (Choosing Caller)
  | .lock caller =>
      match state.lock, state.phase caller with
      | none, .outside =>
          some { state with
            lock := some caller
            phase := Function.update state.phase caller (.reading []) }
      | _, _ => none
  | .read caller =>
      match state.phase caller with
      | .reading loads =>
          fixed.candidates[loads.length]?.map fun candidate =>
            let phase := .reading (loads ++ [loadOf state.load observed candidate])
            { state with phase := Function.update state.phase caller phase }
      | _ => none
  | .reserve caller =>
      match state.phase caller with
      | .reading loads =>
          if loads.length = fixed.candidates.length then
            let (plan, after) :=
              Selector.reserve ⟨[], state.load⟩ (orderLeastBusy fixed loads)
            some { state with
              load := after.load
              phase := Function.update state.phase caller (.reserved plan) }
          else none
      | _ => none
  | .unlock caller =>
      match state.phase caller with
      | .reserved _ =>
          some { state with
            lock := none
            phase := Function.update state.phase caller .outside }
      | _ => none

/-- No one is planning yet. -/
def Choosing.idle (load : LoadBook) : Choosing Caller where
  load := load
  lock := none
  phase _ := .outside

/-! ### Balance -/

variable {fixed : Eligible} {observed : DeploymentId → Option DeploymentObservation}
  {state after : Choosing Caller}

/-- In proportion: no deployment holds more than one request beyond another, for its size. -/
def Balanced (fixed : Eligible) (capacity : DeploymentId → Nat) (book : LoadBook) : Prop :=
  ∀ i ∈ fixed.candidates, ∀ j ∈ fixed.candidates,
    (book.active i.deployment - 1) * capacity j.deployment ≤
      book.active j.deployment * capacity i.deployment

omit [DecidableEq Caller] in
theorem active_acquire (book : LoadBook) (taken deployment : DeploymentId) :
    (book.acquire taken).2.active deployment = book.active deployment ∨
      deployment = taken ∧
        (book.acquire taken).2.active deployment = book.active deployment + 1 := by
  unfold LoadBook.acquire
  cases count : book.counters taken with
  | none => exact Or.inl rfl
  | some count' =>
      by_cases same : deployment = taken
      · right
        refine ⟨same, ?_⟩
        simp [LoadBook.active, same, count]
      · left
        simp [LoadBook.active, same]

omit [DecidableEq Caller] in
/-- One more request where the load is least keeps the balance. -/
theorem Balanced.acquire {capacity : DeploymentId → Nat} {book : LoadBook}
    (balanced : Balanced fixed capacity book) {first : Candidate}
    (least : ∀ other ∈ fixed.candidates,
      book.active first.deployment * capacity other.deployment ≤
        book.active other.deployment * capacity first.deployment) :
    Balanced fixed capacity (book.acquire first.deployment).2 := by
  intro i here j there
  have grown : book.active j.deployment ≤
      (book.acquire first.deployment).2.active j.deployment := by
    rcases active_acquire book first.deployment j.deployment with same | ⟨_, more⟩
    · exact same.ge
    · rw [more]
      exact Nat.le_succ _
  have before : ((book.acquire first.deployment).2.active i.deployment - 1) *
      capacity j.deployment ≤ book.active j.deployment * capacity i.deployment := by
    rcases active_acquire book first.deployment i.deployment with same | ⟨chosen, more⟩
    · rw [same]
      exact balanced i here j there
    · rw [more, Nat.add_sub_cancel, chosen]
      exact least j there
  exact before.trans (Nat.mul_le_mul_right _ grown)

/-- What the lock keeps: whoever is in the section holds it, and has read the counts as they are. -/
structure Guarded (fixed : Eligible)
    (observed : DeploymentId → Option DeploymentObservation) (state : Choosing Caller) : Prop where
  exclusive : ∀ caller, state.phase caller ≠ .outside → state.lock = some caller
  fresh : ∀ caller loads, state.phase caller = .reading loads →
    loads = (fixed.candidates.take loads.length).map (loadOf state.load observed)

theorem Choosing.step_cases {action : ChoosingAction Caller}
    (stepped : state.step fixed observed action = some after) :
    (∃ caller, state.lock = none ∧ state.phase caller = .outside ∧
      after = ⟨state.load, some caller, Function.update state.phase caller (.reading [])⟩) ∨
    (∃ caller loads candidate, state.phase caller = .reading loads ∧
      fixed.candidates[loads.length]? = some candidate ∧
      after = ⟨state.load, state.lock, Function.update state.phase caller
        (.reading (loads ++ [loadOf state.load observed candidate]))⟩) ∨
    (∃ caller loads, state.phase caller = .reading loads ∧
      loads.length = fixed.candidates.length ∧
      after = ⟨(Selector.reserve ⟨[], state.load⟩ (orderLeastBusy fixed loads)).2.load,
        state.lock, Function.update state.phase caller
          (.reserved (Selector.reserve ⟨[], state.load⟩ (orderLeastBusy fixed loads)).1)⟩) ∨
    ∃ caller plan, state.phase caller = .reserved plan ∧
      after = ⟨state.load, none, Function.update state.phase caller .outside⟩ := by
  cases action with
  | lock caller =>
      simp only [Choosing.step] at stepped
      split at stepped
      · rename_i free out
        cases stepped
        exact Or.inl ⟨caller, free, out, rfl⟩
      · cases stepped
  | read caller =>
      simp only [Choosing.step] at stepped
      split at stepped
      · rename_i loads reading
        rcases Option.map_eq_some_iff.mp stepped with ⟨candidate, next, rfl⟩
        exact Or.inr (Or.inl ⟨caller, loads, candidate, reading, next, rfl⟩)
      · cases stepped
  | reserve caller =>
      simp only [Choosing.step] at stepped
      split at stepped
      · rename_i loads reading
        split at stepped
        · rename_i complete
          cases stepped
          exact Or.inr (Or.inr (Or.inl ⟨caller, loads, reading, complete, rfl⟩))
        · cases stepped
      · cases stepped
  | unlock caller =>
      simp only [Choosing.step] at stepped
      split at stepped
      · rename_i plan reserved
        cases stepped
        exact Or.inr (Or.inr (Or.inr ⟨caller, plan, reserved, rfl⟩))
      · cases stepped

omit [DecidableEq Caller] in
/-- A caller in the section keeps all others out of it. -/
theorem Guarded.alone (guarded : Guarded fixed observed state) {caller other : Caller}
    (inside : state.phase caller ≠ .outside) (different : other ≠ caller) :
    state.phase other = .outside := by
  by_contra within
  have mine := guarded.exclusive caller inside
  rw [guarded.exclusive other within] at mine
  exact different (Option.some.inj mine)

omit [DecidableEq Caller] in
/-- It is enough to look at the one caller that may be in the section. -/
theorem Guarded.of_alone (caller : Caller)
    (others : ∀ other, other ≠ caller → state.phase other = .outside)
    (holds : state.phase caller ≠ .outside → state.lock = some caller)
    (fresh : ∀ loads, state.phase caller = .reading loads →
      loads = (fixed.candidates.take loads.length).map (loadOf state.load observed)) :
    Guarded fixed observed state := by
  constructor
  · intro other within
    by_cases same : other = caller
    · rw [same] at within ⊢
      exact holds within
    · exact absurd (others other same) within
  · intro other loads reading
    by_cases same : other = caller
    · rw [same] at reading
      exact fresh loads reading
    · rw [others other same] at reading
      cases reading

theorem Guarded.step {action : ChoosingAction Caller} (guarded : Guarded fixed observed state)
    (stepped : state.step fixed observed action = some after) :
    Guarded fixed observed after := by
  -- in every case one caller moves, and the others are outside before and after
  have apart : ∀ {caller other : Caller} (phase : ChoosingPhase),
      state.phase caller ≠ .outside → other ≠ caller →
        Function.update state.phase caller phase other = .outside := by
    intro caller other phase inside different
    rw [Function.update_of_ne different]
    exact guarded.alone inside different
  rcases Choosing.step_cases stepped with
    ⟨caller, free, out, rfl⟩ | ⟨caller, loads, candidate, reading, next, rfl⟩ |
    ⟨caller, loads, reading, complete, rfl⟩ | ⟨caller, plan, reserved, rfl⟩
  · apply Guarded.of_alone caller
    · intro other different
      by_contra within
      dsimp only at within
      rw [Function.update_of_ne different] at within
      rw [guarded.exclusive other within] at free
      cases free
    · exact fun _ => rfl
    · intro loads reading
      dsimp only at reading
      rw [Function.update_self] at reading
      cases reading
      rfl
  · have inside : state.phase caller ≠ .outside := by simp [reading]
    apply Guarded.of_alone caller
    · exact fun other different => apart _ inside different
    · exact fun _ => guarded.exclusive caller inside
    · intro loads' reading'
      dsimp only at reading'
      rw [Function.update_self] at reading'
      cases reading'
      rcases List.getElem?_eq_some_iff.mp next with ⟨bound, rfl⟩
      rw [List.length_append, List.length_singleton, List.take_succ_eq_append_getElem bound,
        List.map_append, ← guarded.fresh caller loads reading]
      rfl
  · have inside : state.phase caller ≠ .outside := by simp [reading]
    apply Guarded.of_alone caller
    · exact fun other different => apart _ inside different
    · exact fun _ => guarded.exclusive caller inside
    · intro loads' reading'
      dsimp only at reading'
      rw [Function.update_self] at reading'
      cases reading'
  · have inside : state.phase caller ≠ .outside := by simp [reserved]
    apply Guarded.of_alone caller
    · exact fun other different => apart _ inside different
    · intro within
      dsimp only at within
      rw [Function.update_self] at within
      exact absurd rfl within
    · intro loads' reading'
      dsimp only at reading'
      rw [Function.update_self] at reading'
      cases reading'

/-- Known, positive capacities. -/
def KnownCapacities (fixed : Eligible)
    (observed : DeploymentId → Option DeploymentObservation) (capacity : DeploymentId → Nat) : Prop :=
  ∀ candidate ∈ fixed.candidates, 0 < capacity candidate.deployment ∧
    (observed candidate.deployment).map DeploymentObservation.maxConcurrentRequests =
      some (capacity candidate.deployment)

omit [DecidableEq Caller] in
theorem capacity_loadOf {capacity : DeploymentId → Nat}
    (known : KnownCapacities fixed observed capacity) {candidate : Candidate}
    (member : candidate ∈ fixed.candidates) (book : LoadBook) :
    (loadOf book observed candidate).capacity = some (capacity candidate.deployment) := by
  rcases known candidate member with ⟨positive, limit⟩
  rw [Load.capacity, loadOf, limit]
  simp [positive]

theorem Balanced.step {capacity : DeploymentId → Nat}
    (known : KnownCapacities fixed observed capacity)
    (guarded : Guarded fixed observed state) (balanced : Balanced fixed capacity state.load)
    {action : ChoosingAction Caller}
    (stepped : state.step fixed observed action = some after) :
    Balanced fixed capacity after.load := by
  rcases Choosing.step_cases stepped with
    ⟨caller, free, out, rfl⟩ | ⟨caller, loads, candidate, reading, next, rfl⟩ |
    ⟨caller, loads, reading, complete, rfl⟩ | ⟨caller, plan, reserved, rfl⟩
  · exact balanced
  · exact balanced
  · have current := guarded.fresh caller loads reading
    rw [complete, List.take_length] at current
    unfold Selector.reserve
    split
    · exact balanced
    · rename_i first chosen
      rw [current] at chosen
      rcases orderLeastBusy_head chosen with ⟨member, least⟩
      apply balanced.acquire
      intro other listed
      have below := least other listed
      unfold compareLoad at below
      rw [capacity_loadOf known member, capacity_loadOf known listed] at below
      exact Nat.isLE_compare.mp below
  · exact balanced

/-- Whatever the interleaving of callers, and however many plans they make with none released, the
counts stay in proportion to the capacities. -/
theorem least_busy_balanced [Lowercase] (topology : Topology) {capacity : DeploymentId → Nat}
    (known : KnownCapacities fixed observed capacity)
    (reached : Reaches (Choosing.step fixed observed) Always
      (Choosing.idle (LoadBook.new topology)) state) :
    ∀ i ∈ fixed.candidates, ∀ j ∈ fixed.candidates,
      (state.load.active i.deployment - 1) * capacity j.deployment ≤
        state.load.active j.deployment * capacity i.deployment := by
  have both : Guarded fixed observed state ∧ Balanced fixed capacity state.load := by
    apply reached.invariant
      (fun state => Guarded fixed observed state ∧ Balanced fixed capacity state.load)
    · constructor
      · constructor
        · intro caller within
          exact absurd rfl within
        · intro caller loads reading
          cases reading
      · intro i _ j _
        have zero : (LoadBook.new topology).active i.deployment = 0 := by
          unfold LoadBook.active LoadBook.new
          dsimp only
          cases topology.deployment i.deployment <;> rfl
        rw [Choosing.idle, zero, Nat.zero_sub, Nat.zero_mul]
        exact Nat.zero_le _
    · intro before action after _ kept stepped
      exact ⟨kept.1.step stepped, kept.2.step known kept.1 stepped⟩
  exact both.2

/-! ### A plan of the selector is one passage of the section -/

/-- A caller alone in the section, in the phase given. -/
def Choosing.inside (load : LoadBook) (caller : Caller) (phase : ChoosingPhase) :
    Choosing Caller where
  load := load
  lock := some caller
  phase := Function.update (fun _ => .outside) caller phase

theorem reads_in_order (load : LoadBook) (caller : Caller) {n : Nat}
    (short : n ≤ fixed.candidates.length) :
    Reaches (Choosing.step fixed observed) Always (Choosing.idle load)
      (Choosing.inside load caller
        (.reading ((fixed.candidates.take n).map (loadOf load observed)))) := by
  induction n with
  | zero => exact Reaches.start.act (.lock caller) trivial rfl
  | succ n ih =>
      apply (ih (Nat.le_of_succ_le short)).act (.read caller) trivial
      have length : ((fixed.candidates.take n).map (loadOf load observed)).length = n := by
        rw [List.length_map, List.length_take, Nat.min_eq_left (Nat.le_of_succ_le short)]
      simp only [Choosing.step, Choosing.inside, Function.update_self, length,
        List.getElem?_eq_getElem short, Option.map_some, Function.update_idem,
        List.take_succ_eq_append_getElem short, List.map_append, List.map_cons, List.map_nil]

variable [Lowercase] {selector next : Selector} {topology : Topology} {route : Route}
  {health : NodeId → Option NodeStatus} {needs : RequestRequirements}
  {sticky : Option DeploymentId} {plan : Plan}

omit [DecidableEq Caller] [Lowercase] in
/-- The cursors have no part in a reservation. -/
theorem reserve_cursors (selector : Selector) (plan : Plan) :
    (Selector.reserve ⟨[], selector.load⟩ plan).1 = (selector.reserve plan).1 ∧
      (Selector.reserve ⟨[], selector.load⟩ plan).2.load = (selector.reserve plan).2.load := by
  unfold Selector.reserve
  split <;> exact ⟨rfl, rfl⟩

omit [DecidableEq Caller] in
/-- On a least-busy route, unless the session's deployment is there to be taken, a plan is the least
busy order with its first choice reserved. -/
theorem planWithAffinity_leastBusy (leastBusy : route.policy = .leastBusy)
    (configured : route ∈ topology.routes)
    (aligned : selector.cursors.length = topology.routes.length)
    (found : ((eligible topology route health).bind fun found => filter found needs observed) =
      .ok fixed)
    (miss : ∀ id ∈ sticky, id ∉ fixed.candidates.map Candidate.deployment) :
    ∃ plan, selector.planWithAffinity topology route health observed needs sticky =
      (.ok plan, (selector.reserve (orderLeastBusy fixed (fixed.candidates.map
          (loadOf selector.load observed)))).2) ∧
      plan = { (selector.reserve (orderLeastBusy fixed (fixed.candidates.map
          (loadOf selector.load observed)))).1 with sticky := plan.sticky } := by
  have stands : ∀ index, sticky.map (stickyStanding fixed) ≠ some (.ok index) := by
    intro index hit
    rcases Option.map_eq_some_iff.mp hit with ⟨id, named, standing⟩
    rcases stickyStanding_ok standing with ⟨first, there, same⟩
    apply miss id named
    rw [← same]
    exact List.mem_map_of_mem (List.mem_of_getElem? there)
  have state : ∃ index cursor, ((topology.routes.findIdx? fun other => other.name == route.name).bind
      fun index => selector.cursors[index]?.map fun cursor => (index, cursor)) =
        some (index, cursor) := by
    cases position : topology.routes.findIdx? fun other => other.name == route.name with
    | none =>
        have absent := List.findIdx?_eq_none_iff.mp position route configured
        simp at absent
    | some index =>
        have bound := (List.findIdx?_eq_some_iff_getElem.mp position).1
        rw [← aligned] at bound
        refine ⟨index, selector.cursors[index], ?_⟩
        simp [List.getElem?_eq_getElem bound]
  rcases state with ⟨index, cursor, known⟩
  unfold Selector.planWithAffinity
  rw [found]
  dsimp only
  rw [known]
  split
  · rename_i position standing
    exact absurd standing (stands position)
  · rw [leastBusy]
    exact ⟨_, rfl, rfl⟩

/-- The section, passed by one caller with no other in it, makes the plan and leaves the counts that
the selector does. -/
theorem planWithAffinity_reaches (leastBusy : route.policy = .leastBusy)
    (configured : route ∈ topology.routes)
    (aligned : selector.cursors.length = topology.routes.length)
    (found : ((eligible topology route health).bind fun found => filter found needs observed) =
      .ok fixed)
    (miss : ∀ id ∈ sticky, id ∉ fixed.candidates.map Candidate.deployment)
    (planned : selector.planWithAffinity topology route health observed needs sticky =
      (.ok plan, next)) (caller : Caller) :
    ∃ reserved, plan = { reserved with sticky := plan.sticky } ∧
      Reaches (Choosing.step fixed observed) Always (Choosing.idle selector.load)
        (Choosing.inside next.load caller (.reserved reserved)) ∧
      (Choosing.inside next.load caller (.reserved reserved)).step fixed observed (.unlock caller) =
        some (Choosing.idle next.load) := by
  rcases planWithAffinity_leastBusy leastBusy configured aligned found miss with
    ⟨made, same, parts⟩
  rw [planned] at same
  cases same
  refine ⟨_, parts, ?_, ?_⟩
  · have read : Reaches (Choosing.step fixed observed) Always _ _ :=
      reads_in_order selector.load caller (Nat.le_refl fixed.candidates.length)
    rw [List.take_length] at read
    apply read.act (.reserve caller) trivial
    simp only [Choosing.step, Choosing.inside, Function.update_self, List.length_map, if_true,
      Function.update_idem, reserve_cursors selector]
  · simp only [Choosing.step, Choosing.inside, Choosing.idle, Function.update_self,
      Function.update_idem, Function.update_eq_self]

end Callers

section Sample

attribute [local instance] asciiLowercase

/-- The node `a` takes four requests at once, the node `b` one. -/
def sizedCapacity (id : DeploymentId) : Nat := if id == onA.id then 4 else 1

def sizedObserved : DeploymentId → Option DeploymentObservation := fun id =>
  some ⟨chatOnly, 4096, sizedCapacity id, 0⟩

def sizedEligible : Eligible where
  route := spreadRoute.name
  candidates := [⟨onA.id, onA.node, onA.remoteModel, 0⟩, ⟨onB.id, onB.node, onB.remoteModel, 1⟩]
  skipped := []
  unfit := []
  routeSize := 2

/-- Three plans by two callers, one of whom comes back for another. -/
def threePlans : List (ChoosingAction Bool) :=
  [.lock true, .read true, .read true, .reserve true, .unlock true,
    .lock false, .read false, .read false, .reserve false, .unlock false,
    .lock true, .read true, .read true, .reserve true]

theorem least_busy_balanced_sample :
    ((eligible spreadTopology spreadRoute servingHealth).bind fun found =>
      filter found chatNeeds sizedObserved) = .ok sizedEligible ∧
    ∃ state, run (Choosing.step sizedEligible sizedObserved)
        (Choosing.idle (LoadBook.new spreadTopology)) threePlans = some state ∧
      state.load.active onA.id = 2 ∧ state.load.active onB.id = 1 ∧
      ∀ i ∈ sizedEligible.candidates, ∀ j ∈ sizedEligible.candidates,
        (state.load.active i.deployment - 1) * sizedCapacity j.deployment ≤
          state.load.active j.deployment * sizedCapacity i.deployment := by
  have ran : ((run (Choosing.step sizedEligible sizedObserved)
      (Choosing.idle (LoadBook.new spreadTopology)) threePlans).map fun state =>
        (state.load.active onA.id, state.load.active onB.id)) = some (2, 1) := by decide +kernel
  rcases Option.map_eq_some_iff.mp ran with ⟨state, reached, counts⟩
  refine ⟨by rfl, state, reached, congrArg Prod.fst counts, congrArg Prod.snd counts, ?_⟩
  apply least_busy_balanced spreadTopology _ (run_reaches reached)
  unfold KnownCapacities
  decide +kernel

end Sample

end Lightweight.Router
