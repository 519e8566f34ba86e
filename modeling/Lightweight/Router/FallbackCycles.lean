import Lightweight.Digraph
import Lightweight.Router.Fallback

/-! The search of the fallback lists for a cycle: it ends, and what it finds is a cycle of the lists'
graph. -/

namespace Lightweight.Router

open Lightweight.Catalog Lightweight.Digraph

section Cycles

variable (chains : List (RouteName × List RouteName))

/-- The graph of the lists: each route to the routes its list names. -/
def Lists (route target : RouteName) : Prop := target ∈ chainIn chains route

/-- Every name of every list. -/
def listedNames : List RouteName := chains.flatMap fun (initial, chain) => initial :: chain

/-- `visitEach`, unless a visit ran out of fuel. -/
def visitEachWithin (visit : RouteName → Marks → Option (Option (List RouteName) × Marks)) :
    List RouteName → Marks → Option (Option (List RouteName) × Marks)
  | [], marks => some (none, marks)
  | next :: rest, marks =>
      match visit next marks with
      | none => none
      | some (some cycle, marks) => some (some cycle, marks)
      | some (none, marks) => visitEachWithin visit rest marks

/-- `visit`, unless its calls are nested deeper than `fuel`. -/
def visitWithin : Nat → RouteName → List RouteName → Marks →
    Option (Option (List RouteName) × Marks)
  | 0, _, _, _ => none
  | fuel + 1, node, path, marks =>
      match Marks.of marks node with
      | .done => some (none, marks)
      | .opened =>
          let start := (path.findIdx? (· == node)).getD 0
          some (some (path.drop start ++ [node]), marks)
      | .new =>
          match visitEachWithin (fun next marks => visitWithin fuel next (path ++ [node]) marks)
              (chainIn chains node) (marks ++ [(node, .opened)]) with
          | none => none
          | some (some cycle, marks) => some (some cycle, marks)
          | some (none, marks) => some (none, Marks.close marks node)

/-- `findCycle`, unless its calls are nested deeper than `fuel`. -/
def findCycleWithin (fuel : Nat) : Option (Option (List RouteName)) :=
  (visitEachWithin (fun initial marks => visitWithin chains fuel initial [] marks)
    (chains.map Prod.fst) []).map Prod.fst

/-- The colouring: the open nodes are those of the path, and the done ones were finished in the
order `done` tells. -/
structure Searching (marks : Marks) (path done : List RouteName) : Prop where
  settled : ∀ entry ∈ marks, entry.2 ≠ .new
  opened : ∀ node, Marks.of marks node = .opened ↔ node ∈ path
  finished : ∀ node, Marks.of marks node = .done ↔ node ∈ done
  order : Finished (Lists chains) done
  once : path.Nodup
  listed : ∀ node ∈ path, node ∈ listedNames chains

/-- What a visit of `nodes` leaves: a cycle, or the nodes done and the path as it was. -/
def Visited (path done nodes : List RouteName) : Option (List RouteName) × Marks → Prop
  | (some cycle, _) => IsCycle (Lists chains) cycle
  | (none, marks) =>
      ∃ later, Searching chains marks path later ∧ done ⊆ later ∧ ∀ node ∈ nodes, node ∈ later

end Cycles

section Marks

variable {marks : Marks} {node : RouteName}

theorem Marks.of_nil (node : RouteName) : Marks.of [] node = .new := rfl

theorem Marks.of_cons (seen : RouteName) (mark : Mark) (rest : Marks) (node : RouteName) :
    Marks.of ((seen, mark) :: rest) node = if seen = node then mark else Marks.of rest node := by
  by_cases same : seen = node
  · simp [Marks.of, same]
  · simp [Marks.of, same]

/-- A node is open from where it was new. -/
theorem Marks.of_open (settled : ∀ entry ∈ marks, entry.2 ≠ .new)
    (new : Marks.of marks node = .new) (other : RouteName) :
    Marks.of (marks ++ [(node, .opened)]) other =
      if other = node then .opened else Marks.of marks other := by
  induction marks with
  | nil =>
      rw [List.nil_append, Marks.of_cons, Marks.of_nil]
      simp only [eq_comm]
  | cons entry rest ih =>
      obtain ⟨seen, mark⟩ := entry
      rw [List.forall_mem_cons] at settled
      rw [Marks.of_cons] at new
      by_cases same : seen = node
      · rw [if_pos same] at new
        exact absurd new settled.1
      · rw [if_neg same] at new
        rw [List.cons_append, Marks.of_cons, Marks.of_cons, ih settled.2 new]
        by_cases first : seen = other
        · rw [if_pos first, if_pos first, if_neg (first ▸ same)]
        · rw [if_neg first, if_neg first]

theorem Marks.of_close (marked : Marks.of marks node ≠ .new) (other : RouteName) :
    Marks.of (Marks.close marks node) other =
      if other = node then .done else Marks.of marks other := by
  induction marks with
  | nil => exact absurd (Marks.of_nil node) marked
  | cons entry rest ih =>
      obtain ⟨seen, mark⟩ := entry
      rw [Marks.of_cons] at marked
      rw [Marks.close]
      by_cases same : seen = node
      · rw [if_pos same, Marks.of_cons, Marks.of_cons, same]
        simp only [eq_comm]
        split <;> rfl
      · rw [if_neg same] at marked ⊢
        rw [Marks.of_cons, Marks.of_cons, ih marked]
        by_cases first : seen = other
        · rw [if_pos first, if_pos first, if_neg (first ▸ same)]
        · rw [if_neg first, if_neg first]

theorem Marks.close_settled (settled : ∀ entry ∈ marks, entry.2 ≠ .new) :
    ∀ entry ∈ Marks.close marks node, entry.2 ≠ .new := by
  induction marks with
  | nil => exact settled
  | cons entry rest ih =>
      obtain ⟨seen, mark⟩ := entry
      rw [List.forall_mem_cons] at settled
      rw [Marks.close]
      split
      · rw [List.forall_mem_cons]
        exact ⟨by simp, settled.2⟩
      · rw [List.forall_mem_cons]
        exact ⟨settled.1, ih settled.2⟩

end Marks

section Search

variable {chains : List (RouteName × List RouteName)} {marks : Marks}
  {path done : List RouteName} {node : RouteName}

theorem Searching.start : Searching chains [] [] [] where
  settled := by simp
  opened := by simp [Marks.of_nil]
  finished := by simp [Marks.of_nil]
  order := .nil
  once := List.nodup_nil
  listed := by simp

theorem Searching.new_not_open (searching : Searching chains marks path done)
    (new : Marks.of marks node = .new) : node ∉ path := by
  intro member
  rw [← searching.opened, new] at member
  cases member

/-- A new node is put at the path's end. -/
theorem Searching.enter (searching : Searching chains marks path done)
    (new : Marks.of marks node = .new) (named : node ∈ listedNames chains) :
    Searching chains (marks ++ [(node, .opened)]) (path ++ [node]) done where
  settled := by
    intro entry member
    rcases List.mem_append.mp member with old | final
    · exact searching.settled entry old
    · rw [List.mem_singleton.mp final]
      simp
  opened := by
    intro other
    rw [Marks.of_open searching.settled new, List.mem_append, List.mem_singleton]
    by_cases same : other = node
    · simp [same]
    · simp [same, searching.opened]
  finished := by
    intro other
    rw [Marks.of_open searching.settled new, ← searching.finished]
    by_cases same : other = node
    · simp [same, new]
    · simp [same]
  order := searching.order
  once := by
    rw [List.nodup_append]
    refine ⟨searching.once, List.nodup_singleton node, ?_⟩
    intro other old last final same
    rw [same, List.mem_singleton.mp final] at old
    exact searching.new_not_open new old
  listed := by
    intro other member
    rcases List.mem_append.mp member with old | final
    · exact searching.listed other old
    · rw [List.mem_singleton.mp final]
      exact named

/-- The node at the path's end is done once all it points at is. -/
theorem Searching.leave (searching : Searching chains marks (path ++ [node]) done)
    (targets : ∀ next ∈ chainIn chains node, next ∈ done) :
    Searching chains (Marks.close marks node) path (node :: done) := by
  have atEnd : node ∈ path ++ [node] := List.mem_append_right path (List.mem_singleton_self node)
  have isOpen : Marks.of marks node = .opened := (searching.opened node).mpr atEnd
  have marked : Marks.of marks node ≠ .new := by simp [isOpen]
  have once := List.nodup_append.mp searching.once
  have fresh : node ∉ path := fun old => once.2.2 node old node (List.mem_singleton_self node) rfl
  constructor
  · exact Marks.close_settled searching.settled
  · intro other
    rw [Marks.of_close marked]
    by_cases same : other = node
    · simp [same, fresh]
    · simp [same, searching.opened]
  · intro other
    rw [Marks.of_close marked, List.mem_cons, ← searching.finished]
    by_cases same : other = node
    · simp [same]
    · simp [same]
  · exact .cons targets searching.order
  · exact once.1
  · exact fun other old => searching.listed other (List.mem_append_left [node] old)

/-- No path is longer than there are names. -/
theorem Searching.bounded (searching : Searching chains marks path done) :
    path.length ≤ (listedNames chains).length :=
  (List.subperm_of_subset searching.once searching.listed).length_le

/-- An edge is an entry of some list. -/
theorem Lists.listed {next : RouteName} (step : Lists chains node next) :
    ∃ chain, (node, chain) ∈ chains ∧ next ∈ chain := by
  unfold Lists chainIn at step
  cases found : chains.find? fun (initial, _) => initial == node with
  | none => simp [found] at step
  | some entry =>
      have named : entry.1 = node := by simpa using List.find?_some found
      refine ⟨entry.2, ?_, by simpa [found] using step⟩
      rw [← named]
      exact List.mem_of_find?_eq_some found

theorem targets_listed {next : RouteName} (step : Lists chains node next) :
    next ∈ listedNames chains := by
  obtain ⟨chain, member, target⟩ := step.listed
  rw [listedNames, List.mem_flatMap]
  exact ⟨(node, chain), member, List.mem_cons_of_mem _ target⟩

theorem lists_source {next : RouteName} (step : Lists chains node next) :
    node ∈ chains.map Prod.fst := by
  obtain ⟨chain, member, _⟩ := step.listed
  exact List.mem_map_of_mem member

theorem lists_union (distinct : (chains.map Prod.fst).Nodup) (route target : RouteName) :
    Lists chains route target ↔ ∃ chain, (route, chain) ∈ chains ∧ target ∈ chain := by
  constructor
  · exact Lists.listed
  · intro entry
    obtain ⟨chain, member, target_listed⟩ := entry
    induction chains with
    | nil => cases member
    | cons first rest ih =>
        rw [List.map_cons, List.nodup_cons] at distinct
        unfold Lists chainIn at ih ⊢
        rw [List.find?_cons]
        rcases List.mem_cons.mp member with same | later
        · rw [← same]
          simpa using target_listed
        · have other : (first.1 == route) = false := by
            apply beq_false_of_ne
            intro same
            apply distinct.1
            rw [same]
            exact List.mem_map_of_mem (f := Prod.fst) later
          dsimp only
          rw [other]
          exact ih distinct.2 later

/-- The part of the path from where a node stands in it. -/
theorem drop_to_first (member : node ∈ path) : ∃ before after,
    path = before ++ node :: after ∧
      path.drop ((path.findIdx? (· == node)).getD 0) = node :: after := by
  induction path with
  | nil => cases member
  | cons first rest ih =>
      by_cases same : first = node
      · exact ⟨[], rest, by simp [same], by simp [List.findIdx?_cons, same]⟩
      · have later : node ∈ rest := (List.mem_cons.mp member).resolve_left (Ne.symm same)
        obtain ⟨before, after, whole, dropped⟩ := ih later
        refine ⟨first :: before, after, by rw [whole, List.cons_append], ?_⟩
        cases found : rest.findIdx? (· == node) with
        | none =>
            rw [List.findIdx?_eq_none_iff] at found
            simpa using found node later
        | some index =>
            rw [found] at dropped
            simpa [List.findIdx?_cons, same, found] using dropped

/-- The loop over nodes each of which is visited well. -/
theorem visitEach_within {nodes : List RouteName}
    {visit : RouteName → Marks → Option (List RouteName) × Marks}
    {within : RouteName → Marks → Option (Option (List RouteName) × Marks)}
    (each : ∀ next ∈ nodes, ∀ marks done, Searching chains marks path done →
      within next marks = some (visit next marks) ∧
        Visited chains path done [next] (visit next marks))
    (searching : Searching chains marks path done) :
    visitEachWithin within nodes marks = some (visitEach visit nodes marks) ∧
      Visited chains path done nodes (visitEach visit nodes marks) := by
  induction nodes generalizing marks done with
  | nil => exact ⟨rfl, done, searching, List.Subset.refl done, by simp⟩
  | cons next rest ih =>
      rw [List.forall_mem_cons] at each
      obtain ⟨ended, visited⟩ := each.1 marks done searching
      rw [visitEachWithin, visitEach, ended]
      cases outcome : visit next marks with
      | mk found marks =>
          rw [outcome] at visited
          cases found with
          | some cycle => exact ⟨rfl, visited⟩
          | none =>
              obtain ⟨middle, searching, kept, next_done⟩ := visited
              obtain ⟨ended, visited⟩ := ih each.2 searching
              refine ⟨ended, ?_⟩
              dsimp only
              revert visited
              cases visitEach visit rest marks with
              | mk found marks =>
                  cases found with
                  | some cycle => exact id
                  | none =>
                      intro visited
                      obtain ⟨later, searching, further, rest_done⟩ := visited
                      refine ⟨later, searching, List.Subset.trans kept further, ?_⟩
                      rw [List.forall_mem_cons]
                      exact ⟨further (next_done next (List.mem_singleton_self next)), rest_done⟩

/-- One visit from a path with fuel for the names that are not in it. -/
theorem visit_within {fuel : Nat} (searching : Searching chains marks path done)
    (walk : (path ++ [node]).IsChain (Lists chains)) (named : node ∈ listedNames chains)
    (deep : (listedNames chains).length < fuel + path.length) :
    visitWithin chains fuel node path marks = some (visit chains fuel node path marks) ∧
      Visited chains path done [node] (visit chains fuel node path marks) := by
  induction fuel generalizing node path marks done with
  | zero =>
      have bounded := searching.bounded
      omega
  | succ fuel ih =>
      rw [visitWithin, visit]
      cases mark : Marks.of marks node with
      | done =>
          refine ⟨rfl, done, searching, List.Subset.refl done, ?_⟩
          rw [List.forall_mem_singleton]
          exact (searching.finished node).mp mark
      | opened =>
          refine ⟨rfl, ?_⟩
          obtain ⟨before, after, whole, dropped⟩ := drop_to_first ((searching.opened node).mp mark)
          dsimp only
          rw [dropped]
          rw [whole] at walk
          exact IsCycle.of_return walk
      | new =>
          have entered := searching.enter mark named
          have each : ∀ next ∈ chainIn chains node, ∀ marks done,
              Searching chains marks (path ++ [node]) done →
              visitWithin chains fuel next (path ++ [node]) marks =
                  some (visit chains fuel next (path ++ [node]) marks) ∧
                Visited chains (path ++ [node]) done [next]
                  (visit chains fuel next (path ++ [node]) marks) := by
            intro next member marks done searching
            apply ih searching
            · rw [List.isChain_append]
              refine ⟨walk, List.isChain_singleton next, ?_⟩
              simpa [Lists] using member
            · exact targets_listed member
            · rw [List.length_append, List.length_singleton]
              omega
          obtain ⟨ended, visited⟩ := visitEach_within each entered
          rw [ended]
          dsimp only
          revert visited
          cases visitEach (fun next marks => visit chains fuel next (path ++ [node]) marks)
              (chainIn chains node) (marks ++ [(node, .opened)]) with
          | mk found marks =>
              cases found with
              | some cycle => exact fun cycle => ⟨rfl, cycle⟩
              | none =>
                  intro visited
                  obtain ⟨later, searching, kept, targets⟩ := visited
                  refine ⟨rfl, node :: later, searching.leave targets, ?_, ?_⟩
                  · exact List.subset_cons_of_subset node kept
                  · rw [List.forall_mem_singleton]
                    exact List.mem_cons_self

theorem findCycle_within (chains : List (RouteName × List RouteName)) :
    findCycleWithin chains ((listedNames chains).length + 1) = some (findCycle chains) ∧
      ∃ marks, Visited chains [] [] (chains.map Prod.fst) (findCycle chains, marks) := by
  have each : ∀ initial ∈ chains.map Prod.fst, ∀ marks done, Searching chains marks [] done →
      visitWithin chains ((listedNames chains).length + 1) initial [] marks =
          some (visit chains ((listedNames chains).length + 1) initial [] marks) ∧
        Visited chains [] done [initial]
          (visit chains ((listedNames chains).length + 1) initial [] marks) := by
    intro initial member marks done searching
    obtain ⟨entry, listed, same⟩ := List.mem_map.mp member
    apply visit_within searching
    · exact List.isChain_singleton initial
    · rw [listedNames, List.mem_flatMap]
      exact ⟨entry, listed, by simp [same]⟩
    · simp
  obtain ⟨ended, visited⟩ := visitEach_within each Searching.start
  refine ⟨?_, _, visited⟩
  rw [findCycleWithin, ended]
  rfl

theorem findCycle_cycle {path : List RouteName} (found : findCycle chains = some path) :
    IsCycle (Lists chains) path := by
  obtain ⟨_, marks, visited⟩ := findCycle_within chains
  rw [found] at visited
  exact visited

/-- When the search finds nothing, all the routes with a list are done. -/
theorem findCycle_none (found : findCycle chains = none) : ¬ HasCycle (Lists chains) := by
  obtain ⟨_, marks, visited⟩ := findCycle_within chains
  rw [found] at visited
  obtain ⟨done, searching, _, initials⟩ := visited
  apply searching.order.no_cycle
  intro node next step
  exact initials node (lists_source step)

end Search

/-- The search ends, within calls nested no deeper than there are names; it reports a cycle exactly
when the graph has one, and what it reports is one. Where no route has two lists, an edge of the
graph is an entry of any of the lists. -/
theorem findCycle_exact (chains : List (RouteName × List RouteName)) :
    findCycleWithin chains ((listedNames chains).length + 1) = some (findCycle chains) ∧
      ((findCycle chains).isSome ↔ HasCycle (Lists chains)) ∧
      (∀ path, findCycle chains = some path → IsCycle (Lists chains) path) ∧
      ((chains.map Prod.fst).Nodup → ∀ route target, Lists chains route target ↔
        ∃ chain, (route, chain) ∈ chains ∧ target ∈ chain) := by
  refine ⟨(findCycle_within chains).1, ?_, fun path => findCycle_cycle, lists_union⟩
  constructor
  · intro found
    obtain ⟨path, found⟩ := Option.isSome_iff_exists.mp found
    exact (findCycle_cycle found).hasCycle
  · intro cycle
    by_contra none
    exact findCycle_none (by simpa using none) cycle

section Validated

variable [Lowercase] {routes : List Route} {reachable classifierRoutes : List RouteName}

theorem checkList_distinct
    {state : List (RouteName × List RouteName) × List FallbackProblem}
    (list : List Char × List (List Char)) (distinct : (state.1.map Prod.fst).Nodup) :
    ((checkList routes reachable classifierRoutes state list).1.map Prod.fst).Nodup := by
  unfold checkList
  dsimp only
  split
  · exact distinct
  · rename_i initial _
    split
    · exact distinct
    · split
      · exact distinct
      · rename_i fresh
        split
        · exact distinct
        · split
          · exact distinct
          · split
            · rw [List.map_append, List.nodup_append]
              refine ⟨distinct, List.nodup_singleton initial, ?_⟩
              intro other old last final same
              obtain ⟨entry, member, named⟩ := List.mem_map.mp old
              apply fresh
              rw [List.any_eq_true]
              refine ⟨entry, member, ?_⟩
              rw [beq_iff_eq, named, same]
              exact List.mem_singleton.mp final
            · exact distinct

/-- The lists that stand after the check have no cycle between them, in any order. -/
theorem validate_acyclic {raw : CrossRouteFallbackFile} {fallback : CrossRouteFallback}
    (validated : validate raw routes reachable classifierRoutes = .ok fallback) :
    ¬ HasCycle fun route target => target ∈ fallback.chain route := by
  have distinct : ((raw.toList.foldl (checkList routes reachable classifierRoutes)
      ([], [])).1.map Prod.fst).Nodup := by
    apply List.foldlRecOn raw.toList (checkList routes reachable classifierRoutes)
      (motive := fun state => (state.1.map Prod.fst).Nodup)
    · exact List.nodup_nil
    · intro state kept list _
      exact checkList_distinct list kept
  unfold validate at validated
  split at validated
  · rename_i chains accepted
    rw [accepted] at distinct
    split at validated
    · cases validated
    · rename_i searched
      cases validated
      have sorted := List.perm_insertionSort (fun a b : RouteName × List RouteName =>
        configuredAt routes a.1 ≤ configuredAt routes b.1) chains
      have same : (fun route target => target ∈ CrossRouteFallback.chain
          ⟨chains.insertionSort fun a b => configuredAt routes a.1 ≤ configuredAt routes b.1⟩
          route) = Lists chains := by
        funext route target
        apply propext
        rw [lists_union distinct]
        refine (lists_union ((sorted.map Prod.fst).nodup_iff.mpr distinct) route target).trans ?_
        simp only [sorted.mem_iff]
      rw [same]
      exact findCycle_none searched
  · cases validated

end Validated

end Lightweight.Router
