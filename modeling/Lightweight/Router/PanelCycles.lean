import Lightweight.Router.PanelFallback

/-! The panel's search for a cycle takes the steps of the router's: the routes on its path are those
the router has marked open, and the routes it is through with are those marked done. -/

namespace Lightweight.Router.Panel

/-- The marks of the router's search, as the panel's has them. -/
structure Coloured (marks : Marks) (path done : List RouteName) : Prop where
  settled : ∀ entry ∈ marks, entry.2 ≠ .new
  opened : ∀ node, Marks.of marks node = .opened ↔ node ∈ path
  finished : ∀ node, Marks.of marks node = .done ↔ node ∈ done

/-- Both searches have run out of fuel, found a cycle, or go on alike. -/
inductive Alike (path : List RouteName) : Option (Option (List RouteName) × Marks) →
    Option (Option (List RouteName) × List RouteName) → Prop where
  | exhausted : Alike path none none
  | cycle (found other : List RouteName) (marks : Marks) (done : List RouteName) :
      Alike path (some (some found, marks)) (some (some other, done))
  | through {marks : Marks} {done : List RouteName} : Coloured marks path done →
      Alike path (some (none, marks)) (some (none, done))

theorem mem_addTo {set : List RouteName} {name other : RouteName} :
    other ∈ addTo set name ↔ other ∈ set ∨ other = name := by
  unfold addTo
  split
  · rename_i member
    rw [List.contains_iff_mem] at member
    constructor
    · exact Or.inl
    · rintro (old | rfl)
      · exact old
      · exact member
  · rw [List.mem_append, List.mem_singleton]

section Search

variable {marks : Marks} {path done : List RouteName} {node : RouteName}

theorem Coloured.start : Coloured [] [] [] where
  settled := by simp
  opened := by simp [Marks.of_nil]
  finished := by simp [Marks.of_nil]

theorem Coloured.enter (coloured : Coloured marks path done) (new : Marks.of marks node = .new) :
    Coloured (marks ++ [(node, .opened)]) (path ++ [node]) done where
  settled := by
    intro entry member
    rcases List.mem_append.mp member with old | final
    · exact coloured.settled entry old
    · rw [List.mem_singleton.mp final]
      simp
  opened := by
    intro other
    rw [Marks.of_open coloured.settled new, List.mem_append, List.mem_singleton]
    by_cases same : other = node
    · simp [same]
    · simp [same, coloured.opened]
  finished := by
    intro other
    rw [Marks.of_open coloured.settled new, ← coloured.finished]
    by_cases same : other = node
    · simp [same, new]
    · simp [same]

theorem Coloured.leave (coloured : Coloured marks (path ++ [node]) done) (fresh : node ∉ path) :
    Coloured (Marks.close marks node) path (addTo done node) := by
  have isOpen : Marks.of marks node = .opened := by
    rw [coloured.opened]
    exact List.mem_append_right path (List.mem_singleton_self node)
  have marked : Marks.of marks node ≠ .new := by simp [isOpen]
  constructor
  · exact Marks.close_settled coloured.settled
  · intro other
    rw [Marks.of_close marked]
    by_cases same : other = node
    · simp [same, fresh]
    · simp [same, coloured.opened]
  · intro other
    rw [Marks.of_close marked, mem_addTo, ← coloured.finished]
    by_cases same : other = node
    · simp [same]
    · simp [same]

/-- The loop over the targets of a route, each of which is visited alike. -/
theorem visitEach_alike (nodes : List RouteName)
    {within : RouteName → Marks → Option (Option (List RouteName) × Marks)}
    {visit : RouteName → List RouteName → Option (Option (List RouteName) × List RouteName)}
    (each : ∀ next marks done, Coloured marks path done →
      Alike path (within next marks) (visit next done))
    (coloured : Coloured marks path done) :
    Alike path (visitEachWithin within nodes marks) (visitEach visit nodes done) := by
  induction nodes generalizing marks done with
  | nil => exact .through coloured
  | cons next rest ih =>
      have visited := each next marks done coloured
      rw [visitEachWithin, visitEach]
      generalize within next marks = first at visited ⊢
      generalize visit next done = second at visited ⊢
      cases visited with
      | exhausted => exact .exhausted
      | cycle found other marks done => exact .cycle found other marks done
      | through coloured => exact ih coloured

theorem visit_alike {chains : List (RouteName × List RouteName)} {edges : RouteName → List RouteName}
    (same : ∀ node, edges node = chainIn chains node) (fuel : Nat)
    (coloured : Coloured marks path done) :
    Alike path (visitWithin chains fuel node path marks) (visit edges fuel node path done) := by
  induction fuel generalizing node path marks done with
  | zero => exact .exhausted
  | succ fuel ih =>
      rw [visitWithin, visit]
      cases mark : Marks.of marks node with
      | opened =>
          rw [if_pos (by simpa using (coloured.opened node).mp mark)]
          exact .cycle _ _ _ _
      | done =>
          have off : node ∉ path := by
            rw [← coloured.opened, mark]
            simp
          rw [if_neg (by simpa using off), if_pos (by simpa using (coloured.finished node).mp mark)]
          exact .through coloured
      | new =>
          have off : node ∉ path := by
            rw [← coloured.opened, mark]
            simp
          have unfinished : node ∉ done := by
            rw [← coloured.finished, mark]
            simp
          rw [if_neg (by simpa using off), if_neg (by simpa using unfinished), same]
          have each : ∀ next marks done, Coloured marks (path ++ [node]) done →
              Alike (path ++ [node]) (visitWithin chains fuel next (path ++ [node]) marks)
                (visit edges fuel next (path ++ [node]) done) :=
            fun next marks done coloured => ih coloured
          have inner := visitEach_alike (chainIn chains node) each (coloured.enter mark)
          dsimp only
          revert inner
          generalize visitEachWithin _ _ _ = first
          generalize visitEach _ _ _ = second
          intro inner
          cases inner with
          | exhausted => exact .exhausted
          | cycle found other marks done => exact .cycle found other marks done
          | through coloured => exact .through (coloured.leave off)

end Search

theorem edges_eq_find (chains : List (RouteName × List RouteName)) (node : RouteName) :
    edges chains node =
      ((chains.reverse.find? fun entry => entry.1 == node).map Prod.snd).getD [] := rfl

theorem chainIn_eq_find (chains : List (RouteName × List RouteName)) (node : RouteName) :
    chainIn chains node = ((chains.find? fun entry => entry.1 == node).map Prod.snd).getD [] := rfl

/-- Where no route has two lists, it does not matter which of its lists counts. -/
theorem edges_eq_chainIn {chains : List (RouteName × List RouteName)}
    (distinct : (chains.map Prod.fst).Nodup) (node : RouteName) :
    edges chains node = chainIn chains node := by
  rw [edges_eq_find, chainIn_eq_find]
  have reversed : (chains.reverse.map Prod.fst).Nodup := by
    rw [List.map_reverse, List.nodup_reverse]
    exact distinct
  by_cases member : node ∈ chains.map Prod.fst
  · obtain ⟨entry, listed, rfl⟩ := List.mem_map.mp member
    have last : chains.reverse.find? (fun found => found.1 == entry.1) = some entry :=
      find_by_key reversed (List.mem_reverse.mpr listed)
    have first : chains.find? (fun found => found.1 == entry.1) = some entry :=
      find_by_key distinct listed
    rw [last, first]
  · have unlisted : ∀ entry ∈ chains, ¬ (entry.1 == node) = true := by
      intro entry listed same
      rw [beq_iff_eq] at same
      exact member (List.mem_map.mpr ⟨entry, listed, same⟩)
    have last : chains.reverse.find? (fun entry => entry.1 == node) = none :=
      List.find?_eq_none.mpr fun entry listed => unlisted entry (List.mem_reverse.mp listed)
    have first : chains.find? (fun entry => entry.1 == node) = none :=
      List.find?_eq_none.mpr unlisted
    rw [last, first]

/-- The panel's search ends, and it finds a cycle exactly where the router's does. -/
theorem findCycle_alike {chains : List (RouteName × List RouteName)}
    (distinct : (chains.map Prod.fst).Nodup) :
    findCycleWithin ((listedNames chains).length + 1) chains = some (findCycle chains) ∧
      ((findCycle chains).isSome ↔ (Router.findCycle chains).isSome) := by
  have searched := (findCycle_exact chains).1
  have alike : Alike [] (visitEachWithin
      (fun initial marks => visitWithin chains ((listedNames chains).length + 1) initial [] marks)
      (chains.map Prod.fst) []) (visitEach
      (fun source done => visit (edges chains) ((listedNames chains).length + 1) source [] done)
      (chains.map Prod.fst) []) :=
    visitEach_alike _ (fun next marks done coloured =>
      visit_alike (edges_eq_chainIn distinct) _ coloured) Coloured.start
  unfold findCycle
  unfold Router.findCycleWithin at searched
  unfold findCycleWithin
  revert searched alike
  generalize visitEachWithin _ _ _ = first
  generalize visitEach _ _ _ = second
  intro searched alike
  cases alike with
  | exhausted => cases searched
  | cycle found other marks done =>
      rw [← Option.some.inj searched]
      exact ⟨rfl, Iff.rfl⟩
  | through coloured =>
      rw [← Option.some.inj searched]
      exact ⟨rfl, Iff.rfl⟩

end Lightweight.Router.Panel
