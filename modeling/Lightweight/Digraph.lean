import Mathlib.Logic.Relation
import Mathlib.Data.List.Chain

/-! Directed graphs given by their edges: closed walks, and the order in which a depth first search
finishes the nodes it leaves. -/

namespace Lightweight.Digraph

variable {α : Type} {edge : α → α → Prop}

/-- Whether some node is reached from itself by one edge or more. -/
def HasCycle (edge : α → α → Prop) : Prop :=
  ∃ node, Relation.TransGen edge node node

/-- A walk that ends where it began. -/
structure IsCycle (edge : α → α → Prop) (path : List α) : Prop where
  walk : path.IsChain edge
  moves : 2 ≤ path.length
  closed : path.head? = path.getLast?

/-- Nodes in the order they were finished, the latest first: what a node points at is finished
before it. -/
inductive Finished (edge : α → α → Prop) : List α → Prop where
  | nil : Finished edge []
  | cons {node : α} {done : List α} : (∀ next, edge node next → next ∈ done) →
      Finished edge done → Finished edge (node :: done)

theorem IsCycle.hasCycle {path : List α} (cycle : IsCycle edge path) : HasCycle edge := by
  obtain ⟨walk, moves, closed⟩ := cycle
  match path with
  | [] | [_] => simp at moves
  | first :: second :: rest =>
      rw [List.isChain_cons_cons] at walk
      have onward := List.relationReflTransGen_of_exists_isChain_cons rest walk.2 rfl
      have back : (second :: rest).getLast (by simp) = first := by
        simpa [List.getLast?_eq_getLast_of_ne_nil] using closed.symm
      rw [back] at onward
      exact ⟨first, Relation.TransGen.head' walk.1 onward⟩

/-- A walk that comes back to a node it has been at. -/
theorem IsCycle.of_return {before after : List α} {node : α}
    (walk : (before ++ node :: after ++ [node]).IsChain edge) :
    IsCycle edge (node :: after ++ [node]) := by
  rw [List.append_assoc] at walk
  exact ⟨walk.right_of_append, by simp, by rw [List.getLast?_concat]; rfl⟩

theorem Finished.closed {done : List α} (finished : Finished edge done) {node next : α}
    (member : node ∈ done) (step : edge node next) : next ∈ done := by
  induction finished with
  | nil => cases member
  | cons earlier _ ih =>
      rcases List.mem_cons.mp member with rfl | old
      · exact List.mem_cons_of_mem _ (earlier next step)
      · exact List.mem_cons_of_mem _ (ih old)

theorem Finished.reached {done : List α} (finished : Finished edge done) {node last : α}
    (walk : Relation.ReflTransGen edge node last) (member : node ∈ done) : last ∈ done := by
  induction walk with
  | refl => exact member
  | tail _ step ih => exact finished.closed ih step

/-- No finished node comes back to itself. -/
theorem Finished.acyclic {done : List α} (finished : Finished edge done) {node : α}
    (member : node ∈ done) : ¬ Relation.TransGen edge node node := by
  induction finished with
  | nil => cases member
  | cons earlier tail ih =>
      intro around
      rcases List.mem_cons.mp member with rfl | old
      · obtain ⟨next, step, back⟩ := Relation.TransGen.head'_iff.mp around
        exact ih (tail.reached back (earlier next step)) around
      · exact ih old around

/-- A graph all of whose edges leave finished nodes has no cycle. -/
theorem Finished.no_cycle {done : List α} (finished : Finished edge done)
    (sources : ∀ node next, edge node next → node ∈ done) : ¬ HasCycle edge := by
  intro cycle
  obtain ⟨node, around⟩ := cycle
  obtain ⟨next, step, _⟩ := Relation.TransGen.head'_iff.mp around
  exact finished.acyclic (sources node next step) around

end Lightweight.Digraph
