import Mathlib

/-!
# Finish order

The order in which a depth-first search leaves the nodes of a graph: the latest first.  All
edges of a node lead to nodes left before it, so the nodes are on no cycle.
-/

namespace CarbonLab

variable {α : Type} {edge : α → α → Prop}

variable (edge) in
/-- Each node stands once, and its edges lead to nodes behind it. -/
inductive Finished : List α → Prop
  | nil : Finished []
  | cons {node : α} {rest : List α} (fresh : node ∉ rest)
      (leads : ∀ next, edge node next → next ∈ rest) (finished : Finished rest) :
      Finished (node :: rest)

theorem Finished.closed {nodes : List α} (finished : Finished edge nodes) {node next : α}
    (member : node ∈ nodes) (step : edge node next) : next ∈ nodes := by
  induction finished with
  | nil => cases member
  | cons _ leads _ ih =>
      rcases List.mem_cons.mp member with rfl | behind
      · exact List.mem_cons_of_mem _ (leads next step)
      · exact List.mem_cons_of_mem _ (ih behind)

theorem Finished.closed_transGen {nodes : List α} (finished : Finished edge nodes) {node last : α}
    (member : node ∈ nodes) (path : Relation.TransGen edge node last) : last ∈ nodes := by
  induction path with
  | single step => exact finished.closed member step
  | tail _ step ih => exact finished.closed ih step

/-- Finished nodes are on no cycle. -/
theorem Finished.acyclic {nodes : List α} (finished : Finished edge nodes) {node : α}
    (member : node ∈ nodes) : ¬Relation.TransGen edge node node := by
  induction finished with
  | nil => cases member
  | @cons first rest fresh leads finished ih =>
      rcases List.mem_cons.mp member with rfl | behind
      · intro cycle
        obtain ⟨next, step, path⟩ := Relation.TransGen.head'_iff.mp cycle
        have reached := leads next step
        rcases Relation.reflTransGen_iff_eq_or_transGen.mp path with rfl | path
        · exact fresh reached
        · exact fresh (finished.closed_transGen reached path)
      · exact ih behind

/-- A walk that comes back to its last node. -/
structure ClosesCycle (edge : α → α → Prop) (path : List α) : Prop where
  walk : path.IsChain edge
  returns : ∃ before last, path = before ++ [last] ∧ last ∈ before

theorem ClosesCycle.exists_cycle {path : List α} (closes : ClosesCycle edge path) :
    ∃ node, Relation.TransGen edge node node := by
  obtain ⟨before, last, rfl, member⟩ := closes.returns
  obtain ⟨front, behind, rfl⟩ := List.append_of_mem member
  refine ⟨last, ?_⟩
  have cycle : (last :: (behind ++ [last])).IsChain edge := by
    have walk := closes.walk
    rw [List.append_assoc, List.cons_append] at walk
    exact walk.right_of_append
  cases behind with
  | nil => exact Relation.TransGen.single (List.isChain_cons_cons.mp cycle).1
  | cons next rest =>
      obtain ⟨step, walk⟩ := List.isChain_cons_cons.mp cycle
      refine Relation.TransGen.head' step ?_
      exact List.relationReflTransGen_of_exists_isChain_cons _ walk (by simp)

end CarbonLab
