/-
# Topological order

The last pass lists the nodes of the dependency graph so that a node comes after
all it refers to: depth first, a node when it is left. The roots are taken in
encounter order, so the result is stable. Where references go in a circle there
is no such order; the edges that close a circle are reported and passed over.
-/

import Rulebook.Analysis.Cycles

namespace Rulebook

namespace Order

/-- The nodes left so far, in this order, and the cycles met. -/
structure Sorting where
  order : List String
  cycles : List (List String)

/-- Sort a node in, after all it refers to. -/
def sort (g : Graph) (walk : List String) (node : String) (s : Sorting) : Sorting :=
  if _ : node ∈ walk then { s with cycles := s.cycles ++ [closedPath walk node] }
  else if node ∈ s.order then s
  else
    let below := match _ : g.find? node with
      | none => s
      | some targets => targets.names.foldl (fun s next => sort g (node :: walk) next s) s
    { below with order := below.order ++ [node] }
termination_by nodesLeft g.names walk
decreasing_by
  exact nodesLeft_cons_lt (NameMap.mem_names_of_find? ‹_›) ‹_›

section Lemmas

variable {g : Graph} {walk : List String} {node : String} {s : Sorting}

theorem sort_of_mem (h : node ∈ walk) :
    sort g walk node s = { s with cycles := s.cycles ++ [closedPath walk node] } := by
  rw [sort]
  simp [h]

theorem sort_of_left (hwalk : node ∉ walk) (h : node ∈ s.order) : sort g walk node s = s := by
  rw [sort]
  simp [hwalk, h]

/-- A node that is new is listed after what it refers to. -/
theorem sort_of_new (hwalk : node ∉ walk) (h : node ∉ s.order) :
    sort g walk node s =
      let below := (g.targets node).foldl (fun s next => sort g (node :: walk) next s) s
      { below with order := below.order ++ [node] } := by
  rw [sort]
  simp only [hwalk, h, dite_false, if_false, Graph.targets]
  split <;> simp_all

end Lemmas

end Order

/-- Finds an order of evaluation, and reports what stands in its way. -/
def Pass.order : Pass where
  name := "toposort"
  run _ schema survey :=
    let result := (survey.graph.roots schema).foldl
      (fun s root => Order.sort survey.graph [] root s) ⟨[], []⟩
    ({ survey with order := result.order },
      result.cycles.map (Graph.cycleDiagnostic survey.definitions))

end Rulebook
