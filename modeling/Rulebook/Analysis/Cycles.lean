/-
# Cycles of references

The third pass searches the dependency graph depth first. Every edge that leads
back into the walk is reported as one cycle, from the node it leads to around to
that node again. A node is searched once.
-/

import Rulebook.Analysis.Pass
import Rulebook.Walk

namespace Rulebook

namespace Graph

/-- The nodes to start from: the declared ones in encounter order, then those the
schema does not declare. -/
def roots (g : Graph) (schema : Schema) : List String :=
  (schema.names.filter g.contains ++ g.names).eraseDups

/-- What a node refers to, ascending. -/
def targets (g : Graph) (node : String) : List String :=
  match g.find? node with
  | some targets => targets.names
  | none => []

/-- A cycle as a diagnostic, at the place where its first name is declared. -/
def cycleDiagnostic (definitions : NameMap Declaration) (path : List String) : Diagnostic :=
  ⟨path.head?.bind fun name => (definitions.find? name).bind (·.location), .cycle path⟩

end Graph

namespace Cycles

/-- What the search has seen: the nodes entered so far and the cycles found. -/
structure Search where
  visited : NameSet
  cycles : List (List String)

/-- Search from a node, inside the given walk. -/
def search (g : Graph) (walk : List String) (node : String) (s : Search) : Search :=
  if _ : node ∈ walk then { s with cycles := s.cycles ++ [closedPath walk node] }
  else if node ∈ s.visited then s
  else
    let entered : Search := { s with visited := s.visited.add node }
    match _ : g.find? node with
    | none => entered
    | some targets =>
      targets.names.foldl (fun s next => search g (node :: walk) next s) entered
termination_by nodesLeft g.names walk
decreasing_by
  exact nodesLeft_cons_lt (NameMap.mem_names_of_find? ‹_›) ‹_›

section Lemmas

variable {g : Graph} {walk : List String} {node : String} {s : Search}

theorem search_of_mem (h : node ∈ walk) :
    search g walk node s = { s with cycles := s.cycles ++ [closedPath walk node] } := by
  rw [search]
  simp [h]

theorem search_of_visited (hwalk : node ∉ walk) (h : node ∈ s.visited) :
    search g walk node s = s := by
  rw [search]
  simp [hwalk, h]

/-- A node that is new is entered, and what it refers to is searched from inside it. -/
theorem search_of_new (hwalk : node ∉ walk) (h : node ∉ s.visited) :
    search g walk node s =
      (g.targets node).foldl (fun s next => search g (node :: walk) next s)
        { s with visited := s.visited.add node } := by
  rw [search]
  simp only [hwalk, h, dite_false, if_false, Graph.targets]
  split <;> simp_all

end Lemmas

end Cycles

/-- Reports every cycle of references. -/
def Pass.cycles : Pass where
  name := "cycles"
  run _ schema survey :=
    let result := (survey.graph.roots schema).foldl
      (fun s root => Cycles.search survey.graph [] root s) ⟨∅, []⟩
    (survey, result.cycles.map (Graph.cycleDiagnostic survey.definitions))

end Rulebook
