/-
# What is drawn from a schema

The graph and the leaves that the first two passes leave behind, said without the passes.
A name may be declared more than once; what stands in any of its declarations counts. The
passes walk each tree by a recursion of their own, so what stands in an expression is taken
here from the parts of an expression, at any depth.
-/

import Rulebook.Proofs.Analysis.Leaves
import Rulebook.Proofs.Analysis.Problems

namespace Rulebook

/-- The first two passes draw a schema exactly, whatever is wrong with it. The graph has an
entry for each declared name and no other, with the declared names to which a reference
stands in some expression of the name. The leaves of a name are the fields and literals of
its declarations, in encounter order and a node before its parts, each of which is kept
unless it is equal to one before it, which comes to the same as unless it is equal to one
that is kept already (`Leaf.any_distinct`); a name without any has no entry. -/
theorem Pass.drawn_of_run (registry : Registry) (schema : Schema) :
    ∃ survey found, Pass.runAll [.names, .shapes] registry schema = (survey, found) ∧
      (∀ name, name ∈ survey.graph.names ↔ name ∈ schema.names) ∧
      (∀ name target, target ∈ survey.graph.targets name ↔
        target ∈ schema.names ∧
          ∃ e, schema.Declares name e ∧ (Expr.binding target).StandsIn e) ∧
      ∀ name, survey.leaves.find? name =
        if schema.leavesOf name = [] then none
        else some (Leaf.distinct (schema.leavesOf name)) := by
  refine ⟨_, _, Schema.runAll_names_shapes, fun name => Schema.mem_names_draft,
    fun name target => ?_, Schema.find?_leaves_draft⟩
  rw [Schema.mem_targets_draft, Schema.Refers]
  simp only [Expr.mem_nodes_iff]

namespace Example

/-- A total that is declared twice, with a reference inside a list inside a cascade. -/
def totalTwice : Schema where
  attributes := [⟨.attribute, "total", some (.call "add" [.field "net", .literal (.int 1)]), none⟩]
  traits :=
    [⟨.trait, "total", some (.call "and" [.cascade
        [⟨.list [.binding "total"], .literal (.int 1)⟩] (some (.field "gross")), .field "net"]),
      none⟩]
  functions := []

/-- Both declarations count, and what they have in common counts once. -/
example :
    let survey := (Pass.runAll [.names, .shapes] .builtins totalTwice).1
    survey.graph.targets "total" = ["total"] ∧
      (survey.leaves.find? "total").map (·.map Leaf.render) =
        some ["field:net", "1", "field:gross"] := by
  decide +kernel

end Example

end Rulebook
