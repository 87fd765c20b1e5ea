/-
# Analyses

What static analysis knows about an accepted schema: which declaration refers to
which, the terminal nodes under each declaration, and an order in which every
declaration comes after those it refers to.
-/

import Rulebook.Expr

namespace Rulebook

/-! ## Leaves -/

/-- A terminal node of an expression that stands for a value by itself. -/
inductive Leaf where
  | field (name : String)
  | literal (value : Value)

namespace Leaf

/-- Two fields of one name, or two literals that are equal as values. -/
def same : Leaf → Leaf → Bool
  | .field m, .field n => m == n
  | .literal v, .literal w => v.same w
  | _, _ => false

def render : Leaf → String
  | .field name => "field:" ++ name
  | .literal v => v.render

end Leaf

/-- Declared names, each with the declared names it refers to. -/
abbrev Graph := NameMap NameSet

/-- Declared names, each with the distinct leaves under it. A name without leaves
has no entry. -/
abbrev LeafMap := NameMap (List Leaf)

/-! ## Analyses -/

/-- The outcome of an analysis that found nothing wrong. -/
structure Analysis where
  graph : Graph
  leaves : LeafMap
  order : List String

namespace Analysis

/-- The names that a declared name refers to. -/
def dependenciesOf? (a : Analysis) (name : String) : Option NameSet := a.graph.find? name

/-- The leaves under a name; none for a name that is not declared. -/
def leavesOf (a : Analysis) (name : String) : List Leaf := (a.leaves.find? name).getD []

end Analysis

end Rulebook
