/-
# Explanations

Why a binding has its value: a tree with a node for the binding and, below it,
the trees of the bindings that were consulted, in the order of their first use.
-/

import Rulebook.Schema

namespace Rulebook

/-- How one binding got its value. -/
structure Explanation where
  name : String
  kind : Kind
  value : Value
  /-- The text of the expression or the table row that gave the value. -/
  resolver : String
  dependencies : List Explanation

namespace Explanation

mutual

/-- The first node of a name: a node comes before the nodes below it, and these
from left to right. -/
def find? (name : String) : Explanation → Option Explanation
  | ⟨n, kind, value, resolver, dependencies⟩ =>
    if n = name then some ⟨n, kind, value, resolver, dependencies⟩
    else findAmong? name dependencies

/-- The first node of a name in several trees. -/
def findAmong? (name : String) : List Explanation → Option Explanation
  | [] => none
  | t :: rest =>
    match find? name t with
    | some node => some node
    | none => findAmong? name rest

end

/-- The line of one node, by its depth in the tree. -/
def line (depth : Nat) (kind : Kind) (name : String) (value : Value) (resolver : String) : String :=
  String.ofList (List.replicate (2 * depth) ' ') ++ kind.render ++ " " ++ name ++ " = " ++
    value.render ++ " via " ++ resolver ++ "\n"

mutual

/-- The lines of a tree whose root is at the given depth. -/
def renderFrom (depth : Nat) : Explanation → String
  | ⟨name, kind, value, resolver, dependencies⟩ =>
    line depth kind name value resolver ++ renderAll (depth + 1) dependencies

/-- The lines of several trees. -/
def renderAll (depth : Nat) : List Explanation → String
  | [] => ""
  | t :: rest => renderFrom depth t ++ renderAll depth rest

end

/-- One line a node, indented by its depth. -/
def render (t : Explanation) : String := t.renderFrom 0

end Explanation

end Rulebook
