/-
# Shapes and references

The second pass looks into every declaration: whether it has an expression of
the right form, whether its references are declared, whether the functions it
calls are registered and called with the right number of arguments. On the way
it draws the dependency graph and gathers the leaves. It walks expressions with
a node before the nodes below it, and reports in that order.
-/

import Rulebook.Analysis.Pass

namespace Rulebook.Shapes

/-- What the walk has drawn and reported so far. -/
structure Draft where
  graph : Graph
  leaves : LeafMap
  found : List Diagnostic

namespace Draft

/-- Report an issue at the place of a declaration. -/
def report (w : Draft) (d : Declaration) (issue : Issue) : Draft :=
  { w with found := w.found ++ [⟨d.location, issue⟩] }

/-- Make sure a declared name has a place in the graph. -/
def enter (w : Draft) (name : String) : Draft :=
  { w with graph := w.graph.update name ∅ id }

/-- Draw an edge. -/
def link (w : Draft) (source target : String) : Draft :=
  { w with graph := w.graph.update source ∅ (·.add target) }

/-- Keep a leaf, unless an equal one is kept already. -/
def keepLeaf (w : Draft) (name : String) (leaf : Leaf) : Draft :=
  { w with
    leaves := w.leaves.update name [] fun kept =>
      if kept.any (·.same leaf) then kept else kept ++ [leaf] }

end Draft

section Walk

variable (registry : Registry) (definitions : NameMap Declaration) (d : Declaration)

/-- Check a call against the registry. -/
def checkCall (w : Draft) (function : String) (count : Nat) : Draft :=
  match registry.find? function with
  | none => w.report d (.unsupportedOperator function)
  | some f =>
    match f.arity with
    | .any => w
    | .exactly expected =>
      if expected = count then w else w.report d (.arityMismatch function expected count)

/-- Check a reference and draw its edge. -/
def checkBinding (w : Draft) (name : String) : Draft :=
  if definitions.contains name then w.link d.name name
  else w.report d (.undefinedReference name)

mutual

/-- Check an expression of a declaration, a node before its parts. -/
def visit : Expr → Draft → Draft
  | .literal v, w => w.keepLeaf d.name (.literal v)
  | .field name, w => w.keepLeaf d.name (.field name)
  | .binding name, w => checkBinding definitions d w name
  | .list items, w => visitList items w
  | .call function args, w => visitList args (checkCall registry d w function args.length)
  | .cascade cases none, w => visitCases cases w
  | .cascade cases (some e), w => visit e (visitCases cases w)

/-- Check several expressions from left to right. -/
def visitList : List Expr → Draft → Draft
  | [], w => w
  | e :: rest, w => visitList rest (visit e w)

/-- Check the arms of a cascade, a condition before its result. -/
def visitCases : List Case → Draft → Draft
  | [], w => w
  | ⟨condition, result⟩ :: rest, w => visitCases rest (visit result (visit condition w))

end

/-- Check the form of a declaration: a trait has to be a call, anything else has
to have an expression. -/
def checkForm (w : Draft) : Draft :=
  match d.kind, d.expression with
  | .trait, some (.call _ _) => w
  | .trait, _ => w.report d (.traitNotCall d.name)
  | kind, none => w.report d (.missingExpression kind d.name)
  | _, some _ => w

/-- Check one declaration. -/
def step (w : Draft) : Draft :=
  let w := checkForm d (w.enter d.name)
  match d.expression with
  | some e => visit registry definitions d e w
  | none => w

end Walk

end Shapes

/-- Checks forms, references and calls, and draws the graph and the leaves. -/
def Pass.shapes : Pass where
  name := "type_check"
  run registry schema survey :=
    let draft := schema.declarations.foldl
      (fun w d => Shapes.step registry survey.definitions d w)
      ⟨survey.graph, survey.leaves, []⟩
    ({ survey with graph := draft.graph, leaves := draft.leaves }, draft.found)

end Rulebook
