/-
# Diagnostics

What static analysis can find wrong with a schema, where it was found, and the
error that carries everything that was found.
-/

import Rulebook.Schema

namespace Rulebook

/-- One kind of problem in a schema. -/
inductive Issue where
  | duplicateDefinition (name : String)
  | missingExpression (kind : Kind) (name : String)
  /-- A trait has to be a call. -/
  | traitNotCall (name : String)
  | undefinedReference (name : String)
  | unsupportedOperator (function : String)
  | arityMismatch (function : String) (expected actual : Nat)
  /-- References lead from the first name of the path back to it. -/
  | cycle (path : List String)
  deriving DecidableEq

def Issue.message : Issue → String
  | .duplicateDefinition name => s!"duplicated definition '{name}'"
  | .missingExpression kind name => s!"{kind.render} '{name}' requires an expression"
  | .traitNotCall name => s!"trait '{name}' must wrap a CallExpression"
  | .undefinedReference name => s!"undefined reference to '{name}'"
  | .unsupportedOperator function => s!"unsupported operator '{function}'"
  | .arityMismatch function expected actual =>
    s!"operator '{function}' expects {expected} args, got {actual}"
  | .cycle path => "cycle detected: " ++ String.intercalate " → " path

/-- An issue and where it was found, if that is known. -/
structure Diagnostic where
  location : Option Location
  issue : Issue
  deriving DecidableEq

def Diagnostic.message (d : Diagnostic) : String :=
  match d.location with
  | some location => s!"at {location.render}: {d.issue.message}"
  | none => d.issue.message

/-- Everything that one analysis found. -/
structure SemanticError where
  diagnostics : List Diagnostic
  deriving DecidableEq

/-- One diagnostic a line. -/
def SemanticError.message (e : SemanticError) : String :=
  String.intercalate "\n" (e.diagnostics.map (·.message))

end Rulebook
