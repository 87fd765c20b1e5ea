/-
# Faults

What can stop an evaluation. Each cause carries what its message tells; the
wording is in one place.
-/

namespace Rulebook

/-- The cause for which an evaluation gave no value. -/
inductive Fault where
  /-- The context has no such key. -/
  | missingField (field : String) (available : List String)
  /-- A reference that was compiled without a target. -/
  | unresolvedBinding (name : String)
  /-- A name was asked for that is not compiled. -/
  | unknownBinding (name : String)
  | unknownFunction (name : String)
  /-- A function failed or broke off. -/
  | call (function message : String)
  /-- The context does not support lookup by key. -/
  | invalidContext (found : String)
  /-- A binding was needed for its own value; the path starts and ends with it. -/
  | cycle (path : List String)
  /-- No row of a decision table fits the traits that hold. -/
  | noDecisionMatch (satisfied : List String)
  deriving DecidableEq

namespace Fault

def message : Fault → String
  | .missingField field available =>
    s!"key '{field}' not found in context; available: [" ++ String.intercalate ", " available ++ "]"
  | .unresolvedBinding name => s!"unresolved binding '{name}'"
  | .unknownBinding name => s!"no binding named '{name}'"
  | .unknownFunction name => s!"unknown function '{name}'"
  | .call function message => s!"error calling '{function}': {message}"
  | .invalidContext found => s!"evaluation context must be a mapping, got {found}"
  | .cycle path => "dependency cycle detected: " ++ String.intercalate " -> " path
  | .noDecisionMatch satisfied =>
    "no decision-table match for satisfied traits [" ++ String.intercalate ", " satisfied ++ "]"

end Fault

end Rulebook
