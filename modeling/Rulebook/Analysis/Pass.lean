/-
# Passes

Static analysis is a list of passes over one growing survey of the schema. A
pass refines the survey and reports what it finds wrong; it never stops the
passes after it. Passes that set parts of the survey by decree are here, the
passes of the standard analysis have modules of their own.
-/

import Rulebook.Analysis
import Rulebook.Issue
import Rulebook.Registry

namespace Rulebook

/-- What the passes have found out so far. -/
structure Survey where
  /-- Each declared name with its last declaration. -/
  definitions : NameMap Declaration
  graph : Graph
  leaves : LeafMap
  order : List String

instance : EmptyCollection Survey := ⟨⟨∅, ∅, ∅, []⟩⟩

/-- One step of an analysis: refines the survey and gives the diagnostics found on
the way. -/
structure Pass where
  name : String
  run : Registry → Schema → Survey → Survey × List Diagnostic

namespace Pass

/-- Takes the encounter order for the order, repeated names included. -/
def declarationOrder : Pass where
  name := "declaration_order"
  run _ schema survey := ({ survey with order := schema.names }, [])

/-- Sets the order. -/
def fixedOrder (names : List String) : Pass where
  name := "order"
  run _ _ survey := ({ survey with order := names }, [])

/-- Sets the dependency graph. -/
def fixedGraph (graph : Graph) : Pass where
  name := "graph"
  run _ _ survey := ({ survey with graph := graph }, [])

/-- Reports every declaration whose name starts with a given text. -/
def forbidNames (start : String) : Pass where
  name := "forbid"
  run _ schema survey :=
    (survey, (schema.declarations.filter fun d => start.toList.isPrefixOf d.name.toList).map
      fun d => ⟨d.location, .undefinedReference d.name⟩)

/-- Run passes one after the other, gathering their diagnostics. -/
def runAll (passes : List Pass) (registry : Registry) (schema : Schema) :
    Survey × List Diagnostic :=
  passes.foldl
    (fun (survey, found) pass =>
      let (survey, more) := pass.run registry schema survey
      (survey, found ++ more))
    (∅, [])

end Pass

end Rulebook
