/-
# Analyzing a schema

The standard passes, and what comes of running passes: an analysis if nothing
was found wrong, else one error with everything that was found, each finding
once.
-/

import Rulebook.Analysis.Names
import Rulebook.Analysis.Order
import Rulebook.Analysis.Shapes

namespace Rulebook

/-- Names, shapes, cycles, order. -/
def Pass.standard : List Pass := [.names, .shapes, .cycles, .order]

namespace Schema

/-- Analyze with passes of one's own choice. -/
def analyzeWith (schema : Schema) (passes : List Pass) (registry : Registry) :
    Except SemanticError Analysis :=
  let (survey, found) := Pass.runAll passes registry schema
  if found.isEmpty then .ok ⟨survey.graph, survey.leaves, survey.order⟩
  else .error ⟨found.eraseDups⟩

/-- Analyze with the standard passes. -/
def analyze (schema : Schema) (registry : Registry) : Except SemanticError Analysis :=
  schema.analyzeWith Pass.standard registry

end Schema

end Rulebook
