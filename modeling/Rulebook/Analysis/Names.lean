/-
# Declared names

The first pass collects the declarations by name. A name that is declared again
is reported at the later declaration, which also replaces the earlier one.
-/

import Rulebook.Analysis.Pass

namespace Rulebook.Names

/-- Take in one declaration. -/
def step : NameMap Declaration × List Diagnostic → Declaration →
    NameMap Declaration × List Diagnostic
  | (definitions, found), d =>
    (definitions.insert d.name d,
      if definitions.contains d.name then found ++ [⟨d.location, .duplicateDefinition d.name⟩]
      else found)

end Names

/-- Collects the declarations by name and reports repeated names. -/
def Pass.names : Pass where
  name := "name_index"
  run _ schema survey :=
    let (definitions, found) := schema.declarations.foldl Names.step (survey.definitions, [])
    ({ survey with definitions := definitions }, found)

end Rulebook
