/-
# Decision tables

Ordered rows, each with the traits that must all hold and what to resolve with
when they do. The first row that fits is taken, not the most specific one; a
table that should always answer ends with a row that requires nothing.
-/

import Rulebook.Fault
import Rulebook.NameMap

namespace Rulebook

/-- The traits that must all hold, and what to resolve with then. -/
structure Row (R : Type) where
  required : NameSet
  resolver : R

/-- Rows in the order in which they are tried. -/
structure DecisionTable (R : Type) where
  rows : List (Row R)

namespace DecisionTable

variable {R : Type}

/-- The first row all of whose required traits hold. -/
def pickRow (t : DecisionTable R) (satisfied : NameSet) : Except Fault (Row R) :=
  match t.rows.find? fun row => row.required.subset satisfied with
  | some row => .ok row
  | none => .error (.noDecisionMatch satisfied.names)

/-- What to resolve with when exactly these traits hold. -/
def pick (t : DecisionTable R) (satisfied : NameSet) : Except Fault R :=
  (t.pickRow satisfied).map (·.resolver)

/-- Every trait that some row requires. -/
def referencedTraits (t : DecisionTable R) : NameSet :=
  NameSet.ofNames (t.rows.flatMap fun row => row.required.names)

end DecisionTable

end Rulebook
