/-
# Compiling a schema

An analyzed schema becomes a program with one slot for every name of the
analysis' order. References become slot numbers; a name that the order lists
more than once is reached at its last place. An attribute whose cascade asks, in
every condition, for nothing but a conjunction of traits gets a decision table
with one row a case and a last row for the default.
-/

import Rulebook.Analysis.Analyze
import Rulebook.Program

namespace Rulebook

/-! ## Code -/

namespace Code

section OfExpr

variable (registry : Registry) (order : List String)

mutual

/-- The code of an expression, for slots in the given order. -/
def ofExpr : Expr → Code
  | .literal value => .literal value
  | .field name => .field name
  | .binding name =>
    match lastPosition? name order with
    | some index => .slot index
    | none => .unresolved name
  | .list items => .list (ofList items)
  | .call function args =>
    .call function ((registry.find? function).map (·.body)) (ofList args)
  | .cascade cases none => .cascade (ofCases cases) none
  | .cascade cases (some e) => .cascade (ofCases cases) (some (ofExpr e))

/-- The code of several expressions. -/
def ofList : List Expr → List Code
  | [] => []
  | e :: rest => ofExpr e :: ofList rest

/-- The code of the arms of a cascade. -/
def ofCases : List Case → List (Code × Code)
  | [] => []
  | ⟨condition, result⟩ :: rest => (ofExpr condition, ofExpr result) :: ofCases rest

end

end OfExpr

end Code

/-! ## Decision tables -/

namespace Schema

/-- Whether the last declaration of a name is a trait. -/
def isTrait (schema : Schema) (name : String) : Bool :=
  match schema.find? name with
  | some d => d.kind = .trait
  | none => false

/-- The trait that an expression refers to and does nothing else. -/
def traitReference? (schema : Schema) : Expr → Option String
  | .binding name => if schema.isTrait name then some name else none
  | _ => none

/-- The arguments of a conjunction; a single list stands for its items. -/
def conjuncts : List Expr → List Expr
  | [.list items] => items
  | args => args

/-- The traits whose conjunction a condition is: none for the literal `true`, one for
a reference, several for a call of `and` or `all?`. -/
def requiredTraits? (schema : Schema) : Expr → Option NameSet
  | .literal (.bool true) => some ∅
  | .binding name => (schema.traitReference? (.binding name)).map fun n => NameSet.ofNames [n]
  | .call function args =>
    if function = "and" ∨ function = "all?" then
      ((conjuncts args).mapM schema.traitReference?).map NameSet.ofNames
    else none
  | _ => none

section Compile

variable (schema : Schema) (registry : Registry) (order : List String)

/-- The row of a case, if its condition is a conjunction of traits. -/
def row? (c : Case) : Option (Row Branch) :=
  (schema.requiredTraits? c.condition).map fun required =>
    { required := required
      resolver :=
        { description :=
            "row [" ++ String.intercalate ", " required.names ++ "] => " ++ c.result.render
          code := .ofExpr registry order c.result } }

/-- The row that fits when no case does. -/
def defaultRow (otherwise : Option Expr) : Row Branch where
  required := ∅
  resolver :=
    match otherwise with
    | some e => ⟨"default => " ++ e.render, .ofExpr registry order e⟩
    | none => ⟨"default => null", .literal .null⟩

/-- The decision table of a cascade with at least one case, if every condition is a
conjunction of traits. -/
def decisionTable? : Expr → Option (DecisionTable Branch)
  | .cascade [] _ => none
  | .cascade cases otherwise =>
    (cases.mapM (schema.row? registry order)).map fun rows =>
      ⟨rows ++ [defaultRow registry order otherwise]⟩
  | _ => none

/-- The slot of a name: from its last declaration, or one that cannot be evaluated
when there is nothing to compile. -/
def slot (name : String) : Slot :=
  match schema.find? name with
  | none => ⟨name, .attribute, "", .unresolved name, none⟩
  | some d =>
    match d.expression with
    | none => ⟨d.name, d.kind, "", .unresolved name, none⟩
    | some e =>
      { name := d.name
        kind := d.kind
        description := e.render
        code := .ofExpr registry order e
        table := if d.kind = .attribute then schema.decisionTable? registry order e else none }

end Compile

/-! ## Programs -/

/-- The program of an analyzed schema. -/
def program (schema : Schema) (registry : Registry) (analysis : Analysis) : Program :=
  ⟨analysis.order.map (schema.slot registry analysis.order), analysis⟩

/-- Analyze with passes of one's own choice, then compile. -/
def compileWith (schema : Schema) (passes : List Pass) (registry : Registry) :
    Except SemanticError Program :=
  (schema.analyzeWith passes registry).map (schema.program registry)

/-- Analyze with the standard passes, then compile. -/
def compile (schema : Schema) (registry : Registry) : Except SemanticError Program :=
  schema.compileWith Pass.standard registry

end Schema

end Rulebook
