/-
# Reading JSON

Readers for the forms that `Rulebook.Json.Encode` writes. They take what any
writer of such forms may send: the members of a structure in any order and
further members beside them, an absent member for an optional field, a structure
as an array of its fields, a bare alternative as a member that is `null`. The
fields of a call and of a cascade have to be named, since they belong to an
alternative of a type and not to a structure. An integer has to fit its type and
a number with a point is no integer.
-/

import Rulebook.Integer
import Rulebook.Json
import Rulebook.Schema

namespace Rulebook

namespace Json

def string? : Json → Option String
  | .string s => some s
  | _ => none

def int? : Json → Option Int
  | .int n => some n
  | _ => none

/-- A number of thirty-two bits without a sign. -/
def uint32? : Json → Option UInt32
  | .int n => if 0 ≤ n ∧ n < 4294967296 then some (UInt32.ofNat n.toNat) else none
  | _ => none

/-- Read what is there; `null` and nothing are both the absence of a value. -/
def optional {α : Type} (read : Json → Option α) : Option Json → Option (Option α)
  | none => some none
  | some .null => some none
  | some j => (read j).map some

/-- Read a list with one reader for all its items. -/
def listOf {α : Type} (read : Json → Option α) : Json → Option (List α)
  | .array items => items.mapM read
  | _ => none

/-- The fields of a structure, by their names in an object or by their places in an
array of the same length. -/
def fields? (names : List String) : Json → Option (List (Option Json))
  | .object members => some (names.map fun name => (Json.object members).member? name)
  | .array items => if items.length = names.length then some (items.map some) else none
  | _ => none

end Json

/-! ## Values -/

namespace Value

mutual

def ofJson? : Json → Option Value
  | .string "Null" => some .null
  | .object [("Null", .null)] => some .null
  | .object [("Bool", .bool b)] => some (.bool b)
  | .object [("Int", .int n)] => (checkedInt64 n).map .int
  | .object [("Float", .int n)] => some (.float (.ofInt n))
  | .object [("Float", .float x)] => some (.float x)
  | .object [("String", .string s)] => some (.string s)
  | .object [("List", .array items)] => (ofJsonItems? items).map .list
  | .object [("Map", .object members)] => (ofJsonMembers? members).map ofEntries
  | _ => none

/-- Read list items. -/
def ofJsonItems? : List Json → Option (List Value)
  | [] => some []
  | j :: rest => do
    let v ← ofJson? j
    let values ← ofJsonItems? rest
    return v :: values

/-- Read map entries. -/
def ofJsonMembers? : List (String × Json) → Option (List (String × Value))
  | [] => some []
  | (name, j) :: rest => do
    let v ← ofJson? j
    let entries ← ofJsonMembers? rest
    return (name, v) :: entries

end

end Value

/-! ## Expressions -/

namespace Expr

/-- The fields of a call or a cascade that were among the members of an object. -/
structure Parts where
  name : Option String
  items : Option (List Expr)
  cases : Option (List Case)
  otherwise : Option Expr

/-- The two fields of an arm that were among the members of an object. -/
structure ArmParts where
  condition : Option Expr
  result : Option Expr

mutual

def ofJson? : Json → Option Expr
  | .object [("Literal", j)] => (Value.ofJson? j).map .literal
  | .object [("Field", .string name)] => some (.field name)
  | .object [("Binding", .string name)] => some (.binding name)
  | .object [("List", .array items)] => (ofJsonList? items).map .list
  | .object [("Call", .object members)] => do
    let parts ← callParts? members
    return .call (← parts.name) (← parts.items)
  | .object [("Cascade", .object members)] => do
    let parts ← cascadeParts? members
    return .cascade (← parts.cases) parts.otherwise
  | _ => none

/-- Read several expressions. -/
def ofJsonList? : List Json → Option (List Expr)
  | [] => some []
  | j :: rest => do
    let e ← ofJson? j
    let es ← ofJsonList? rest
    return e :: es

/-- The fields of a call among the members of an object. -/
def callParts? : List (String × Json) → Option Parts
  | [] => some ⟨none, none, none, none⟩
  | (name, j) :: rest => do
    let parts ← callParts? rest
    if name = "function" then
      match j with
      | .string function => return { parts with name := some function }
      | _ => none
    else if name = "args" then
      match j with
      | .array args => return { parts with items := some (← ofJsonList? args) }
      | _ => none
    else return parts

/-- The fields of a cascade among the members of an object. -/
def cascadeParts? : List (String × Json) → Option Parts
  | [] => some ⟨none, none, none, none⟩
  | (name, j) :: rest => do
    let parts ← cascadeParts? rest
    if name = "cases" then
      match j with
      | .array cases => return { parts with cases := some (← ofJsonCases? cases) }
      | _ => none
    else if name = "default" then
      match j with
      | .null => return { parts with otherwise := none }
      | j => return { parts with otherwise := some (← ofJson? j) }
    else return parts

/-- Read the arms of a cascade. -/
def ofJsonCases? : List Json → Option (List Case)
  | [] => some []
  | .object members :: rest => do
    let parts ← armParts? members
    let cases ← ofJsonCases? rest
    return ⟨← parts.condition, ← parts.result⟩ :: cases
  | .array [condition, result] :: rest => do
    let c ← ofJson? condition
    let r ← ofJson? result
    let cases ← ofJsonCases? rest
    return ⟨c, r⟩ :: cases
  | _ :: _ => none

/-- The fields of an arm among the members of an object. -/
def armParts? : List (String × Json) → Option ArmParts
  | [] => some ⟨none, none⟩
  | (name, j) :: rest => do
    let parts ← armParts? rest
    if name = "condition" then return { parts with condition := some (← ofJson? j) }
    else if name = "result" then return { parts with result := some (← ofJson? j) }
    else return parts

end

end Expr

/-- Read one arm of a cascade. -/
def Case.ofJson? (j : Json) : Option Case := do
  match ← Expr.ofJsonCases? [j] with
  | [c] => return c
  | _ => none

/-! ## Declarations -/

def Kind.ofJson? : Json → Option Kind
  | .string "Attribute" | .object [("Attribute", .null)] => some .attribute
  | .string "Trait" | .object [("Trait", .null)] => some .trait
  | .string "Function" | .object [("Function", .null)] => some .function
  | _ => none

def Location.ofJson? (j : Json) : Option Location := do
  match ← j.fields? ["file", "line", "column"] with
  | [some file, some line, some column] =>
    return ⟨← file.string?, ← line.uint32?, ← column.uint32?⟩
  | _ => none

def Declaration.ofJson? (j : Json) : Option Declaration := do
  match ← j.fields? ["kind", "name", "expression", "location"] with
  | [some kind, some name, expression, location] =>
    return ⟨← Kind.ofJson? kind, ← name.string?, ← Json.optional Expr.ofJson? expression,
      ← Json.optional Location.ofJson? location⟩
  | _ => none

def Schema.ofJson? (j : Json) : Option Schema := do
  match ← j.fields? ["attributes", "traits", "functions"] with
  | [some attributes, some traits, some functions] =>
    return ⟨← Json.listOf Declaration.ofJson? attributes, ← Json.listOf Declaration.ofJson? traits,
      ← Json.listOf Declaration.ofJson? functions⟩
  | _ => none

end Rulebook
