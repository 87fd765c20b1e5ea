/-
# Writing JSON

The JSON forms of values, expressions, declarations, schemas and explanations.
An alternative of a type is an object with one member, named for the
alternative; an alternative without contents is its bare name. A structure is an
object with a member for every field, `null` for what is absent.
-/

import Rulebook.Explanation
import Rulebook.Json

namespace Rulebook

/-- An alternative with its contents. -/
def Json.tagged (tag : String) (contents : Json) : Json := .object [(tag, contents)]

namespace Value

mutual

def toJson : Value → Json
  | .null => .string "Null"
  | .bool b => .tagged "Bool" (.bool b)
  | .int i => .tagged "Int" (.int i.toInt)
  | .float x => .tagged "Float" (.ofBinary64 x)
  | .string s => .tagged "String" (.string s)
  | .list items => .tagged "List" (.array (toJsonItems items))
  | .map entries => .tagged "Map" (.object (toJsonEntries entries))

/-- The JSON forms of list items. -/
def toJsonItems : List Value → List Json
  | [] => []
  | v :: rest => toJson v :: toJsonItems rest

/-- The JSON forms of map entries. -/
def toJsonEntries : List (String × Value) → List (String × Json)
  | [] => []
  | (name, v) :: rest => (name, toJson v) :: toJsonEntries rest

end

end Value

namespace Expr

mutual

def toJson : Expr → Json
  | .literal v => .tagged "Literal" v.toJson
  | .field name => .tagged "Field" (.string name)
  | .binding name => .tagged "Binding" (.string name)
  | .list items => .tagged "List" (.array (toJsonList items))
  | .call function args =>
    .tagged "Call" (.object [("function", .string function), ("args", .array (toJsonList args))])
  | .cascade cases none =>
    .tagged "Cascade" (.object [("cases", .array (toJsonCases cases)), ("default", .null)])
  | .cascade cases (some e) =>
    .tagged "Cascade" (.object [("cases", .array (toJsonCases cases)), ("default", toJson e)])

/-- The JSON forms of several expressions. -/
def toJsonList : List Expr → List Json
  | [] => []
  | e :: rest => toJson e :: toJsonList rest

/-- The JSON forms of the arms of a cascade. -/
def toJsonCases : List Case → List Json
  | [] => []
  | ⟨condition, result⟩ :: rest =>
    .object [("condition", toJson condition), ("result", toJson result)] :: toJsonCases rest

end

end Expr

def Case.toJson (c : Case) : Json :=
  .object [("condition", c.condition.toJson), ("result", c.result.toJson)]

def Kind.toJson : Kind → Json
  | .attribute => .string "Attribute"
  | .trait => .string "Trait"
  | .function => .string "Function"

def Location.toJson (l : Location) : Json :=
  .object [("file", .string l.file), ("line", .int l.line.toNat), ("column", .int l.column.toNat)]

def Declaration.toJson (d : Declaration) : Json :=
  .object [
    ("kind", d.kind.toJson),
    ("name", .string d.name),
    ("expression", match d.expression with
      | some e => e.toJson
      | none => .null),
    ("location", match d.location with
      | some l => l.toJson
      | none => .null)]

def Schema.toJson (s : Schema) : Json :=
  .object [
    ("attributes", .array (s.attributes.map (·.toJson))),
    ("traits", .array (s.traits.map (·.toJson))),
    ("functions", .array (s.functions.map (·.toJson)))]

namespace Explanation

mutual

def toJson : Explanation → Json
  | ⟨name, kind, value, resolver, dependencies⟩ =>
    .object [
      ("name", .string name),
      ("kind", kind.toJson),
      ("value", value.toJson),
      ("resolver", .string resolver),
      ("dependencies", .array (toJsonAll dependencies))]

/-- The JSON forms of several trees. -/
def toJsonAll : List Explanation → List Json
  | [] => []
  | t :: rest => toJson t :: toJsonAll rest

end

end Explanation

end Rulebook
