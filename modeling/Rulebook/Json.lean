/-
# JSON

JSON values and their text. Integers and doubles are kept apart, since readers
do; a double that is not finite has no JSON form and is written as `null`. The
forms of the library's own types are in `Rulebook.Json.Encode` and
`Rulebook.Json.Decode`.
-/

import Rulebook.Decimal.Shortest

namespace Rulebook

/-- A JSON value. -/
inductive Json where
  | null
  | bool (b : Bool)
  | int (n : Int)
  | float (x : Binary64)
  | string (s : String)
  | array (items : List Json)
  | object (members : List (String × Json))
  deriving Inhabited

namespace Json

/-- The member of an object. -/
def member? (name : String) : Json → Option Json
  | .object members => (members.find? (·.1 = name)).map (·.2)
  | _ => none

/-- The JSON form of a double. -/
def ofBinary64 (x : Binary64) : Json := if x.isFinite then .float x else .null

/-! ## Text -/

/-- One character inside a JSON string. -/
def escapeChar (c : Char) : List Char :=
  if c = '"' then ['\\', '"']
  else if c = '\\' then ['\\', '\\']
  else if c.toNat < 0x20 then
    ['\\', 'u', '0', '0', Nat.digitChar (c.toNat / 16), Nat.digitChar (c.toNat % 16)]
  else [c]

/-- A JSON string. -/
def renderString (s : String) : String :=
  "\"" ++ String.ofList (s.toList.flatMap escapeChar) ++ "\""

/-- A finite double, with a point even when it is integral. -/
def renderFloat (x : Binary64) : String :=
  let text := x.render
  if '.' ∈ text.toList then text else text ++ ".0"

mutual

/-- The text of a JSON value, without blanks. -/
def render : Json → String
  | .null => "null"
  | .bool b => if b then "true" else "false"
  | .int n => toString n
  | .float x => if x.isFinite then renderFloat x else "null"
  | .string s => renderString s
  | .array items => "[" ++ String.intercalate "," (renderItems items) ++ "]"
  | .object members => "\x7b" ++ String.intercalate "," (renderMembers members) ++ "\x7d"

/-- The texts of array items. -/
def renderItems : List Json → List String
  | [] => []
  | j :: rest => render j :: renderItems rest

/-- The texts of object members. -/
def renderMembers : List (String × Json) → List String
  | [] => []
  | (name, j) :: rest => (renderString name ++ ":" ++ render j) :: renderMembers rest

end

end Json

end Rulebook
