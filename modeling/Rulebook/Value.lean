/-
# Values

The dynamic values that literals denote, contexts supply and functions return.
This module holds the type, structural equality, truth, the views of single
shapes and the text of a value; comparison of different shapes is in
`Rulebook.Value.Compare`.
-/

import Rulebook.Decimal.Shortest
import Rulebook.NameMap

namespace Rulebook

/-- A dynamic value. `null` is the explicit absence of a value, and the entries
of a map ascend strictly by name (`Value.Ordered`). -/
inductive Value where
  | null
  | bool (b : Bool)
  | int (i : Int64)
  | float (x : Binary64)
  | string (s : String)
  | list (items : List Value)
  | map (entries : List (String × Value))
  deriving Inhabited

namespace Value

/-- A map from entries in any order, the last of each name counting. -/
def ofEntries (entries : List (String × Value)) : Value := .map (Entries.ofList entries)

/-! ## Shapes -/

/-- Every map in the value, at any depth, has strictly ascending names. -/
inductive Ordered : Value → Prop where
  | null : Ordered .null
  | bool (b : Bool) : Ordered (.bool b)
  | int (i : Int64) : Ordered (.int i)
  | float (x : Binary64) : Ordered (.float x)
  | string (s : String) : Ordered (.string s)
  | list {items : List Value} : (∀ v ∈ items, Ordered v) → Ordered (.list items)
  | map {entries : List (String × Value)} : Entries.Ascending entries →
      (∀ e ∈ entries, Ordered e.2) → Ordered (.map entries)

/-- The name of the shape, as messages give it. -/
def typeName : Value → String
  | .null => "null"
  | .bool _ => "bool"
  | .int _ => "int"
  | .float _ => "float"
  | .string _ => "string"
  | .list _ => "list"
  | .map _ => "map"

/-- Everything but `null` and `false` counts as true. -/
def isTruthy : Value → Bool
  | .null => false
  | .bool b => b
  | _ => true

def isNull : Value → Bool
  | .null => true
  | _ => false

def asBool : Value → Option Bool
  | .bool b => some b
  | _ => none

theorem asBool_eq_some_iff {v : Value} {b : Bool} : v.asBool = some b ↔ v = .bool b := by
  cases v <;> simp [asBool]

def asInt : Value → Option Int64
  | .int i => some i
  | _ => none

/-- A number as a double; an integer is rounded to the nearest. -/
def asFloat : Value → Option Binary64
  | .int i => some (.ofInt i.toInt)
  | .float x => some x
  | _ => none

def asString : Value → Option String
  | .string s => some s
  | _ => none

theorem asString_eq_some_iff {v : Value} {s : String} : v.asString = some s ↔ v = .string s := by
  cases v <;> simp [asString]

def asList : Value → Option (List Value)
  | .list items => some items
  | _ => none

/-! ## Structural equality -/

mutual

/-- Equal shape and equal contents. Floats are compared as numbers, so a value
that holds a NaN differs from itself. -/
def same : Value → Value → Bool
  | .null, .null => true
  | .bool a, .bool b => a == b
  | .int a, .int b => a == b
  | .float a, .float b => a.same b
  | .string a, .string b => a == b
  | .list a, .list b => sameItems a b
  | .map a, .map b => sameEntries a b
  | _, _ => false

/-- Equal length and equal items, place by place. -/
def sameItems : List Value → List Value → Bool
  | [], [] => true
  | a :: as, b :: bs => same a b && sameItems as bs
  | _, _ => false

/-- Equal names and equal values, place by place. -/
def sameEntries : List (String × Value) → List (String × Value) → Bool
  | [], [] => true
  | (m, a) :: as, (n, b) :: bs => m == n && same a b && sameEntries as bs
  | _, _ => false

end

instance : BEq Value := ⟨same⟩

/-! ## Text -/

mutual

/-- The text of a value. Strings stand between quotes as they are; nothing in
them is escaped. -/
def render : Value → String
  | .null => "null"
  | .bool b => if b then "true" else "false"
  | .int i => toString i.toInt
  | .float x => x.render
  | .string s => "\"" ++ s ++ "\""
  | .list items => "[" ++ String.intercalate ", " (renderItems items) ++ "]"
  | .map entries => "\x7b" ++ String.intercalate ", " (renderEntries entries) ++ "\x7d"

/-- The texts of the items, in order. -/
def renderItems : List Value → List String
  | [] => []
  | v :: rest => render v :: renderItems rest

/-- The texts of the entries, names unquoted. -/
def renderEntries : List (String × Value) → List String
  | [] => []
  | (name, v) :: rest => (name ++ ": " ++ render v) :: renderEntries rest

end

instance : ToString Value := ⟨render⟩

/-- The text of a value inside running text: a string without quotes, nothing
for `null`. -/
def bareText : Value → String
  | .string s => s
  | .null => ""
  | v => v.render

end Value

end Rulebook
