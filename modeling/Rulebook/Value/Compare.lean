/-
# Comparison of values

The six comparison operators on values of any shape. Numbers are ordered across
the two numeric shapes and strings by code points; nothing else is ordered.
Equality never fails: values of different shapes are unequal, an integer and a
float are equal as numbers.
-/

import Rulebook.Value

namespace Rulebook

/-- The comparison operators. -/
inductive Comparison where
  | eq | ne | gt | ge | lt | le
  deriving DecidableEq

namespace Comparison

/-- The operator as it is written and registered. -/
def symbol : Comparison → String
  | .eq => "=="
  | .ne => "!="
  | .gt => ">"
  | .ge => ">="
  | .lt => "<"
  | .le => "<="

def all : List Comparison := [.eq, .ne, .gt, .ge, .lt, .le]

end Comparison

namespace Value

/-- The order of two values: numbers of either shape, or two strings. -/
def order? : Value → Value → Option Ordering
  | .int a, .int b => some (compare a.toInt b.toInt)
  | .float a, .float b => a.compare? b
  | .int a, .float b => (Binary64.ofInt a.toInt).compare? b
  | .float a, .int b => a.compare? (Binary64.ofInt b.toInt)
  | .string a, .string b => some (compare a b)
  | _, _ => none

/-- Equality across shapes: an integer equals a float that has its value. -/
def looselyEqual (a b : Value) : Bool :=
  match a, b with
  | .int _, .float _ => a.order? b == some .eq
  | .float _, .int _ => a.order? b == some .eq
  | _, _ => a.same b

/-- The verdict of an operator; `none` where an order is asked for and the two
values have none. -/
def compare? (op : Comparison) (a b : Value) : Option Bool :=
  match op with
  | .eq => some (a.looselyEqual b)
  | .ne => some (!a.looselyEqual b)
  | .gt => (a.order? b).map (· == .gt)
  | .ge => (a.order? b).map (· != .lt)
  | .lt => (a.order? b).map (· == .lt)
  | .le => (a.order? b).map (· != .gt)

end Value

end Rulebook
