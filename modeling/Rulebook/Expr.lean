/-
# Expressions

The expression trees that declarations carry. The set of forms is closed:
literals, fields of the context, references to other declarations, lists, calls
of registered functions, and cascades, whose first true condition decides. This
module holds the type, its parts in evaluation order, structural equality, the
shorthands that build calls, and the text of an expression.
-/

import Rulebook.Value.Compare

namespace Rulebook

mutual

/-- An expression tree. -/
inductive Expr where
  /-- A value as it stands. -/
  | literal (value : Value)
  /-- The value that the context has under a key. -/
  | field (name : String)
  /-- The value of another declaration. -/
  | binding (name : String)
  | list (items : List Expr)
  /-- A registered function or operator applied to arguments. -/
  | call (function : String) (args : List Expr)
  /-- The result of the first case whose condition is true, `otherwise` when there
  is none. -/
  | cascade (cases : List Case) (otherwise : Option Expr)

/-- One arm of a cascade. -/
structure Case where
  condition : Expr
  result : Expr

end

namespace Expr

instance : Inhabited Expr := ⟨.literal .null⟩

/-! ## Parts -/

/-- The parts directly below an expression, in evaluation order: a condition
before its result, the default last. -/
def children : Expr → List Expr
  | .literal _ | .field _ | .binding _ => []
  | .list items => items
  | .call _ args => args
  | .cascade cases otherwise =>
    cases.flatMap (fun c => [c.condition, c.result]) ++ otherwise.toList

def isCall : Expr → Bool
  | .call _ _ => true
  | _ => false

mutual

/-- Every node of the tree, a node before the nodes below it. -/
def nodes : Expr → List Expr
  | .literal v => [.literal v]
  | .field name => [.field name]
  | .binding name => [.binding name]
  | .list items => .list items :: nodesOfList items
  | .call function args => .call function args :: nodesOfList args
  | .cascade cases none => .cascade cases none :: nodesOfCases cases
  | .cascade cases (some e) => .cascade cases (some e) :: (nodesOfCases cases ++ nodes e)

/-- The nodes of several trees, one tree after the other. -/
def nodesOfList : List Expr → List Expr
  | [] => []
  | e :: rest => nodes e ++ nodesOfList rest

/-- The nodes of the arms of a cascade. -/
def nodesOfCases : List Case → List Expr
  | [] => []
  | ⟨condition, result⟩ :: rest => nodes condition ++ nodes result ++ nodesOfCases rest

end

/-! ## Structural equality -/

mutual

/-- Equal form and equal parts, literals by `Value.same`. -/
def same : Expr → Expr → Bool
  | .literal v, .literal w => v.same w
  | .field m, .field n => m == n
  | .binding m, .binding n => m == n
  | .list as, .list bs => sameList as bs
  | .call f as, .call g bs => f == g && sameList as bs
  | .cascade cs none, .cascade ds none => sameCases cs ds
  | .cascade cs (some a), .cascade ds (some b) => sameCases cs ds && same a b
  | _, _ => false

/-- Equal length and equal items, place by place. -/
def sameList : List Expr → List Expr → Bool
  | [], [] => true
  | a :: as, b :: bs => same a b && sameList as bs
  | _, _ => false

/-- Equal length and equal arms, place by place. -/
def sameCases : List Case → List Case → Bool
  | [], [] => true
  | ⟨c, r⟩ :: cs, ⟨d, s⟩ :: ds => same c d && same r s && sameCases cs ds
  | _, _ => false

end

instance : BEq Expr := ⟨same⟩

/-! ## Shorthands -/

/-- Compare the value of an expression with a fixed value. -/
def comparedWith (e : Expr) (op : Comparison) (v : Value) : Expr :=
  .call op.symbol [e, .literal v]

/-- Both hold. -/
def both (a b : Expr) : Expr := .call "and" [a, b]

/-- At least one holds. -/
def either (a b : Expr) : Expr := .call "or" [a, b]

/-- It does not hold. -/
def negated (e : Expr) : Expr := .call "not" [e]

/-! ## Text -/

mutual

/-- The text of an expression. -/
def render : Expr → String
  | .literal v => v.render
  | .field name => "field:" ++ name
  | .binding name => "ref:" ++ name
  | .list items => "[" ++ String.intercalate ", " (renderList items) ++ "]"
  | .call function args => function ++ "(" ++ String.intercalate ", " (renderList args) ++ ")"
  | .cascade cases none => "cascade \x7b" ++ renderCases cases ++ " \x7d"
  | .cascade cases (some e) =>
    "cascade \x7b" ++ renderCases cases ++ " default => " ++ render e ++ "; \x7d"

/-- The texts of several expressions. -/
def renderList : List Expr → List String
  | [] => []
  | e :: rest => render e :: renderList rest

/-- The arms of a cascade, each behind a space and closed by a semicolon. -/
def renderCases : List Case → String
  | [] => ""
  | ⟨condition, result⟩ :: rest =>
    " on " ++ render condition ++ " => " ++ render result ++ ";" ++ renderCases rest

end

instance : ToString Expr := ⟨render⟩

end Expr

end Rulebook
