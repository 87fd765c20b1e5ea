/-
# Builtin functions

The operators and functions every rulebook can count on: the six comparisons,
logic, arithmetic on integers and doubles, texts, and a conditional. Integer
arithmetic is exact or fails. A single list argument of the functions that take
any number of arguments stands for its items.
-/

import Rulebook.Integer
import Rulebook.Registry
import Rulebook.Text.LetterCase
import Rulebook.Value.Compare

namespace Rulebook.Builtin

/-- Why a builtin gave no value. -/
inductive Problem where
  /-- There is no argument at this place, counted from zero. -/
  | missingArgument (index : Nat)
  | comparisonArity (op : Comparison) (count : Nat)
  /-- Two shapes have no common order. -/
  | incomparable (left right : String) (op : Comparison)
  | notANumber (found : String)
  | integerOverflow
  | divisionByZero
  | lengthTooLarge
  | badLength (found : Value)

def Problem.message : Problem → String
  | .missingArgument index => s!"missing argument {index + 1}"
  | .comparisonArity op count => s!"'{op.symbol}' takes 2 arguments, got {count}"
  | .incomparable left right op => s!"cannot compare {left} with {right} using '{op.symbol}'"
  | .notANumber found => s!"expected a number, got {found}"
  | .integerOverflow => "integer overflow"
  | .divisionByZero => "division by zero"
  | .lengthTooLarge => "length does not fit in an integer"
  | .badLength found => s!"truncate length must be a non-negative int, got {found.render}"

/-- A builtin on its arguments. -/
abbrev Body := List Value → Except Problem Value

/-- The argument at a place, counted from zero. -/
def argument (args : List Value) (index : Nat) : Except Problem Value :=
  match args[index]? with
  | some value => .ok value
  | none => .error (.missingArgument index)

/-- A single list argument stands for its items. -/
def spread : List Value → List Value
  | [.list items] => items
  | args => args

/-! ## Comparison and logic -/

def comparison (op : Comparison) : Body
  | [a, b] =>
    match a.compare? op b with
    | some verdict => .ok (.bool verdict)
    | none => .error (.incomparable a.typeName b.typeName op)
  | args => .error (.comparisonArity op args.length)

def all : Body := fun args => .ok (.bool ((spread args).all Value.isTruthy))

def any : Body := fun args => .ok (.bool ((spread args).any Value.isTruthy))

/-- Whether the first argument is false, or there is none. -/
def not : Body := fun args =>
  .ok (.bool (match args with
    | [] => true
    | first :: _ => !first.isTruthy))

/-! ## Arithmetic -/

/-- A number of either shape. -/
inductive Number where
  | int (i : Int64)
  | float (x : Binary64)

def Number.ofValue : Value → Except Problem Number
  | .int i => .ok (.int i)
  | .float x => .ok (.float x)
  | v => .error (.notANumber v.typeName)

def Number.toValue : Number → Value
  | .int i => .int i
  | .float x => .float x

def Number.toBinary64 : Number → Binary64
  | .int i => .ofInt i.toInt
  | .float x => x

/-- Two integers are combined exactly; as soon as one side is a double, both are
taken as doubles. -/
def Number.combine (onInts : Int → Int → Int) (onFloats : Binary64 → Binary64 → Binary64) :
    Number → Number → Except Problem Number
  | .int a, .int b =>
    match checkedInt64 (onInts a.toInt b.toInt) with
    | some c => .ok (.int c)
    | none => .error .integerOverflow
  | a, b => .ok (.float (onFloats a.toBinary64 b.toBinary64))

/-- Combine numbers from left to right, stopping at the first problem. -/
def accumulate (start : Int64) (onInts : Int → Int → Int)
    (onFloats : Binary64 → Binary64 → Binary64) : Body := fun args => do
  let step (total : Number) (arg : Value) : Except Problem Number := do
    total.combine onInts onFloats (← Number.ofValue arg)
  return (← (spread args).foldlM step (.int start)).toValue

def add : Body := accumulate 0 (· + ·) (· + ·)

def multiply : Body := accumulate 1 (· * ·) (· * ·)

def subtract : Body := fun args => do
  let a ← Number.ofValue (← argument args 0)
  let b ← Number.ofValue (← argument args 1)
  return (← a.combine (· - ·) (· - ·) b).toValue

/-- Integers are divided toward zero. An integer zero divides nothing, not even a
double. -/
def divide : Body := fun args => do
  let a ← Number.ofValue (← argument args 0)
  let b ← Number.ofValue (← argument args 1)
  match b with
  | .int 0 => .error .divisionByZero
  | b => return (← a.combine Int.tdiv (· / ·) b).toValue

/-! ## Texts -/

def concatenate : Body := fun args =>
  .ok (.string (String.join ((spread args).map Value.bareText)))

def upcase : Body := fun args => do
  return .string (Text.upper (← argument args 0).bareText)

def downcase : Body := fun args => do
  return .string (Text.lower (← argument args 0).bareText)

def removeSpaces : Body := fun args => do
  return .string (String.ofList ((← argument args 0).bareText.toList.filter (· != ' ')))

/-- The number of items, of entries, or of characters. -/
def length : Body := fun args => do
  let size := match ← argument args 0 with
    | .list items => items.length
    | .map entries => entries.length
    | v => v.bareText.toList.length
  match checkedInt64 size with
  | some n => return .int n
  | none => .error .lengthTooLarge

/-- The first characters of a text. The length is looked at before the text. -/
def truncate : Body := fun args => do
  let limit ← argument args 1
  match limit with
  | .int n =>
    if 0 ≤ n.toInt then
      return .string (String.ofList ((← argument args 0).bareText.toList.take n.toInt.toNat))
    else .error (.badLength limit)
  | _ => .error (.badLength limit)

/-! ## Choice -/

/-- The second argument when the first is true, else the third. -/
def conditional : Body := fun args => do
  argument args (if (← argument args 0).isTruthy then 1 else 2)

/-! ## The table -/

/-- A builtin as it is registered. -/
def function (arity : Arity) (body : Body) : HostFunction :=
  ⟨arity, fun args => (body args).mapError fun problem => .reported problem.message⟩

/-- All builtins with their names. -/
def table : List (String × HostFunction) :=
  Comparison.all.map (fun op => (op.symbol, function (.exactly 2) (comparison op))) ++ [
    ("and", function .any all),
    ("all?", function .any all),
    ("or", function .any any),
    ("any?", function .any any),
    ("not", function (.exactly 1) not),
    ("add", function .any add),
    ("subtract", function (.exactly 2) subtract),
    ("multiply", function .any multiply),
    ("divide", function (.exactly 2) divide),
    ("concatenate", function .any concatenate),
    ("upcase", function (.exactly 1) upcase),
    ("downcase", function (.exactly 1) downcase),
    ("remove_spaces", function (.exactly 1) removeSpaces),
    ("length", function (.exactly 1) length),
    ("truncate", function (.exactly 2) truncate),
    ("conditional", function (.exactly 3) conditional)]

end Rulebook.Builtin

namespace Rulebook.Registry

/-- The registry that holds the builtins and nothing else. -/
def builtins : Registry := ⟨NameMap.ofList Builtin.table⟩

end Rulebook.Registry
