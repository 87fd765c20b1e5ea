/-
# Programs

A compiled schema: one slot for every name of an execution order, holding the
code of its expression. References are slot numbers, functions are attached to
their calls, and attributes that only depend on which traits hold have a
decision table beside their code. Code is data; what it means is given here by
one interpreter that asks its surroundings for the values of other slots.
-/

import Rulebook.Analysis
import Rulebook.Context
import Rulebook.DecisionTable
import Rulebook.Registry
import Rulebook.Schema
import Rulebook.Walk

namespace Rulebook

/-! ## Code -/

/-- A compiled expression. -/
inductive Code where
  | literal (value : Value)
  | field (name : String)
  /-- The value of another slot. -/
  | slot (index : Nat)
  /-- A reference to a name that has no slot. -/
  | unresolved (name : String)
  | list (items : List Code)
  /-- A call; the body is missing if no such function is registered. -/
  | call (function : String) (body : Option Callable) (args : List Code)
  | cascade (arms : List (Code × Code)) (otherwise : Option Code)

namespace Code

/-- Apply a function; a failure of any kind becomes a fault of the call. -/
def invoke (function : String) (body : Callable) (args : List Value) : Except Fault Value :=
  match body args with
  | .ok value => .ok value
  | .error failure => .error (.call function failure.message)

section Eval

variable {m : Type → Type} [Monad m] [MonadExceptOf Fault m]
variable (ctx : Context) (ask : Nat → m Value)

mutual

/-- The value of code in a context. Parts are evaluated from left to right up to the
first fault, a cascade no further than its first true condition; `ask` answers
for other slots. -/
def eval : Code → m Value
  | .literal value => pure value
  | .field name =>
    match ctx.find? name with
    | some value => pure value
    | none => throw (.missingField name ctx.keys)
  | .slot index => ask index
  | .unresolved name => throw (.unresolvedBinding name)
  | .list items => do return .list (← evalList items)
  | .call function none args => do
    let _ ← evalList args
    throw (.unknownFunction function)
  | .call function (some body) args => do
    liftExcept (invoke function body (← evalList args))
  | .cascade arms none => do
    match ← evalArms arms with
    | some value => return value
    | none => return .null
  | .cascade arms (some e) => do
    match ← evalArms arms with
    | some value => return value
    | none => eval e

/-- The values of several pieces of code. -/
def evalList : List Code → m (List Value)
  | [] => pure []
  | e :: rest => do
    let value ← eval e
    let values ← evalList rest
    return value :: values

/-- The result of the first arm whose condition is true, if there is one. -/
def evalArms : List (Code × Code) → m (Option Value)
  | [] => pure none
  | (condition, result) :: rest => do
    if (← eval condition).isTruthy then return some (← eval result) else evalArms rest

end

end Eval

end Code

/-! ## Slots -/

/-- What resolves an attribute when its row of a decision table is picked. -/
structure Branch where
  description : String
  code : Code

/-- One compiled name. -/
structure Slot where
  name : String
  kind : Kind
  /-- The text of the expression. -/
  description : String
  code : Code
  /-- Only for attributes whose cascade asks for nothing but traits. -/
  table : Option (DecisionTable Branch)

/-- The last position of a name in a list of names. -/
def lastPosition? (name : String) : List String → Option Nat
  | [] => none
  | n :: rest =>
    match lastPosition? name rest with
    | some position => some (position + 1)
    | none => if n = name then some 0 else none

/-- A compiled schema. Slots stand in execution order. -/
structure Program where
  slots : List Slot
  analysis : Analysis

namespace Program

variable (p : Program)

def size : Nat := p.slots.length

def isEmpty : Bool := p.slots.isEmpty

/-- The compiled names in execution order. -/
def executionOrder : List String := p.slots.map (·.name)

/-- The slot of a name; the last one if the name is repeated. -/
def slotOf? (name : String) : Option Nat := lastPosition? name p.executionOrder

/-- The slot of a name that has to be there. -/
def slotOf (name : String) : Except Fault Nat :=
  match p.slotOf? name with
  | some slot => .ok slot
  | none => .error (.unknownBinding name)

/-- The compiled entry of a name. -/
def find? (name : String) : Option Slot := (p.slotOf? name).bind fun slot => p.slots[slot]?

def kindOf? (name : String) : Option Kind := (p.find? name).map (·.kind)

/-- Whether a name resolves through a decision table in a session. -/
def hasDecisionTable (name : String) : Bool :=
  match p.find? name with
  | some slot => slot.table.isSome
  | none => false

/-- The slots that hold traits, ascending. -/
def traitSlots : List Nat :=
  (List.range p.size).filter fun slot =>
    match p.slots[slot]? with
    | some entry => entry.kind = .trait
    | none => false

/-- The name of a slot, for messages. -/
def slotName (slot : Nat) : String :=
  match p.slots[slot]? with
  | some entry => entry.name
  | none => s!"#{slot}"

/-- The fault of needing a slot while being inside it, newest slot first. -/
def cycleFault (walk : List Nat) (slot : Nat) : Fault :=
  .cycle ((closedPath walk slot).map p.slotName)

/-! ## Text -/

def countOf (kind : Kind) : Nat := p.slots.countP fun slot => slot.kind = kind

/-- How many names of each kind there are. -/
def summary : String :=
  s!"ExecutableSchema({p.countOf .trait} traits, {p.countOf .attribute} attributes, " ++
    s!"{p.countOf .function} functions)"

/-- An outline that shows the names alone. -/
def outline : String :=
  "ExecutableSchema \x7b bindings: " ++ Text.quotedList p.executionOrder ++ ", .. \x7d"

end Program

end Rulebook
