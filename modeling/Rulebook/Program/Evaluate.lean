/-
# Plain evaluation

A program evaluated without memory: a reference evaluates the slot it leads to,
as often as it is met. The slots being evaluated form a walk; meeting one of
them again is a fault, so every evaluation ends.
-/

import Rulebook.Program

namespace Rulebook

namespace Program

variable (p : Program) (ctx : Context)

/-- The value of a slot, inside the given walk of slots. -/
def resolve (walk : List Nat) (slot : Nat) : Except Fault Value :=
  match _ : p.slots[slot]? with
  | none => .error (.unresolvedBinding s!"#{slot}")
  | some entry =>
    if _ : slot ∈ walk then .error (p.cycleFault walk slot)
    else entry.code.eval ctx fun next => resolve (slot :: walk) next
termination_by nodesLeft (List.range p.size) walk
decreasing_by
  exact nodesLeft_cons_lt (List.mem_range.2 (List.getElem?_eq_some_iff.1 ‹_›).1) ‹_›

theorem resolve_of_none {walk : List Nat} {slot : Nat} (h : p.slots[slot]? = none) :
    p.resolve ctx walk slot = .error (.unresolvedBinding s!"#{slot}") := by
  rw [resolve]
  split
  · rfl
  · simp_all

theorem resolve_of_mem {walk : List Nat} {slot : Nat} {entry : Slot}
    (h : p.slots[slot]? = some entry) (hwalk : slot ∈ walk) :
    p.resolve ctx walk slot = .error (p.cycleFault walk slot) := by
  rw [resolve]
  split
  · simp_all
  · simp [hwalk]

theorem resolve_of_not_mem {walk : List Nat} {slot : Nat} {entry : Slot}
    (h : p.slots[slot]? = some entry) (hwalk : slot ∉ walk) :
    p.resolve ctx walk slot = entry.code.eval ctx (p.resolve ctx (slot :: walk)) := by
  rw [resolve]
  split
  · simp_all
  · rename_i hentry
    cases h.symm.trans hentry
    simp [hwalk]

/-- The names and values of the slots of the kinds asked for, in execution order, up
to the first fault. -/
def evaluateWhere (select : Kind → Bool) : Except Fault (List (Slot × Value)) :=
  (p.slots.zipIdx.filter fun (entry, _) => select entry.kind).mapM fun (entry, slot) => do
    return (entry, ← p.resolve ctx [] slot)

end Program

/-! ## Results -/

/-- The values of all names of a program, by kind. -/
structure Evaluation where
  traits : NameMap Value
  attributes : NameMap Value
  functions : NameMap Value

namespace Evaluation

instance : EmptyCollection Evaluation := ⟨⟨∅, ∅, ∅⟩⟩

/-- Put in the value of a name of some kind. -/
def insert (e : Evaluation) (kind : Kind) (name : String) (value : Value) : Evaluation :=
  match kind with
  | .trait => { e with traits := e.traits.insert name value }
  | .attribute => { e with attributes := e.attributes.insert name value }
  | .function => { e with functions := e.functions.insert name value }

/-- The value of a name of any kind; a trait before an attribute before a function. -/
def find? (e : Evaluation) (name : String) : Option Value :=
  e.traits.find? name <|> e.attributes.find? name <|> e.functions.find? name

end Evaluation

namespace Program

variable (p : Program) (ctx : Context)

/-- Evaluate everything. -/
def evaluate : Except Fault Evaluation := do
  ctx.check
  let values ← p.evaluateWhere ctx fun _ => true
  return values.foldl (fun e (entry, value) => e.insert entry.kind entry.name value) ∅

/-- Evaluate the names of one kind. -/
def evaluateKind (kind : Kind) : Except Fault (NameMap Value) := do
  ctx.check
  let values ← p.evaluateWhere ctx (· = kind)
  return NameMap.ofList (values.map fun (entry, value) => (entry.name, value))

/-- Evaluate one name. An unknown name is reported before anything about the
context. -/
def evaluateBinding (name : String) : Except Fault Value := do
  let slot ← p.slotOf name
  ctx.check
  p.resolve ctx [] slot

end Program

end Rulebook
