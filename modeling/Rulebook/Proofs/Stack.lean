/-
# Evaluation on one stack

Plain evaluation carries the walk that it is inside of along as an argument. Here it is run
on a stack in its state: a slot is put on the stack before its code is run and taken off
afterwards, whatever came of it, and a whole evaluation has one stack for all its slots. So
it is a theorem, and not a matter of how evaluation is written down, that no slot finds on the
stack what an earlier one left there: evaluation gives the stack back as it was, also where it
stops with a fault, and the outcome is that inside the walk which the stack holds. No slot is
ever put on a stack that it is on already, and a cycle is told from the first place of its slot.
-/

import Rulebook.Proofs.Dependence
import Rulebook.Proofs.WholeEvaluation

namespace Rulebook

/-! ## The stack -/

namespace Program

variable (p : Program) (ctx : Context)

/-- The value of a slot, on the stack of the slots that are being evaluated, of which the
last was entered last. Entering a slot takes one from the budget. -/
def resolveOn : Nat → Nat → ExceptT Fault (StateT (List Nat) Option) Value
  | 0, _ => fun _ => none
  | budget + 1, slot => fun stack =>
    match p.slots[slot]? with
    | none => some (.error (.unresolvedBinding s!"#{slot}"), stack)
    | some entry =>
      if slot ∈ stack then some (.error (.cycle ((closedSlice stack slot).map p.slotName)), stack)
      else
        ((entry.code.eval ctx (resolveOn budget)).run.run (stack ++ [slot])).map
          fun (outcome, stack) => (outcome, stack.dropLast)

/-- The slots of the kinds asked for with their values, one after the other on one stack, up
to the first fault; the budget is one more than there are slots. -/
def evaluateOn (select : Kind → Bool) :
    ExceptT Fault (StateT (List Nat) Option) (List (Slot × Value)) :=
  (p.slots.zipIdx.filter fun (entry, _) => select entry.kind).mapM fun (entry, slot) => do
    return (entry, ← p.resolveOn ctx (p.size + 1) slot)

variable {p ctx} {stack : List Nat} {slot : Nat}

theorem resolveOn_of_none (h : p.slots[slot]? = none) (budget : Nat) :
    (p.resolveOn ctx (budget + 1) slot).run.run stack =
      some (.error (.unresolvedBinding s!"#{slot}"), stack) := by
  simp [resolveOn, ExceptT.run, StateT.run, h]

variable {entry : Slot} (h : p.slots[slot]? = some entry)

include h

theorem resolveOn_of_mem (hstack : slot ∈ stack) (budget : Nat) :
    (p.resolveOn ctx (budget + 1) slot).run.run stack =
      some (.error (.cycle ((closedSlice stack slot).map p.slotName)), stack) := by
  simp [resolveOn, ExceptT.run, StateT.run, h, hstack]

theorem resolveOn_of_not_mem (hstack : slot ∉ stack) (budget : Nat) :
    (p.resolveOn ctx (budget + 1) slot).run.run stack =
      ((entry.code.eval ctx (p.resolveOn ctx budget)).run.run (stack ++ [slot])).map
        fun (outcome, stack) => (outcome, stack.dropLast) := by
  simp [resolveOn, ExceptT.run, StateT.run, h, hstack]

end Program

namespace Coupling

/-- A computation comes to the outcome and leaves the stack as it was. -/
def restores (stack : List Nat) :
    Coupling (ExceptT Fault (StateT (List Nat) Option)) (Except Fault) where
  Rel x y := x.run.run stack = some (y, stack)
  pure _ := rfl
  bind {_ _ x y f g} hx hf := by
    rw [ExceptT.run_bind, StateT.run_bind, hx]
    cases y with
    | error fault => rfl
    | ok a => exact hf a

end Coupling

/-! ## The walk on the stack -/

namespace Schema.Compiled

variable {schema : Schema} {registry : Registry} {p : Program} {ctx : Context}
  (h : schema.Compiled registry p)

include h

/-- On the stack of a walk without repetitions, a slot resolves as it does inside the walk,
and the stack is what it was. -/
theorem restores_resolveOn {budget : Nat} {walk : List Nat} (hwalk : walk.Nodup)
    (hbudget : nodesLeft (List.range p.size) walk < budget) (slot : Nat) :
    (Coupling.restores walk.reverse).Rel (p.resolveOn ctx budget slot)
      (p.resolve ctx walk slot) := by
  induction budget generalizing walk slot with
  | zero => exact absurd hbudget (Nat.not_lt_zero _)
  | succ budget ih =>
      cases hentry : p.slots[slot]? with
      | none =>
          rw [p.resolve_of_none ctx hentry]
          exact Program.resolveOn_of_none hentry budget
      | some entry =>
          by_cases hmem : slot ∈ walk
          · rw [p.resolve_of_mem ctx hentry hmem, Program.cycleFault,
              ← closedSlice_reverse hwalk hmem]
            exact Program.resolveOn_of_mem hentry (List.mem_reverse.2 hmem) budget
          · have hsize : slot ∈ List.range p.size :=
              List.mem_range.2 (List.getElem?_eq_some_iff.1 hentry).1
            have hless := nodesLeft_cons_lt_of_lt_succ hbudget hsize hmem
            -- Inside the slot, the stack is that of the longer walk.
            have hcode : (Coupling.restores (slot :: walk).reverse).Rel
                (entry.code.eval ctx (p.resolveOn ctx budget))
                (entry.code.eval ctx (p.resolve ctx (slot :: walk))) :=
              h.coupled_code _ ctx (fun _ _ => rfl) hentry fun next _ =>
                ih (List.nodup_cons.2 ⟨hmem, hwalk⟩) hless next
            have hpop : (slot :: walk).reverse.dropLast = walk.reverse := by
              rw [List.reverse_cons, List.dropLast_concat]
            rw [p.resolve_of_not_mem ctx hentry hmem]
            show (p.resolveOn ctx (budget + 1) slot).run.run walk.reverse = _
            rw [Program.resolveOn_of_not_mem hentry (mt List.mem_reverse.1 hmem),
              ← List.reverse_cons, hcode]
            exact congrArg (fun stack => some (_, stack)) hpop

/-- A whole evaluation on one stack, which is empty in the beginning, comes to what it comes
to with a walk of its own for each slot, and the stack is empty in the end. -/
theorem restores_evaluateOn (select : Kind → Bool) :
    (Coupling.restores []).Rel (p.evaluateOn ctx select) (p.evaluateWhere ctx select) := by
  have hbudget : nodesLeft (List.range p.size) [] < p.size + 1 := by simp
  apply Coupling.mapM
  rintro ⟨entry, slot⟩ -
  exact (Coupling.restores []).bind (h.restores_resolveOn List.nodup_nil hbudget slot)
    fun value => (Coupling.restores []).pure (entry, value)

end Schema.Compiled

end Rulebook
