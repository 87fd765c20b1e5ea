/-
# Sessions

Evaluation with memory, over one context. A session evaluates a slot at most
once, remembers how it got the value, and can tell it as a tree. Attributes with
a decision table resolve through the table, by the set of traits that hold. What
was remembered before a fault stays remembered after it.
-/

import Rulebook.Explanation
import Rulebook.Program.Evaluate

namespace Rulebook

/-! ## Memory -/

/-- What is remembered of one slot: its value, what gave it, and the slots it
consulted, each once, in the order of first use. -/
structure Derivation where
  slot : Nat
  value : Value
  resolver : String
  consulted : List Nat

/-- What a session remembers, newest first. A derivation consults older ones only. -/
abbrev Memo := List Derivation

namespace Memo

/-- What is remembered of a slot. -/
def entry? (memo : Memo) (slot : Nat) : Option Derivation := memo.find? (·.slot = slot)

/-- The tree of what is remembered of a slot. -/
def explanation? (p : Program) : Memo → Nat → Option Explanation
  | [], _ => none
  | d :: older, slot =>
    if d.slot = slot then
      (p.slots[slot]?).map fun entry =>
        ⟨entry.name, entry.kind, d.value, d.resolver,
          d.consulted.filterMap fun dependency => explanation? p older dependency⟩
    else explanation? p older slot

end Memo

/-! ## Evaluation of a slot -/

/-- A slot being evaluated: the memory so far, and the slots it has consulted. -/
structure Progress where
  memo : Memo
  consulted : List Nat

namespace Progress

/-- Take down that a slot was consulted. -/
def note (progress : Progress) (slot : Nat) : Progress :=
  if slot ∈ progress.consulted then progress
  else { progress with consulted := progress.consulted ++ [slot] }

/-- Ask for the value of another slot: take it down, then look it up. -/
def ask (lookUp : Nat → Memo → Except Fault Value × Memo) (slot : Nat) :
    ExceptT Fault (StateM Progress) Value := fun progress =>
  let progress := progress.note slot
  let (outcome, memo) := lookUp slot progress.memo
  (outcome, { progress with memo := memo })

/-- End the evaluation of a slot: a value is remembered with what it took to get it,
a fault leaves what was remembered on the way. -/
def finish (slot : Nat) : Except Fault (Value × String) × Progress → Except Fault Value × Memo
  | (.ok (value, resolver), progress) =>
    (.ok value, ⟨slot, value, resolver, progress.consulted⟩ :: progress.memo)
  | (.error fault, progress) => (.error fault, progress.memo)

end Progress

namespace Program

variable (p : Program) (ctx : Context)

section Derive

variable {m : Type → Type} [Monad m] [MonadExceptOf Fault m] (ask : Nat → m Value)

/-- The traits that hold, asked for in execution order. -/
def satisfied : m NameSet :=
  p.traitSlots.foldlM
    (fun names slot => do
      return if (← ask slot).isTruthy then names.add (p.slotName slot) else names)
    ∅

/-- The value of a slot and the text of what gave it: the row of its table that fits
the traits that hold, or its code. -/
def derive (entry : Slot) : m (Value × String) :=
  match entry.table with
  | some table => do
    let row ← liftExcept (table.pickRow (← p.satisfied ask))
    return (← row.resolver.code.eval ctx ask, row.resolver.description)
  | none => do
    return (← entry.code.eval ctx ask, entry.description)

end Derive

/-- The value of a slot, from memory or by evaluating it inside the given walk of
slots; and the memory afterwards. -/
def resolveWith (walk : List Nat) (slot : Nat) (memo : Memo) : Except Fault Value × Memo :=
  match memo.entry? slot with
  | some d => (.ok d.value, memo)
  | none =>
    match _ : p.slots[slot]? with
    | none => (.error (.unresolvedBinding s!"#{slot}"), memo)
    | some entry =>
      if _ : slot ∈ walk then (.error (p.cycleFault walk slot), memo)
      else
        let lookUp (next : Nat) (memo : Memo) := resolveWith (slot :: walk) next memo
        Progress.finish slot ((p.derive ctx (Progress.ask lookUp) entry).run ⟨memo, []⟩)
termination_by nodesLeft (List.range p.size) walk
decreasing_by
  exact nodesLeft_cons_lt (List.mem_range.2 (List.getElem?_eq_some_iff.1 ‹_›).1) ‹_›

variable {p ctx} {walk : List Nat} {slot : Nat} {memo : Memo}

theorem resolveWith_of_entry {d : Derivation} (h : memo.entry? slot = some d) :
    p.resolveWith ctx walk slot memo = (.ok d.value, memo) := by
  rw [resolveWith, h]

theorem resolveWith_of_none (hnew : memo.entry? slot = none) (hslot : p.slots[slot]? = none) :
    p.resolveWith ctx walk slot memo = (.error (.unresolvedBinding s!"#{slot}"), memo) := by
  rw [resolveWith, hnew]
  simp only
  split
  · rfl
  · simp_all

theorem resolveWith_of_mem {entry : Slot} (hnew : memo.entry? slot = none)
    (hslot : p.slots[slot]? = some entry) (hwalk : slot ∈ walk) :
    p.resolveWith ctx walk slot memo = (.error (p.cycleFault walk slot), memo) := by
  rw [resolveWith, hnew]
  simp only
  split
  · simp_all
  · simp [hwalk]

theorem resolveWith_of_not_mem {entry : Slot} (hnew : memo.entry? slot = none)
    (hslot : p.slots[slot]? = some entry) (hwalk : slot ∉ walk) :
    p.resolveWith ctx walk slot memo =
      let ask := Progress.ask (p.resolveWith ctx (slot :: walk))
      Progress.finish slot ((p.derive ctx ask entry).run ⟨memo, []⟩) := by
  rw [resolveWith, hnew]
  simp only
  split
  · simp_all
  · rename_i hentry
    cases hslot.symm.trans hentry
    simp [hwalk]

/-- What holds where a slot is remembered, is missing or closes a cycle, and holds of a
slot to be evaluated as soon as it holds of all slots inside of it, holds always. -/
theorem resolveWith_induction {P : List Nat → Nat → Memo → Except Fault Value × Memo → Prop}
    (remembered : ∀ walk slot memo d, Memo.entry? memo slot = some d →
      P walk slot memo (.ok d.value, memo))
    (missing : ∀ walk slot memo, p.slots[slot]? = none →
      P walk slot memo (.error (.unresolvedBinding s!"#{slot}"), memo))
    (cyclic : ∀ walk slot memo entry, p.slots[slot]? = some entry → slot ∈ walk →
      P walk slot memo (.error (p.cycleFault walk slot), memo))
    (fresh : ∀ walk slot memo entry, Memo.entry? memo slot = none →
      p.slots[slot]? = some entry → slot ∉ walk →
      (∀ next memo, P (slot :: walk) next memo (p.resolveWith ctx (slot :: walk) next memo)) →
      P walk slot memo (Progress.finish slot
        ((p.derive ctx (Progress.ask (p.resolveWith ctx (slot :: walk))) entry).run ⟨memo, []⟩))) :
    ∀ walk slot memo, P walk slot memo (p.resolveWith ctx walk slot memo) := by
  intro walk
  induction walk using walk_induction (List.range p.size) with
  | step walk ih =>
      intro slot memo
      cases hnew : memo.entry? slot with
      | some d =>
          rw [resolveWith_of_entry hnew]
          exact remembered walk slot memo d hnew
      | none =>
          cases hslot : p.slots[slot]? with
          | none =>
              rw [resolveWith_of_none hnew hslot]
              exact missing walk slot memo hslot
          | some entry =>
              by_cases hwalk : slot ∈ walk
              · rw [resolveWith_of_mem hnew hslot hwalk]
                exact cyclic walk slot memo entry hslot hwalk
              · rw [resolveWith_of_not_mem hnew hslot hwalk]
                have hsize : slot ∈ List.range p.size :=
                  List.mem_range.2 (List.getElem?_eq_some_iff.1 hslot).1
                exact fresh walk slot memo entry hnew hslot hwalk (ih slot hsize hwalk)

end Program

/-! ## Sessions -/

/-- An evaluation session over one context. -/
structure Session where
  program : Program
  context : Context
  memo : Memo

/-- Open a session; a context that is no mapping is turned away. -/
def Program.session (p : Program) (ctx : Context) : Except Fault Session := do
  ctx.check
  return ⟨p, ctx, []⟩

namespace Session

variable (s : Session)

/-- The value of a name, and the session afterwards. -/
def resolve (name : String) : Except Fault Value × Session :=
  match s.program.slotOf name with
  | .error fault => (.error fault, s)
  | .ok slot =>
    let (outcome, memo) := s.program.resolveWith s.context [] slot s.memo
    (outcome, { s with memo := memo })

/-- The names of the traits that hold, and the session afterwards. -/
def satisfiedTraits : Except Fault NameSet × Session :=
  let ask (slot : Nat) : ExceptT Fault (StateM Memo) Value :=
    s.program.resolveWith s.context [] slot
  let (outcome, memo) := (s.program.satisfied ask).run s.memo
  (outcome, { s with memo := memo })

/-- The tree of how a name got its value, and the session afterwards. -/
def explain (name : String) : Except Fault Explanation × Session :=
  match s.resolve name with
  | (.error fault, s) => (.error fault, s)
  | (.ok _, s) =>
    match (s.program.slotOf? name).bind (s.memo.explanation? s.program) with
    | some tree => (.ok tree, s)
    | none => (.error (.unknownBinding name), s)

/-- Whether a name has been evaluated in this session. -/
def isResolved (name : String) : Bool :=
  match s.program.slotOf? name with
  | some slot => (s.memo.entry? slot).isSome
  | none => false

/-- How many slots have been evaluated in this session. -/
def resolvedCount : Nat := s.memo.length

end Session

end Rulebook
