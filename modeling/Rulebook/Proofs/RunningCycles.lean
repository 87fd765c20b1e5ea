/-
# Cycles met while running

When evaluation comes back to where it is, it tells the way: from the name round to the name
again. The way it tells is one that it went. Each name on it leads to the next by the
expression that is compiled for it, or, in a session, has a decision table and so asks for
the next because that is a trait; and no name comes up twice before the way closes. Nothing
is assumed of the passes that analyzed the schema, but that they list no name twice: else
two slots have one name, and a way through both seems to come to a name twice.
-/

import Rulebook.Proofs.Failures
import Rulebook.Proofs.Guard
import Rulebook.Proofs.Loops

namespace Rulebook

namespace Schema

variable {schema : Schema} {registry : Registry} {p : Program} {ctx : Context}

/-- In a session one name needs another: it leads to it, or it has a decision table and the
other is a trait. -/
def Needs (schema : Schema) (p : Program) (name target : String) : Prop :=
  schema.Leads p name target ∨ p.hasDecisionTable name = true ∧ schema.isTrait target = true

/-- What the compiled expression of a slot refers to, its name leads to. -/
theorem Leads.slotName {slot next : Nat} {entry : Slot} {target : String}
    (hleads : schema.Leads p entry.name target) (hentry : p.slots[slot]? = some entry)
    (hnext : p.slotOf? target = some next) :
    schema.Leads p (p.slotName slot) (p.slotName next) := by
  rwa [Program.slotName_eq hentry, Program.slotName_of_slotOf? hnext]

/-- What a slot asks for in a session, its name needs. -/
theorem Asks.needs (h : schema.Compiled registry p) (hnodup : p.executionOrder.Nodup)
    {slot next : Nat} {entry : Slot} (hentry : p.slots[slot]? = some entry)
    (hasks : schema.Asks p entry next) :
    schema.Needs p (p.slotName slot) (p.slotName next) := by
  cases hasks with
  | reference hleads hnext => exact .inl (hleads.slotName hentry hnext)
  | trait htable hnext =>
      rw [← Program.hasDecisionTable_name hnodup hentry] at htable
      obtain ⟨entry', hentry', -⟩ := Program.mem_traitSlots.1 hnext
      rw [Program.slotName_eq hentry]
      exact .inr ⟨htable, (h.isTrait_slotName hentry').2 hnext⟩

end Schema

/-! ## The way to a slot -/

/-- The way on which evaluation came to a slot: from each slot that it is inside of it went
along a step to the next, and it entered no slot twice. -/
structure Program.Way (p : Program) (Step : String → String → Prop) (walk : List Nat)
    (slot : Nat) : Prop where
  chain : (slot :: walk).IsChain fun next outer => Step (p.slotName outer) (p.slotName next)
  nodup : walk.Nodup
  inside : ∀ outer ∈ walk, outer < p.size

/-- A fault that, if it tells a way back to where evaluation is, tells a loop. -/
def Fault.TellsLoop (Step : String → String → Prop) (fault : Fault) : Prop :=
  ∀ path, fault = .cycle path → IsLoop Step path

theorem Fault.OwnOver.tellsLoop {ctx : Context} {fault : Fault} {Step : String → String → Prop}
    (h : fault.OwnOver ctx) : fault.TellsLoop Step := by
  cases h <;> exact nofun

namespace Program.Way

variable {p : Program} {Step : String → String → Prop} {walk : List Nat} {slot next : Nat}

theorem start : p.Way Step [] slot where
  chain := .singleton slot
  nodup := .nil
  inside := List.forall_mem_nil _

/-- Evaluation goes on from a slot that is new to what the slot asks for. -/
theorem step (h : p.Way Step walk slot) (hnew : slot ∉ walk) {entry : Slot}
    (hentry : p.slots[slot]? = some entry) (hstep : Step (p.slotName slot) (p.slotName next)) :
    p.Way Step (slot :: walk) next where
  chain := List.isChain_cons_cons.2 ⟨hstep, h.chain⟩
  nodup := List.nodup_cons.2 ⟨hnew, h.nodup⟩
  inside := List.forall_mem_cons.2 ⟨(List.getElem?_eq_some_iff.1 hentry).1, h.inside⟩

/-- If evaluation is already inside the slot that it came to, it tells a loop. -/
theorem tellsLoop (h : p.Way Step walk slot) (hnodup : p.executionOrder.Nodup)
    (hslot : slot ∈ walk) : (p.cycleFault walk slot).TellsLoop Step := by
  rintro path hpath
  cases hpath
  have hloop : IsLoop (fun a b => Step (p.slotName a) (p.slotName b)) (closedPath walk slot) :=
    isLoop_closedPath h.chain h.nodup hslot
  have hinside : ∀ a ∈ closedPath walk slot, a < p.size := fun a ha =>
    h.inside a (mem_of_mem_closedPath hslot ha)
  exact hloop.map (fun a b hab => hab) fun a ha b hb =>
    slotName_inj hnodup (hinside a ha) (hinside b hb)

end Program.Way

namespace Schema.Compiled

variable {schema : Schema} {registry : Registry} {p : Program} {ctx : Context}
  (h : schema.Compiled registry p) (hnodup : p.executionOrder.Nodup)

include h hnodup

/-- Plain evaluation tells loops of what names lead to. -/
theorem tellsLoop_of_resolve : ∀ walk slot, p.Way (schema.Leads p) walk slot → ∀ fault,
    p.resolve ctx walk slot = .error fault → fault.TellsLoop (schema.Leads p) := by
  apply h.of_error_of_resolve fun fault hown => hown.tellsLoop
  · intro walk slot hway hwalk
    exact hway.tellsLoop hnodup hwalk
  · intro walk slot entry target next hway hwalk hentry hleads hnext
    exact hway.step hwalk hentry (hleads.slotName hentry hnext)

/-- Evaluation with memory tells loops of what names need. -/
theorem tellsLoop_of_resolveWith : ∀ walk slot memo, p.Way (schema.Needs p) walk slot →
    ∀ fault, (p.resolveWith ctx walk slot memo).1 = .error fault →
      fault.TellsLoop (schema.Needs p) := by
  apply h.of_error_of_resolveWith fun fault hown => hown.tellsLoop
  · intro walk slot hway hwalk
    exact hway.tellsLoop hnodup hwalk
  · intro walk slot entry next hway hwalk hentry hasks
    exact hway.step hwalk hentry (hasks.needs h hnodup hentry)

end Schema.Compiled

/-- The cycles that are met while running are there. Compile a schema through any passes
that list no name twice. If evaluation stops with a cycle, the path it tells has at least
two names, ends with the name it starts with and comes to no other name twice, and each
name on it leads to the next by the expression that is compiled for it. If a call on a
session does, whatever was called before, the same holds, but that a name with a decision
table may also come before a trait. -/
theorem Schema.isLoop_of_cycle {schema : Schema} {registry : Registry} {passes : List Pass}
    {p : Program} {ctx : Context} {path : List String}
    (hp : schema.compileWith passes registry = .ok p) (hnodup : p.analysis.order.Nodup) :
    (p.Fails ctx (.cycle path) → IsLoop (schema.Leads p) path) ∧
    (p.FailsInSession ctx (.cycle path) → IsLoop (schema.Needs p) path) := by
  have h := compiled_of_compileWith hp
  have hnodup : p.executionOrder.Nodup := by rwa [h.executionOrder_eq]
  constructor
  · intro hfails
    have hloop : (Fault.cycle path).TellsLoop (schema.Leads p) :=
      hfails.of_slots (fun _ => nofun) nofun fun slot =>
        h.tellsLoop_of_resolve hnodup [] slot .start
    exact hloop path rfl
  · intro hfails
    have hloop : (Fault.cycle path).TellsLoop (schema.Needs p) :=
      hfails.of_slots (fun _ => nofun) fun slot memo =>
        h.tellsLoop_of_resolveWith hnodup [] slot memo .start
    exact hloop path rfl

namespace Example

/-- On the closed bridge the road leads around: the two names lead to each other. The tier of
a customer, whose table asks for all traits, is needed by one of them; so a session comes back
to the tier, and the way leads once through a reference and once through the table. -/
theorem isLoop_of_cycle_detours :
    (∃ p, detours.compileWith [.names, .shapes, .declarationOrder] .builtins = .ok p ∧
      p.analysis.order.Nodup ∧ p.Fails (bridge false) (.cycle ["detour", "route", "detour"]) ∧
      IsLoop (detours.Leads p) ["detour", "route", "detour"]) ∧
    ∃ p, memberships.compileWith Pass.standard .builtins = .ok p ∧ p.analysis.order.Nodup ∧
      p.FailsInSession aged30 (.cycle ["tier", "premium", "tier"]) ∧
      IsLoop (memberships.Needs p) ["tier", "premium", "tier"] := by
  have hdetours : ((detours.compileWith [.names, .shapes, .declarationOrder]
      .builtins).toOption.bind fun p =>
        (fault? (p.evaluateBinding (bridge false) "detour")).map fun fault =>
          (p.analysis.order, fault)) =
      some (["route", "detour"], .cycle ["detour", "route", "detour"]) := by
    decide +kernel
  have hmemberships : ((memberships.compileWith Pass.standard .builtins).toOption.bind fun p =>
      (p.session aged30).toOption.bind fun start =>
        (fault? (start.resolve "tier").1).map fun fault => (p.analysis.order, fault)) =
      some (["adult", "tier", "premium"], .cycle ["tier", "premium", "tier"]) := by
    decide +kernel
  constructor
  · obtain ⟨p, hp, hruns⟩ := Option.bind_eq_some_iff.1 hdetours
    obtain ⟨fault, hfault, hpair⟩ := Option.map_eq_some_iff.1 hruns
    obtain ⟨horder, rfl⟩ := Prod.mk.inj hpair
    rw [toOption_eq_some_iff] at hp
    rw [fault?_eq_some_iff] at hfault
    have hnodup : p.analysis.order.Nodup := by
      rw [horder]
      decide
    have hfails : p.Fails (bridge false) (.cycle ["detour", "route", "detour"]) :=
      .binding hfault
    exact ⟨p, hp, hnodup, hfails, (Schema.isLoop_of_cycle hp hnodup).1 hfails⟩
  · obtain ⟨p, hp, hruns⟩ := Option.bind_eq_some_iff.1 hmemberships
    obtain ⟨start, hopen, hruns⟩ := Option.bind_eq_some_iff.1 hruns
    obtain ⟨fault, hfault, hpair⟩ := Option.map_eq_some_iff.1 hruns
    obtain ⟨horder, rfl⟩ := Prod.mk.inj hpair
    rw [toOption_eq_some_iff] at hp hopen
    rw [fault?_eq_some_iff] at hfault
    have hnodup : p.analysis.order.Nodup := by
      rw [horder]
      decide
    have hcall : (start.call (.resolve "tier")).1 =
        .error (.cycle ["tier", "premium", "tier"]) := by
      rw [Session.call, hfault]
      rfl
    have hfails : p.FailsInSession aged30 (.cycle ["tier", "premium", "tier"]) :=
      .call hopen .refl hcall
    exact ⟨p, hp, hnodup, hfails, (Schema.isLoop_of_cycle hp hnodup).2 hfails⟩

end Example

end Rulebook
