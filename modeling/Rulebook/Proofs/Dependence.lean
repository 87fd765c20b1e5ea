/-
# What a slot depends on

The evaluation of a slot asks for the slots of the names that its expression refers
to, for those of the traits if it has a decision table, and for no other. So two
evaluations of a slot are coupled as soon as they are where it asks; and what stops a
slot is a fault of its own expression, the fault of a slot that it asks for, or a way
back to itself. Nothing is assumed of the passes that analyzed the schema: names may be
listed twice or not at all, and references may go in circles.
-/

import Rulebook.Proofs.Sessions

namespace Rulebook

namespace Schema

variable {schema : Schema} {registry : Registry} {p : Program} {entry : Slot}

/-- The evaluation of one slot may ask for another: its expression refers to the name
of the other, or it has a decision table and the other holds a trait. -/
inductive Consults (schema : Schema) (p : Program) (entry : Slot) : Nat → Prop
  | reference {target : String} {next : Nat} : schema.Refers entry.name target →
      p.slotOf? target = some next → Consults schema p entry next
  | trait {next : Nat} : entry.table.isSome = true → next ∈ p.traitSlots →
      Consults schema p entry next

/-- The expression that is compiled for a name refers to a name that has a slot. It is the
expression of the last declaration of the name, so this is at most what `Refers` says. -/
def Leads (schema : Schema) (p : Program) (name target : String) : Prop :=
  ∃ d e, schema.find? name = some d ∧ d.expression = some e ∧ .binding target ∈ e.nodes ∧
    ∃ next, p.slotOf? target = some next

theorem Leads.refers {name target : String} (hleads : schema.Leads p name target) :
    schema.Refers name target := by
  obtain ⟨d, e, hfind, he, htarget, -⟩ := hleads
  obtain ⟨hd, hname⟩ := mem_of_find? hfind
  exact ⟨e, ⟨d, hd, hname, he⟩, htarget⟩

/-- What one slot asks for, by the expression that is compiled for it: what it leads to,
and the traits if it has a decision table. -/
inductive Asks (schema : Schema) (p : Program) (entry : Slot) : Nat → Prop
  | reference {target : String} {next : Nat} : schema.Leads p entry.name target →
      p.slotOf? target = some next → Asks schema p entry next
  | trait {next : Nat} : entry.table.isSome = true → next ∈ p.traitSlots →
      Asks schema p entry next

theorem Asks.consults {next : Nat} (hasks : schema.Asks p entry next) :
    schema.Consults p entry next := by
  cases hasks with
  | reference hleads hnext => exact .reference hleads.refers hnext
  | trait htable hnext => exact .trait htable hnext

namespace Compiled

variable (h : schema.Compiled registry p)

include h in
/-- The slots that hold traits are those of the traits. -/
theorem isTrait_slotName {slot : Nat} (hentry : p.slots[slot]? = some entry) :
    schema.isTrait (p.slotName slot) = true ↔ slot ∈ p.traitSlots := by
  have hkind : slot ∈ p.traitSlots ↔ entry.kind = .trait := by
    rw [Program.mem_traitSlots]
    simp [hentry]
  rw [Program.slotName_eq hentry, hkind]
  obtain ⟨name, -, rfl⟩ := h.exists_name hentry
  rw [name_slot, isTrait]
  cases hfind : schema.find? name with
  | none => simp [Schema.slot, hfind]
  | some d => cases hexpression : d.expression <;> simp [Schema.slot, hfind, hexpression]

section Coupled

variable {m n : Type → Type} [Monad m] [Monad n] [MonadExceptOf Fault m] [MonadExceptOf Fault n]
  (C : Coupling m n) (ctx : Context) {ask : Nat → m Value} {ask' : Nat → n Value}
  (hthrow : ∀ fault : Fault, fault.OwnOver ctx →
    C.Rel (throw fault : m Value) (throw fault : n Value))

include h hthrow

/-- Compiled code asks for nothing but what its expression refers to. -/
theorem coupled_ofExpr {e : Expr}
    (hask : ∀ target next, .binding target ∈ e.nodes → p.slotOf? target = some next →
      C.Rel (ask next) (ask' next)) :
    C.Rel ((Code.ofExpr registry p.analysis.order e).eval ctx ask)
      ((Code.ofExpr registry p.analysis.order e).eval ctx ask') := by
  rw [Code.eval_ofExpr, Code.eval_ofExpr]
  apply C.meaning_of_ask hthrow
  intro target htarget
  cases hposition : lastPosition? target p.analysis.order with
  | none =>
      rw [Code.bySlot_of_none hposition, Code.bySlot_of_none hposition]
      exact hthrow _ (.unresolvedBinding target)
  | some next =>
      rw [Code.bySlot_of_some hposition, Code.bySlot_of_some hposition]
      apply hask target next htarget
      rw [Program.slotOf?, h.executionOrder_eq, hposition]

variable {slot : Nat} (hentry : p.slots[slot]? = some entry)

include hentry

/-- The code of a slot asks for the slots of the names that it leads to, and for no
others. -/
theorem coupled_code_of_leads
    (hask : ∀ target next, schema.Leads p entry.name target → p.slotOf? target = some next →
      C.Rel (ask next) (ask' next)) :
    C.Rel (entry.code.eval ctx ask) (entry.code.eval ctx ask') := by
  rcases h.slot_cases hentry with ⟨-, hcode⟩ | ⟨d, e, hfind, he, rfl⟩
  · rw [hcode]
    exact hthrow _ (.unresolvedBinding entry.name)
  · apply h.coupled_ofExpr C ctx hthrow
    intro target next htarget hnext
    exact hask target next ⟨d, e, hfind, he, htarget, next, hnext⟩ hnext

/-- To derive the value of a slot asks for the traits besides, if there is a table. -/
theorem coupled_derive_of_asks [LawfulMonad m] [LawfulMonad n]
    (hask : ∀ next, schema.Asks p entry next → C.Rel (ask next) (ask' next)) :
    C.Rel (p.derive ctx ask entry) (p.derive ctx ask' entry) := by
  apply C.derive
  · intro htable next hnext
    exact hask next (.trait htable hnext)
  · exact h.coupled_code_of_leads C ctx hthrow hentry fun target next hleads hnext =>
      hask next (.reference hleads hnext)
  · intro table satisfied htable
    rcases h.slot_cases hentry with ⟨hnone, -⟩ | ⟨d, e, hfind, he, rfl⟩
    · rw [hnone] at htable
      cases htable
    · obtain ⟨cases, otherwise, rfl, hrows⟩ := tableOf_of_slotFor htable
      obtain ⟨row, -, hpick⟩ := hrows.exists_pickRow satisfied
      refine ⟨row, hpick, ?_⟩
      rw [hrows.code_of_pickRow hpick]
      apply h.coupled_ofExpr C ctx hthrow
      intro target next htarget hnext
      have hnode := (mem_nodes_of_mem_nodes_resultAt htarget).resolve_right nofun
      exact hask next (.reference ⟨d, _, hfind, he, hnode, next, hnext⟩ hnext)

variable (hask : ∀ next, schema.Consults p entry next → C.Rel (ask next) (ask' next))

include hask

/-- The code of a slot asks for nothing but what the slot consults. -/
theorem coupled_code : C.Rel (entry.code.eval ctx ask) (entry.code.eval ctx ask') :=
  h.coupled_code_of_leads C ctx hthrow hentry fun _ next hleads hnext =>
    hask next (.reference hleads.refers hnext)

/-- To derive the value of a slot asks for nothing else either. -/
theorem coupled_derive [LawfulMonad m] [LawfulMonad n] :
    C.Rel (p.derive ctx ask entry) (p.derive ctx ask' entry) :=
  h.coupled_derive_of_asks C ctx hthrow hentry fun next hasks => hask next hasks.consults

end Coupled

/-! ## What stops a slot -/

section Faults

variable {ctx : Context} {P : Fault → Prop} {Inside : List Nat → Nat → Prop}
  (hown : ∀ fault : Fault, fault.OwnOver ctx → P fault)
  (hcycle : ∀ walk slot, Inside walk slot → slot ∈ walk → P (p.cycleFault walk slot))

include h hown hcycle

/-- What holds of the faults that expressions have of their own, and of those of coming back
to where evaluation is, holds of all faults that stop a slot. What is known of the walks on
which evaluation comes to a slot has to be passed on to what the slot leads to. -/
theorem of_error_of_resolve
    (hstep : ∀ walk slot entry target next, Inside walk slot → slot ∉ walk →
      p.slots[slot]? = some entry → schema.Leads p entry.name target →
      p.slotOf? target = some next → Inside (slot :: walk) next) (walk : List Nat) :
    ∀ slot, Inside walk slot → ∀ fault, p.resolve ctx walk slot = .error fault → P fault := by
  induction walk using walk_induction (List.range p.size) with
  | step walk ih =>
      intro slot hinside fault hfault
      cases hentry : p.slots[slot]? with
      | none =>
          rw [p.resolve_of_none ctx hentry] at hfault
          cases hfault
          exact hown _ (.unresolvedBinding _)
      | some entry =>
          by_cases hwalk : slot ∈ walk
          · rw [p.resolve_of_mem ctx hentry hwalk] at hfault
            cases hfault
            exact hcycle walk slot hinside hwalk
          · rw [p.resolve_of_not_mem ctx hentry hwalk] at hfault
            have hsize : slot ∈ List.range p.size :=
              List.mem_range.2 (List.getElem?_eq_some_iff.1 hentry).1
            have hask : ∀ target next, schema.Leads p entry.name target →
                p.slotOf? target = some next → (Coupling.stopsWith P).Rel
                  (p.resolve ctx (slot :: walk) next) (p.resolve ctx (slot :: walk) next) :=
              fun target next hleads hnext => ih slot hsize hwalk next
                (hstep walk slot entry target next hinside hwalk hentry hleads hnext)
            have hthrow : ∀ fault : Fault, fault.OwnOver ctx →
                (Coupling.stopsWith P).Rel (α := Value) (throw fault) (throw fault) := by
              intro fault hfault fault' hthrow
              cases hthrow
              exact hown fault hfault
            exact h.coupled_code_of_leads _ ctx hthrow hentry hask fault hfault

/-- The same with memory, where it has to be passed on to all that the slot asks for. -/
theorem of_error_of_resolveWith
    (hstep : ∀ walk slot entry next, Inside walk slot → slot ∉ walk →
      p.slots[slot]? = some entry → schema.Asks p entry next → Inside (slot :: walk) next) :
    ∀ walk slot memo, Inside walk slot → ∀ fault,
      (p.resolveWith ctx walk slot memo).1 = .error fault → P fault := by
  apply Program.resolveWith_induction (P := fun walk slot _ r => Inside walk slot →
    ∀ fault, r.1 = .error fault → P fault)
  · intro walk slot memo d _ _ fault hfault
    cases hfault
  · intro walk slot memo _ _ fault hfault
    cases hfault
    exact hown _ (.unresolvedBinding _)
  · intro walk slot memo entry _ hwalk hinside fault hfault
    cases hfault
    exact hcycle walk slot hinside hwalk
  · intro walk slot memo entry _ hentry hwalk ih hinside fault hfault
    have hask : ∀ next, schema.Asks p entry next → (Coupling.keeps (fun _ => True) P).Rel
        (Progress.ask (p.resolveWith ctx (slot :: walk)) next)
        (Progress.ask (p.resolveWith ctx (slot :: walk)) next) := by
      intro next hasks
      have hnext := hstep walk slot entry next hinside hwalk hentry hasks
      have hlookUp : (Coupling.keeps (fun _ : Memo => True) P).Rel
          (p.resolveWith ctx (slot :: walk) next : ExceptT Fault (StateM Memo) Value)
          (p.resolveWith ctx (slot :: walk) next) :=
        fun memo _ => ⟨trivial, ih next memo hnext⟩
      exact Coupling.keeps_ask hlookUp
    obtain ⟨-, hderive⟩ := h.coupled_derive_of_asks _ ctx
      (fun fault hfault => Coupling.keeps_throw (hown fault hfault)) hentry hask ⟨memo, []⟩
      trivial
    rw [Progress.finish_fst] at hfault
    exact hderive fault (error_of_map hfault)

end Faults

end Compiled

end Schema

end Rulebook
