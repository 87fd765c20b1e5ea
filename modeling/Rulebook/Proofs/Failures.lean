/-
# What stops a call

A program is called for all names, for those of a kind or for one; a session is called to
resolve or to explain a name, or for the traits. If a call stops, then because it got a name
that is not compiled or a context that is no mapping, or because a slot stopped that was
evaluated from the outside. So what can be said of every fault of a slot can be said of
every fault of a call. Nothing is assumed of the schema or of its passes.
-/

import Rulebook.Proofs.Desk
import Rulebook.Proofs.WholeEvaluation

namespace Rulebook

namespace Program

variable {p : Program} {ctx : Context} {fault : Fault}

/-- Evaluation of all names, of the names of a kind or of one name stops with the fault. -/
inductive Fails (p : Program) (ctx : Context) : Fault → Prop
  | all {fault : Fault} : p.evaluate ctx = .error fault → Fails p ctx fault
  | kind {kind : Kind} {fault : Fault} : p.evaluateKind ctx kind = .error fault →
      Fails p ctx fault
  | binding {name : String} {fault : Fault} : p.evaluateBinding ctx name = .error fault →
      Fails p ctx fault

/-- A call stops with the fault on a session over the context, after some calls. -/
inductive FailsInSession (p : Program) (ctx : Context) : Fault → Prop
  | call {start s : Session} {c : Call} {fault : Fault} : p.session ctx = .ok start →
      start.Later s → (s.call c).1 = .error fault → FailsInSession p ctx fault

/-- Evaluation stops with the fault of a slot, unless it is turned away at once. -/
theorem Fails.of_slots {P : Fault → Prop} (h : p.Fails ctx fault)
    (hname : ∀ name, P (.unknownBinding name))
    (hcontext : P (.invalidContext ctx.description))
    (hslot : ∀ slot fault, p.resolve ctx [] slot = .error fault → P fault) :
    P fault := by
  have hwhere : ∀ {select fault}, p.evaluateWhere ctx select = .error fault →
      P fault := by
    intro select fault hfault
    obtain ⟨slot, -, -, -, hresolve⟩ := exists_error_of_evaluateWhere hfault
    exact hslot slot fault hresolve
  by_cases hctx : ctx.isMapping = true
  · cases h with
    | all hfault =>
        rw [evaluate_of_isMapping hctx] at hfault
        exact hwhere (error_of_map hfault)
    | kind hfault =>
        rw [evaluateKind_of_isMapping hctx] at hfault
        exact hwhere (error_of_map hfault)
    | @binding name _ hfault =>
        cases hfound : p.slotOf? name with
        | none =>
            rw [evaluateBinding, slotOf, hfound] at hfault
            cases hfault
            exact hname name
        | some slot =>
            rw [evaluateBinding_eq_resolve hctx hfound] at hfault
            exact hslot slot fault hfault
  · have hcheck : ctx.check = .error (.invalidContext ctx.description) := if_neg hctx
    cases h with
    | all hfault =>
        rw [evaluate, hcheck] at hfault
        cases hfault
        exact hcontext
    | kind hfault =>
        rw [evaluateKind, hcheck] at hfault
        cases hfault
        exact hcontext
    | @binding name _ hfault =>
        rw [evaluateBinding, slotOf, hcheck] at hfault
        cases hfound : p.slotOf? name with
        | none =>
            rw [hfound] at hfault
            cases hfault
            exact hname name
        | some slot =>
            rw [hfound] at hfault
            cases hfault
            exact hcontext

end Program

namespace Session

variable {s : Session} {name : String} {fault : Fault}

/-- To explain a name stops with what to resolve it stops with, or for want of a tree. -/
theorem error_of_explain (h : (s.explain name).1 = .error fault) :
    (s.resolve name).1 = .error fault ∨ fault = .unknownBinding name := by
  unfold explain at h
  rcases hresolve : s.resolve name with ⟨fault' | v, s'⟩
  · rw [hresolve] at h
    cases h
    exact .inl rfl
  · rw [hresolve] at h
    cases htree : (s'.program.slotOf? name).bind (s'.memo.explanation? s'.program) with
    | none =>
        simp only [htree] at h
        cases h
        exact .inr rfl
    | some tree =>
        simp only [htree] at h
        cases h

variable {P : Fault → Prop}
  (hname : ∀ name, P (.unknownBinding name))
  (hslot : ∀ slot memo fault,
    (s.program.resolveWith s.context [] slot memo).1 = .error fault → P fault)

include hname hslot

theorem of_error_of_resolve (h : (s.resolve name).1 = .error fault) : P fault := by
  cases hfound : s.program.slotOf? name with
  | none =>
      rw [resolve_of_slotOf?_eq_none hfound] at h
      cases h
      exact hname name
  | some slot =>
      rw [resolve_of_slotOf? hfound] at h
      exact hslot slot s.memo fault h

/-- A call stops with the fault of a slot, unless its name is not compiled. -/
theorem of_error_of_call {c : Call} (h : (s.call c).1 = .error fault) : P fault := by
  cases c with
  | resolve name => exact of_error_of_resolve hname hslot (error_of_map h)
  | satisfiedTraits => exact of_error_of_satisfiedTraits (fun slot _ => hslot slot) (error_of_map h)
  | explain name =>
      rcases error_of_explain (error_of_map h) with hresolve | rfl
      · exact of_error_of_resolve hname hslot hresolve
      · exact hname name

end Session

/-- A call on a session stops with the fault of a slot, unless its name is not compiled. -/
theorem Program.FailsInSession.of_slots {p : Program} {ctx : Context} {fault : Fault}
    {P : Fault → Prop} (h : p.FailsInSession ctx fault)
    (hname : ∀ name, P (.unknownBinding name))
    (hslot : ∀ slot memo fault,
      (p.resolveWith ctx [] slot memo).1 = .error fault → P fault) : P fault := by
  obtain ⟨hopen, hlater, hcall⟩ := h
  obtain ⟨-, rfl⟩ := session_eq_ok_iff.1 hopen
  obtain ⟨hprogram, hcontext, -⟩ :=
    hlater.keeps (P := fun _ => True) (fun _ _ _ => trivial) trivial
  refine Session.of_error_of_call hname ?_ hcall
  rw [hprogram, hcontext]
  exact hslot

end Rulebook
