/-
# Accepted rulebooks do not go wrong

Once a schema is accepted, the faults that are left have their cause outside of it:
the context lacks a field, or a function fails. Every such fault of a name goes back
to a field or a call in the expression of the name or of one that it reaches. A
session can run into one more kind of fault: it asks for all traits where plain
evaluation asks for some, and so may come back to where it is.
-/

import Rulebook.Proofs.Sessions

namespace Rulebook

namespace Fault

/-- The cause lies outside of the rulebook, in the context or in a function. -/
def isExternal : Fault → Bool
  | .missingField _ _ | .call _ _ => true
  | _ => false

/-- What a session can run into: an external cause, or a way back to where it is. -/
def isExternalOrCycle : Fault → Bool
  | .missingField _ _ | .call _ _ | .cycle _ => true
  | _ => false

end Fault

namespace Schema

/-- The faults that a name can run into: a field that the context lacks is missing, a
call fails. Both stand in the expression of the name or of one that it reaches. -/
inductive Risks (schema : Schema) (ctx : Context) (name : String) : Fault → Prop
  | missingField {field : String} : schema.Uses name (.field field) → ctx.find? field = none →
      Risks schema ctx name (.missingField field ctx.keys)
  | call {function : String} {args : List Expr} {message : String} :
      schema.Uses name (.call function args) → Risks schema ctx name (.call function message)

variable {schema : Schema} {registry : Registry} {p : Program} {ctx : Context} {name : String}
  {fault : Fault}

theorem Risks.isExternal (h : schema.Risks ctx name fault) : fault.isExternal = true := by
  cases h <;> rfl

/-- A name runs the risks of all that it refers to. -/
theorem Risks.of_refers {target : String} (hrefers : schema.Refers name target)
    (h : schema.Risks ctx target fault) : schema.Risks ctx name fault := by
  cases h with
  | missingField huses hnone => exact .missingField (huses.of_refers hrefers) hnone
  | call huses => exact .call (huses.of_refers hrefers)

end Schema

/-! ## Plain evaluation -/

namespace Schema.Accepted

variable {schema : Schema} {registry : Registry} {p : Program} {ctx : Context}
  (h : schema.Accepted registry p) (hctx : ctx.isMapping = true)

include h hctx

/-- A name stops with nothing but its risks. -/
theorem risks_of_error : ∀ name ∈ schema.names, ∀ fault,
    p.evaluateBinding ctx name = .error fault → schema.Risks ctx name fault := by
  apply h.induction (P := fun name => ∀ fault, p.evaluateBinding ctx name = .error fault →
    schema.Risks ctx name fault)
  intro name e he ih fault hfault
  rw [h.evaluateBinding_eq hctx he] at hfault
  have hreading : (Coupling.stopsWith (schema.Risks ctx name)).Rel
      (e.meaning registry ctx (p.evaluateBinding ctx))
      (e.meaning registry ctx (p.evaluateBinding ctx)) := by
    apply Coupling.meaning
    intro x hx
    cases x with
    | field field =>
        apply Coupling.readField
        intro hnone fault hfault
        cases hfault
        exact .missingField (.of_declares he hx) hnone
    | binding target =>
        intro fault hfault
        exact (ih target hx fault hfault).of_refers ⟨e, he, hx⟩
    | call function args =>
        obtain ⟨f, hf, -⟩ := h.callable name e function args he hx
        apply Coupling.applyFunction _ hf
        intro message fault hfault
        cases hfault
        exact .call (.of_declares he hx)
    | _ => trivial
  exact hreading fault hfault

/-- All names together stop with nothing but a fault that is external. -/
theorem isExternal_of_evaluateWhere {select : Kind → Bool} {fault : Fault}
    (hfault : p.evaluateWhere ctx select = .error fault) : fault.isExternal = true := by
  obtain ⟨slot, entry, hentry, -, hslot⟩ := Program.exists_error_of_evaluateWhere hfault
  rw [← h.evaluateBinding_slot hctx hentry] at hslot
  have hname := (h.declaresKind_slot hentry).mem_names
  exact (h.risks_of_error hctx entry.name hname fault hslot).isExternal

end Schema.Accepted

/-! ## Sessions -/

/-- Evaluation with memory that stops with nothing but what a session can run into. -/
def Coupling.stopsSession (σ : Type) :
    Coupling (ExceptT Fault (StateM σ)) (ExceptT Fault (StateM σ)) :=
  .keeps (fun _ => True) fun fault => fault.isExternalOrCycle = true

namespace Schema.Accepted

variable {schema : Schema} {registry : Registry} {p : Program} {ctx : Context}
  (h : schema.Accepted registry p)

include h

/-- To resolve a slot stops with nothing but what a session can run into. -/
theorem error_of_resolveWith : ∀ walk slot memo, slot < p.size → ∀ fault,
    (p.resolveWith ctx walk slot memo).1 = .error fault → fault.isExternalOrCycle = true := by
  apply Program.resolveWith_induction (P := fun _ slot _ r => slot < p.size → ∀ fault,
    r.1 = .error fault → fault.isExternalOrCycle = true)
  · intro walk slot memo d _ _ fault hfault
    cases hfault
  · intro walk slot memo hnone hlt
    exact absurd (List.getElem?_eq_none_iff.1 hnone) (Nat.not_le_of_lt hlt)
  · intro walk slot memo entry _ _ _ fault hfault
    cases hfault
    rfl
  -- A slot has only faults of its own and those of the slots it asks for.
  · intro walk slot memo entry _ hentry _ ih _ fault hfault
    have hask : ∀ next < p.size, (Coupling.stopsSession Progress).Rel
        (Progress.ask (p.resolveWith ctx (slot :: walk)) next)
        (Progress.ask (p.resolveWith ctx (slot :: walk)) next) := by
      intro next hnext
      have hlookUp : (Coupling.stopsSession Memo).Rel (α := Value)
          (p.resolveWith ctx (slot :: walk) next) (p.resolveWith ctx (slot :: walk) next) :=
        fun memo _ => ⟨trivial, ih next memo hnext⟩
      exact Coupling.keeps_ask hlookUp
    obtain ⟨-, hallowed⟩ := h.coupled_derive _ hask
      (fun field => Coupling.keeps_throw rfl)
      (fun function message => Coupling.keeps_throw rfl) hentry ⟨memo, []⟩ trivial
    rcases hrun : (p.derive ctx (Progress.ask (p.resolveWith ctx (slot :: walk))) entry).run
      ⟨memo, []⟩ with ⟨fault' | ⟨v, text⟩, progress⟩
    · rw [hrun] at hallowed hfault
      cases hfault
      exact hallowed fault rfl
    · rw [hrun] at hfault
      cases hfault

variable {s : Session} (hprogram : s.program = p)

include hprogram

/-- A declared name fails to resolve for nothing but what a session can run into. -/
theorem error_of_resolve {name : String} (hname : name ∈ schema.names) {fault : Fault}
    (hfault : (s.resolve name).1 = .error fault) : fault.isExternalOrCycle = true := by
  obtain ⟨slot, hslot⟩ := h.exists_slotOf? hname
  rw [← hprogram] at hslot
  rw [Session.resolve_of_slotOf? hslot] at hfault
  rw [hprogram] at hslot hfault
  exact h.error_of_resolveWith [] slot s.memo (Program.lt_size_of_slotOf? hslot) fault hfault

/-- A declared name that resolves can be explained, so it fails to be explained for no
other reason. -/
theorem error_of_explain {name : String} (hname : name ∈ schema.names) {fault : Fault}
    (hfault : (s.explain name).1 = .error fault) : fault.isExternalOrCycle = true := by
  cases hresolve : (s.resolve name).1 with
  | error fault' =>
      rw [Session.explain_of_error hresolve] at hfault
      cases hfault
      exact h.error_of_resolve hprogram hname hresolve
  | ok v =>
      obtain ⟨slot, hslot⟩ := h.exists_slotOf? hname
      obtain ⟨entry, hentry⟩ : ∃ entry, p.slots[slot]? = some entry :=
        ⟨_, List.getElem?_eq_getElem (Program.lt_size_of_slotOf? hslot)⟩
      rw [← hprogram] at hslot hentry
      obtain ⟨tree, htree⟩ := Session.exists_tree_of_ok hslot hentry hresolve
      rw [htree] at hfault
      cases hfault

/-- The traits fail to be asked for nothing but what a session can run into. -/
theorem error_of_satisfiedTraits {fault : Fault} (hfault : s.satisfiedTraits.1 = .error fault) :
    fault.isExternalOrCycle = true := by
  apply Session.of_error_of_satisfiedTraits (P := fun fault => fault.isExternalOrCycle = true) _
    hfault
  rw [hprogram]
  intro slot hslot memo
  exact h.error_of_resolveWith [] slot memo (Program.lt_size_of_mem_traitSlots hslot)

end Schema.Accepted

/-! ## Accepted schemas -/

/-- Accepted schemas do not go wrong. Over a mapping, a declared name stops with
nothing but its own risks, and whole evaluation with nothing but an external fault. A
session opens, and whatever was called on it, to resolve or explain a declared name
or to ask for the traits stops with nothing but an external fault or a cycle. -/
theorem Schema.isExternal_of_error {schema : Schema} {registry : Registry} {p : Program}
    {ctx : Context} (hp : schema.compile registry = .ok p) (hctx : ctx.isMapping = true) :
    (∀ name ∈ schema.names, ∀ fault, p.evaluateBinding ctx name = .error fault →
      schema.Risks ctx name fault) ∧
    (∀ fault, p.evaluate ctx = .error fault → fault.isExternal = true) ∧
    (∀ kind fault, p.evaluateKind ctx kind = .error fault → fault.isExternal = true) ∧
    ∃ start, p.session ctx = .ok start ∧ ∀ s, start.Later s →
      (∀ name ∈ schema.names, ∀ fault,
        (s.resolve name).1 = .error fault ∨ (s.explain name).1 = .error fault →
          fault.isExternalOrCycle = true) ∧
      ∀ fault, s.satisfiedTraits.1 = .error fault → fault.isExternalOrCycle = true := by
  have h := accepted_of_compile hp
  refine ⟨h.risks_of_error hctx, ?_, ?_, ⟨p, ctx, []⟩,
    Program.session_eq_ok_iff.2 ⟨hctx, rfl⟩, ?_⟩
  · intro fault hfault
    rw [Program.evaluate_of_isMapping hctx] at hfault
    exact h.isExternal_of_evaluateWhere hctx (error_of_map hfault)
  · intro kind fault hfault
    rw [Program.evaluateKind_of_isMapping hctx] at hfault
    exact h.isExternal_of_evaluateWhere hctx (error_of_map hfault)
  · intro s hlater
    have hprogram : s.program = p :=
      (hlater.keeps (P := fun _ => True) (fun _ _ _ => trivial) trivial).1
    constructor
    · intro name hname fault hfault
      rcases hfault with hfault | hfault
      · exact h.error_of_resolve hprogram hname hfault
      · exact h.error_of_explain hprogram hname hfault
    · intro fault hfault
      exact h.error_of_satisfiedTraits hprogram hfault

namespace Example

/-- A context that does not say where the customer is. -/
def goldSomewhere : Context := .ofMap (.ofList [("tier", .string "gold")])

/-- Without a region there is no offer, and this is a risk of the offer, which refers to
a trait that looks at the region. -/
theorem isExternal_of_error_offers :
    ∃ p, offers.compile .builtins = .ok p ∧ goldSomewhere.isMapping = true ∧
      "offer" ∈ offers.names ∧
      p.evaluateBinding goldSomewhere "offer" = .error (.missingField "region" ["tier"]) ∧
      offers.Risks goldSomewhere "offer" (.missingField "region" ["tier"]) ∧
      ∃ start, p.session goldSomewhere = .ok start ∧ ∀ s, start.Later s → ∀ fault,
        (s.resolve "offer").1 = .error fault → fault.isExternalOrCycle = true := by
  obtain ⟨p, hp⟩ := exists_compile_offers
  have hctx : goldSomewhere.isMapping = true := rfl
  have hname : "offer" ∈ offers.names := by decide
  have hmeaning : offers.meaning .builtins goldSomewhere 4 "offer" =
      some (.error (.missingField "region" ["tier"])) := rfl
  have hfault := (Schema.accepted_of_compile hp).evaluateBinding_of_meaning hctx hname hmeaning
  obtain ⟨hrisks, -, -, start, hopen, hruns⟩ := Schema.isExternal_of_error hp hctx
  exact ⟨p, hp, hctx, hname, hfault, hrisks "offer" hname _ hfault, start, hopen,
    fun s hlater fault herror => (hruns s hlater).1 "offer" hname fault (.inl herror)⟩

end Example

end Rulebook
