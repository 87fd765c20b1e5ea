/-
# Runs of a session

Whatever is called on a session, in whatever order and with whatever outcome, all
that changes is what the session remembers, and that only by resolving slots from
the outside. So what resolving a slot keeps is kept by every run. How evaluation
with memory is compared with evaluation without it, or held against a condition on
its faults, is said here once, as couplings.
-/

import Rulebook.Session
import Rulebook.Proofs.Tables

namespace Rulebook

namespace Program

variable {p : Program}

theorem mem_traitSlots {slot : Nat} :
    slot ∈ p.traitSlots ↔ ∃ entry, p.slots[slot]? = some entry ∧ entry.kind = .trait := by
  rw [traitSlots, List.mem_filter, List.mem_range]
  cases hentry : p.slots[slot]? with
  | none => simp
  | some entry =>
      have hlt : slot < p.size := (List.getElem?_eq_some_iff.1 hentry).1
      simp [hlt]

theorem lt_size_of_mem_traitSlots {slot : Nat} (h : slot ∈ p.traitSlots) : slot < p.size :=
  List.mem_range.1 (List.mem_filter.1 h).1

end Program

/-! ## Deriving the value of a slot -/

namespace Coupling

section Derive

variable {m n : Type → Type} [Monad m] [Monad n] (C : Coupling m n)
variable {p : Program} {ctx : Context} {ask : Nat → m Value} {ask' : Nat → n Value}

/-- To ask for the traits is to ask for one after the other. -/
theorem satisfied (htraits : ∀ slot ∈ p.traitSlots, C.Rel (ask slot) (ask' slot)) :
    C.Rel (p.satisfied ask) (p.satisfied ask') := by
  apply C.foldlM
  intro names slot hslot
  exact C.bind (htraits slot hslot) fun v => C.pure _

variable [LawfulMonad m] [LawfulMonad n] [MonadExceptOf Fault m] [MonadExceptOf Fault n]

/-- Two derivations of a slot are coupled if the traits are, as far as there is a table
to ask for them, and the code that is run in the end. -/
theorem derive {entry : Slot}
    (htraits : entry.table.isSome = true → ∀ slot ∈ p.traitSlots, C.Rel (ask slot) (ask' slot))
    (hcode : C.Rel (entry.code.eval ctx ask) (entry.code.eval ctx ask'))
    (hrow : ∀ table satisfied, entry.table = some table →
      ∃ row, table.pickRow satisfied = .ok row ∧
        C.Rel (row.resolver.code.eval ctx ask) (row.resolver.code.eval ctx ask')) :
    C.Rel (p.derive ctx ask entry) (p.derive ctx ask' entry) := by
  unfold Program.derive
  cases htable : entry.table with
  | none => exact C.bind hcode fun v => C.pure _
  | some table =>
      refine C.bind (C.satisfied (htraits (by simp [htable]))) fun satisfied => ?_
      obtain ⟨row, hpick, hcoupled⟩ := hrow table satisfied htable
      have hrun := C.bind hcoupled fun v => C.pure (v, row.resolver.description)
      simpa [hpick, liftExcept] using hrun

end Derive

/-! ## Couplings for faults -/

/-- Evaluation that stops with nothing but the faults allowed. -/
def stopsWith (Allowed : Fault → Prop) : Coupling (Except Fault) (Except Fault) where
  Rel x _ := ∀ fault, x = .error fault → Allowed fault
  pure _ := nofun
  bind {_ _ x y f g} hx hf fault h := by
    cases x with
    | error fault' =>
      cases h
      exact hx fault rfl
    | ok a => exact hf a fault h

/-! ## Couplings with memory -/

variable {σ : Type}

theorem run_bind {α β : Type} (x : ExceptT Fault (StateM σ) α)
    (f : α → ExceptT Fault (StateM σ) β) (s : σ) :
    (x >>= f).run s =
      match x.run s with
      | (.ok a, s) => (f a).run s
      | (.error fault, s) => (.error fault, s) := by
  show ExceptT.bindCont f (x.run s).1 (x.run s).2 = _
  rcases x.run s with ⟨fault | a, s⟩ <;> rfl

/-- With memory evaluation gives no value that it does not give without, as long as the
state is as it should be. -/
def recalls (Inv : σ → Prop) : Coupling (ExceptT Fault (StateM σ)) (Except Fault) where
  Rel x y := ∀ s, Inv s → Inv (x.run s).2 ∧ ∀ a, (x.run s).1 = .ok a → y = .ok a
  pure a s hs := ⟨hs, fun _ h => h⟩
  bind {_ _ x y f g} hx hf s hs := by
    obtain ⟨hinv, hvalue⟩ := hx s hs
    rw [run_bind]
    rcases hrun : x.run s with ⟨fault | a, s'⟩
    · rw [hrun] at hinv
      exact ⟨hinv, nofun⟩
    · rw [hrun] at hinv hvalue
      rw [hvalue a rfl]
      exact hf a s' hinv

/-- With memory evaluation gives every value that it gives without, unless it stops with
a fault that is excused, as long as the state is as it should be. -/
def attains (Inv : σ → Prop) (Excused : Fault → Prop) :
    Coupling (ExceptT Fault (StateM σ)) (Except Fault) where
  Rel x y := ∀ s, Inv s → Inv (x.run s).2 ∧ ∀ a, y = .ok a →
    (x.run s).1 = .ok a ∨ ∃ fault, (x.run s).1 = .error fault ∧ Excused fault
  pure a s hs := ⟨hs, fun _ h => .inl h⟩
  bind {_ _ x y f g} hx hf s hs := by
    obtain ⟨hinv, hvalue⟩ := hx s hs
    rw [run_bind]
    rcases hrun : x.run s with ⟨fault | a, s'⟩
    · rw [hrun] at hinv hvalue
      refine ⟨hinv, fun b hb => ?_⟩
      obtain ⟨a, ha, -⟩ := bind_eq_ok_iff.1 hb
      exact (hvalue a ha).elim nofun fun ⟨_, hfault, hexcused⟩ => by
        cases hfault
        exact .inr ⟨fault, rfl, hexcused⟩
    · rw [hrun] at hinv hvalue
      refine ⟨(hf a s' hinv).1, fun b hb => ?_⟩
      obtain ⟨a', ha', hb⟩ := bind_eq_ok_iff.1 hb
      obtain rfl : a = a' := (hvalue a' ha').elim Except.ok.inj nofun
      exact (hf a s' hinv).2 b hb

/-- From any two states that are as they should be, evaluation has the same outcome. -/
def sameOutcome (Inv : σ → Prop) :
    Coupling (ExceptT Fault (StateM σ)) (ExceptT Fault (StateM σ)) where
  Rel x y := ∀ s t, Inv s → Inv t →
    (x.run s).1 = (y.run t).1 ∧ Inv (x.run s).2 ∧ Inv (y.run t).2
  pure a s t hs ht := ⟨rfl, hs, ht⟩
  bind {_ _ x y f g} hx hf s t hs ht := by
    obtain ⟨hsame, hs', ht'⟩ := hx s t hs ht
    rw [run_bind, run_bind]
    rcases hx' : x.run s with ⟨fault | a, s'⟩
    · rcases hy' : y.run t with ⟨fault' | b, t'⟩ <;> rw [hx', hy'] at hsame <;> cases hsame
      rw [hx'] at hs'
      rw [hy'] at ht'
      exact ⟨rfl, hs', ht'⟩
    · rcases hy' : y.run t with ⟨fault' | b, t'⟩ <;> rw [hx', hy'] at hsame <;> cases hsame
      rw [hx'] at hs'
      rw [hy'] at ht'
      exact hf a s' t' hs' ht'

/-- Evaluation with memory keeps the state as it should be and stops with nothing but
the faults allowed. -/
def keeps (Inv : σ → Prop) (Allowed : Fault → Prop) :
    Coupling (ExceptT Fault (StateM σ)) (ExceptT Fault (StateM σ)) where
  Rel x _ := ∀ s, Inv s → Inv (x.run s).2 ∧ ∀ fault, (x.run s).1 = .error fault → Allowed fault
  pure a s hs := ⟨hs, nofun⟩
  bind {_ _ x y f g} hx hf s hs := by
    obtain ⟨hinv, hfault⟩ := hx s hs
    rw [run_bind]
    rcases hrun : x.run s with ⟨fault | a, s'⟩
    · rw [hrun] at hinv hfault
      exact ⟨hinv, fun fault hrest => hfault fault (by cases hrest; rfl)⟩
    · rw [hrun] at hinv
      exact hf a s' hinv

theorem keeps_throw {Inv : σ → Prop} {Allowed : Fault → Prop} {α : Type} {fault : Fault}
    (h : Allowed fault) :
    (keeps Inv Allowed).Rel (throw fault : ExceptT Fault (StateM σ) α) (throw fault) := by
  intro s hs
  refine ⟨hs, fun fault' hfault => ?_⟩
  cases hfault
  exact h

end Coupling

namespace Progress

theorem memo_note (progress : Progress) (slot : Nat) :
    (progress.note slot).memo = progress.memo := by
  rw [note]
  split <;> rfl

/-- To ask for a slot is to look it up in what is remembered so far. -/
theorem run_ask (lookUp : Nat → Memo → Except Fault Value × Memo) (slot : Nat)
    (progress : Progress) :
    ((ask lookUp slot).run progress).1 = (lookUp slot progress.memo).1 ∧
      ((ask lookUp slot).run progress).2.memo = (lookUp slot progress.memo).2 := by
  rw [← memo_note progress slot]
  exact ⟨rfl, rfl⟩

theorem finish_ok (slot : Nat) (v : Value) (text : String) (progress : Progress) :
    finish slot (.ok (v, text), progress) =
      (.ok v, ⟨slot, v, text, progress.consulted⟩ :: progress.memo) := rfl

/-- What a slot comes to is what its derivation comes to. -/
theorem finish_fst (slot : Nat) (run : Except Fault (Value × String) × Progress) :
    (finish slot run).1 = run.1.map Prod.fst := by
  rcases run with ⟨fault | ⟨v, text⟩, progress⟩ <;> rfl

end Progress

/-! ### Asking inside a slot

To ask for a slot from inside of another is coupled with what the look-up is coupled
with: what is noted on the way is no part of what is remembered. -/

namespace Coupling

variable {Inv : Memo → Prop} {lookUp lookUp' : Nat → ExceptT Fault (StateM Memo) Value}
  {next : Nat} {y : Except Fault Value}

/-- What a look-up keeps and gives is kept and given to who asks. -/
theorem run_ask_of_lookUp {Q : Except Fault Value → Prop}
    (h : ∀ memo, Inv memo → Inv (lookUp next memo).2 ∧ Q (lookUp next memo).1) :
    ∀ progress : Progress, Inv progress.memo →
      Inv ((Progress.ask lookUp next).run progress).2.memo ∧
        Q ((Progress.ask lookUp next).run progress).1 := by
  intro progress hprogress
  obtain ⟨hvalue, hafter⟩ := Progress.run_ask lookUp next progress
  rw [hvalue, hafter]
  exact h progress.memo hprogress

theorem recalls_ask (h : (recalls Inv).Rel (lookUp next) y) :
    (recalls fun progress => Inv progress.memo).Rel (Progress.ask lookUp next) y :=
  run_ask_of_lookUp (Q := fun r => ∀ a, r = .ok a → y = .ok a) h

theorem attains_ask {Excused : Fault → Prop} (h : (attains Inv Excused).Rel (lookUp next) y) :
    (attains (fun progress => Inv progress.memo) Excused).Rel (Progress.ask lookUp next) y :=
  run_ask_of_lookUp
    (Q := fun r => ∀ a, y = .ok a → r = .ok a ∨ ∃ fault, r = .error fault ∧ Excused fault) h

theorem keeps_ask {Allowed : Fault → Prop}
    (h : (keeps Inv Allowed).Rel (lookUp next) (lookUp next)) :
    (keeps (fun progress => Inv progress.memo) Allowed).Rel (Progress.ask lookUp next)
      (Progress.ask lookUp next) :=
  run_ask_of_lookUp (Q := fun r => ∀ fault, r = .error fault → Allowed fault) h

theorem sameOutcome_ask (h : (sameOutcome Inv).Rel (lookUp next) (lookUp' next)) :
    (sameOutcome fun progress => Inv progress.memo).Rel (Progress.ask lookUp next)
      (Progress.ask lookUp' next) := by
  intro progress progress' hprogress hprogress'
  obtain ⟨hvalue, hafter⟩ := Progress.run_ask lookUp next progress
  obtain ⟨hvalue', hafter'⟩ := Progress.run_ask lookUp' next progress'
  simp only [hvalue, hafter, hvalue', hafter']
  exact h progress.memo progress'.memo hprogress hprogress'

end Coupling

/-! ## Deriving in an accepted program -/

namespace Schema.Accepted

variable {schema : Schema} {registry : Registry} {p : Program}
  (h : schema.Accepted registry p)
variable {m n : Type → Type} [Monad m] [Monad n] [MonadExceptOf Fault m] [MonadExceptOf Fault n]
  (C : Coupling m n) {ctx : Context} {ask : Nat → m Value} {ask' : Nat → n Value}

include h

/-- What stands in a declaration runs into nothing but missing fields and failing
calls, the other slots apart. -/
theorem coupled_eval (hask : ∀ slot < p.size, C.Rel (ask slot) (ask' slot))
    (hfield : ∀ field, C.Rel (throw (.missingField field ctx.keys) : m Value)
      (throw (.missingField field ctx.keys) : n Value))
    (hcall : ∀ function message, C.Rel (throw (.call function message) : m Value)
      (throw (.call function message) : n Value))
    {name : String} {e part : Expr} (he : schema.Declares name e)
    (hpart : ∀ x ∈ part.nodes, x ∈ e.nodes ∨ x = .literal .null) :
    C.Rel ((Code.ofExpr registry p.analysis.order part).eval ctx ask)
      ((Code.ofExpr registry p.analysis.order part).eval ctx ask') := by
  rw [Code.eval_ofExpr, Code.eval_ofExpr]
  apply C.meaning
  intro x hx
  cases x with
  | field field => exact C.readField fun _ => hfield field
  | binding target =>
      have hnode : .binding target ∈ e.nodes := (hpart _ hx).resolve_right nofun
      have hdeclared := h.declared name target ⟨e, he, hnode⟩
      obtain ⟨slot, hslot⟩ := h.exists_slotOf? hdeclared
      have hposition : lastPosition? target p.analysis.order = some slot :=
        (lastPosition?_eq_some_iff h.order_nodup).2 (h.slotOf?_eq_some_iff.1 hslot)
      show C.Rel (Code.bySlot _ _ _) (Code.bySlot _ _ _)
      rw [Code.bySlot_of_some hposition, Code.bySlot_of_some hposition]
      exact hask slot (Program.lt_size_of_slotOf? hslot)
  | call function args =>
      have hnode : .call function args ∈ e.nodes := (hpart _ hx).resolve_right nofun
      obtain ⟨f, hf, -⟩ := h.callable name e function args he hnode
      exact C.applyFunction hf (hcall function)
  | _ => trivial

/-- To derive the value of a slot runs into nothing else either: a table always has a
row that fits. -/
theorem coupled_derive [LawfulMonad m] [LawfulMonad n]
    (hask : ∀ slot < p.size, C.Rel (ask slot) (ask' slot))
    (hfield : ∀ field, C.Rel (throw (.missingField field ctx.keys) : m Value)
      (throw (.missingField field ctx.keys) : n Value))
    (hcall : ∀ function message, C.Rel (throw (.call function message) : m Value)
      (throw (.call function message) : n Value))
    {slot : Nat} {entry : Slot} (hentry : p.slots[slot]? = some entry) :
    C.Rel (p.derive ctx ask entry) (p.derive ctx ask' entry) := by
  obtain ⟨d, hd, e, hexpression, -, rfl⟩ := h.exists_slotFor hentry
  have he : schema.Declares d.name e := ⟨d, hd, rfl, hexpression⟩
  apply C.derive
  · intro _ slot hslot
    exact hask slot (Program.lt_size_of_mem_traitSlots hslot)
  · exact h.coupled_eval C hask hfield hcall he fun x hx => .inl hx
  · intro table satisfied htable
    obtain ⟨cases, otherwise, rfl, hrows⟩ := tableOf_of_slotFor htable
    obtain ⟨row, -, hpick⟩ := hrows.exists_pickRow satisfied
    refine ⟨row, hpick, ?_⟩
    rw [hrows.code_of_pickRow hpick]
    exact h.coupled_eval C hask hfield hcall he fun x hx => mem_nodes_of_mem_nodes_resultAt hx

end Schema.Accepted

/-! ## Explanations -/

/-- A node stands in a tree. -/
inductive Explanation.Has : Explanation → Explanation → Prop
  | root (tree : Explanation) : Has tree tree
  | within {tree child node : Explanation} : child ∈ tree.dependencies → Has child node →
      Has tree node

/-- Every node of a tree tells something that is remembered, and the nodes below it tell
what was remembered before it. -/
theorem Memo.exists_derivation_of_has {p : Program} {memo : Memo} {slot : Nat}
    {tree node : Explanation} (h : memo.explanation? p slot = some tree)
    (hnode : tree.Has node) :
    ∃ d older entry, d :: older <:+ memo ∧ p.slots[d.slot]? = some entry ∧
      node = ⟨entry.name, entry.kind, d.value, d.resolver,
        d.consulted.filterMap (explanation? p older)⟩ := by
  induction memo generalizing slot tree with
  | nil => cases h
  | cons d older ih =>
      have hlater : ∀ {slot tree}, Memo.explanation? p older slot = some tree → tree.Has node →
          ∃ d' older' entry, d' :: older' <:+ d :: older ∧ p.slots[d'.slot]? = some entry ∧
            node = ⟨entry.name, entry.kind, d'.value, d'.resolver,
              d'.consulted.filterMap (explanation? p older')⟩ := by
        intro slot tree htree hhas
        obtain ⟨d', older', entry, hsuffix, hentry⟩ := ih htree hhas
        exact ⟨d', older', entry, hsuffix.trans (List.suffix_cons _ _), hentry⟩
      unfold explanation? at h
      split at h
      · rename_i hslot
        obtain ⟨entry, hentry, rfl⟩ := Option.map_eq_some_iff.1 h
        cases hnode with
        | root => exact ⟨d, older, entry, List.suffix_refl _, hslot ▸ hentry, rfl⟩
        | within hchild hhas =>
            obtain ⟨dependency, -, hdependency⟩ := List.mem_filterMap.1 hchild
            exact hlater hdependency hhas
      · exact hlater h hnode

/-- What is remembered of a slot can be told. -/
theorem Memo.exists_explanation {p : Program} {memo : Memo} {slot : Nat} {d : Derivation}
    {entry : Slot} (h : memo.entry? slot = some d) (hentry : p.slots[slot]? = some entry) :
    ∃ older, d :: older <:+ memo ∧ memo.explanation? p slot =
      some ⟨entry.name, entry.kind, d.value, d.resolver,
        d.consulted.filterMap (explanation? p older)⟩ := by
  induction memo with
  | nil => cases h
  | cons newest before ih =>
      rw [explanation?]
      by_cases hslot : newest.slot = slot
      · unfold entry? at h
        rw [List.find?_cons_of_pos (by simpa using hslot)] at h
        cases h
        rw [if_pos hslot, hentry]
        exact ⟨before, List.suffix_refl _, rfl⟩
      · rw [if_neg hslot]
        unfold entry? at h
        rw [List.find?_cons_of_neg (by simpa using hslot)] at h
        obtain ⟨older, hsuffix, htold⟩ := ih h
        exact ⟨older, hsuffix.trans (List.suffix_cons _ _), htold⟩

/-- What resolving a slot gives is remembered. -/
theorem Program.entry?_of_resolveWith {p : Program} {ctx : Context} :
    ∀ walk slot memo v, (p.resolveWith ctx walk slot memo).1 = .ok v →
      ∃ d, Memo.entry? (p.resolveWith ctx walk slot memo).2 slot = some d ∧ d.value = v := by
  apply resolveWith_induction (P := fun _ slot _ r => ∀ v, r.1 = .ok v →
    ∃ d, Memo.entry? r.2 slot = some d ∧ d.value = v)
  · intro walk slot memo d hd v hv
    exact ⟨d, hd, Except.ok.inj hv⟩
  · intro walk slot memo _ v hv
    cases hv
  · intro walk slot memo entry _ _ v hv
    cases hv
  · intro walk slot memo entry _ _ _ _ v hv
    rcases hrun : (p.derive ctx (Progress.ask (p.resolveWith ctx (slot :: walk))) entry).run
      ⟨memo, []⟩ with ⟨fault | ⟨w, text⟩, progress⟩
    · rw [hrun] at hv
      cases hv
    · rw [hrun] at hv
      cases hv
      exact ⟨_, List.find?_cons_of_pos (by simp), rfl⟩

/-! ## Runs -/

namespace Session

variable {s s' : Session} {name : String}

/-- A call on a session, with the session it leaves behind. -/
inductive Step (s : Session) : Session → Prop
  | resolve (name : String) : Step s (s.resolve name).2
  | satisfiedTraits : Step s s.satisfiedTraits.2
  | explain (name : String) : Step s (s.explain name).2

/-- Any number of calls lead from the first session to the second. -/
def Later : Session → Session → Prop := Relation.ReflTransGen Step

theorem resolve_of_slotOf? {slot : Nat} (hslot : s.program.slotOf? name = some slot) :
    s.resolve name = ((s.program.resolveWith s.context [] slot s.memo).1,
      { s with memo := (s.program.resolveWith s.context [] slot s.memo).2 }) := by
  rw [resolve, Program.slotOf, hslot]

theorem resolve_of_slotOf?_eq_none (hslot : s.program.slotOf? name = none) :
    s.resolve name = (.error (.unknownBinding name), s) := by
  rw [resolve, Program.slotOf, hslot]

/-- To explain a name changes the session as to resolve it does. -/
theorem explain_snd : (s.explain name).2 = (s.resolve name).2 := by
  unfold explain
  rcases s.resolve name with ⟨fault | v, s'⟩
  · rfl
  · cases htree : (s'.program.slotOf? name).bind (s'.memo.explanation? s'.program) <;>
      simp [htree]

/-- A name that fails to resolve fails to be explained, for the same reason. -/
theorem explain_of_error {fault : Fault} (h : (s.resolve name).1 = .error fault) :
    (s.explain name).1 = .error fault := by
  unfold explain
  rcases hresolve : s.resolve name with ⟨fault' | v, s'⟩
  · rw [hresolve] at h
    cases h
    rfl
  · rw [hresolve] at h
    cases h

/-- A name that resolves can be explained. -/
theorem exists_tree_of_ok {v : Value} {slot : Nat} {entry : Slot}
    (hslot : s.program.slotOf? name = some slot) (hentry : s.program.slots[slot]? = some entry)
    (h : (s.resolve name).1 = .ok v) : ∃ tree, (s.explain name).1 = .ok tree := by
  unfold explain
  rw [resolve_of_slotOf? hslot] at h ⊢
  obtain ⟨d, hd, -⟩ := Program.entry?_of_resolveWith [] slot s.memo v h
  obtain ⟨older, -, htree⟩ := Memo.exists_explanation hd hentry
  simp only at h ⊢
  rw [h]
  simp only [hslot, Option.bind_some, htree]
  exact ⟨_, rfl⟩

/-- The tree of a name tells what is remembered after resolving it. -/
theorem explanation?_of_explain {tree : Explanation} (h : (s.explain name).1 = .ok tree) :
    ∃ slot, (s.resolve name).2.program.slotOf? name = some slot ∧
      (s.resolve name).2.memo.explanation? (s.resolve name).2.program slot = some tree := by
  unfold explain at h
  rcases hresolve : s.resolve name with ⟨fault | v, s'⟩
  · rw [hresolve] at h
    cases h
  · rw [hresolve] at h
    cases htree : (s'.program.slotOf? name).bind (s'.memo.explanation? s'.program) with
    | none => simp [htree] at h
    | some tree' =>
        simp only [htree, Except.ok.injEq] at h
        subst h
        exact Option.bind_eq_some_iff.1 htree

/-- To ask for the traits stops with the fault of one of them. -/
theorem of_error_of_satisfiedTraits {P : Fault → Prop} {fault : Fault}
    (hslot : ∀ slot ∈ s.program.traitSlots, ∀ memo fault,
      (s.program.resolveWith s.context [] slot memo).1 = .error fault → P fault)
    (h : s.satisfiedTraits.1 = .error fault) : P fault := by
  let ask (slot : Nat) : ExceptT Fault (StateM Memo) Value :=
    s.program.resolveWith s.context [] slot
  have hask : ∀ slot ∈ s.program.traitSlots,
      (Coupling.keeps (fun _ => True) P).Rel (ask slot) (ask slot) :=
    fun slot hmem memo _ => ⟨trivial, hslot slot hmem memo⟩
  exact ((Coupling.keeps (fun _ => True) P).satisfied hask s.memo trivial).2 fault h

/-- What resolving a slot keeps is kept by every call. -/
theorem Step.keeps {P : Memo → Prop} (hstep : Step s s')
    (hkeeps : ∀ slot memo, P memo → P (s.program.resolveWith s.context [] slot memo).2)
    (hmemo : P s.memo) :
    s'.program = s.program ∧ s'.context = s.context ∧ P s'.memo := by
  have hresolve : ∀ name, (s.resolve name).2.program = s.program ∧
      (s.resolve name).2.context = s.context ∧ P (s.resolve name).2.memo := by
    intro name
    cases hslot : s.program.slotOf? name with
    | none =>
        rw [resolve_of_slotOf?_eq_none hslot]
        exact ⟨rfl, rfl, hmemo⟩
    | some slot =>
        rw [resolve_of_slotOf? hslot]
        exact ⟨rfl, rfl, hkeeps slot s.memo hmemo⟩
  cases hstep with
  | resolve name => exact hresolve name
  | satisfiedTraits =>
      let ask (slot : Nat) : ExceptT Fault (StateM Memo) Value :=
        s.program.resolveWith s.context [] slot
      have hask : ∀ slot, (Coupling.keeps P fun _ => True).Rel (ask slot) (ask slot) :=
        fun slot memo hm => ⟨hkeeps slot memo hm, fun _ _ => trivial⟩
      have hall := (Coupling.keeps P fun _ => True).satisfied (p := s.program)
        fun slot _ => hask slot
      exact ⟨rfl, rfl, (hall s.memo hmemo).1⟩
  | explain name =>
      rw [explain_snd]
      exact hresolve name

/-- What resolving a slot keeps is kept by every run. -/
theorem Later.keeps {P : Memo → Prop} (hlater : Later s s')
    (hkeeps : ∀ slot memo, P memo → P (s.program.resolveWith s.context [] slot memo).2)
    (hmemo : P s.memo) :
    s'.program = s.program ∧ s'.context = s.context ∧ P s'.memo := by
  induction hlater with
  | refl => exact ⟨rfl, rfl, hmemo⟩
  | tail _ hstep ih =>
      obtain ⟨hprogram, hcontext, hmemo⟩ := ih
      rw [← hprogram, ← hcontext] at hkeeps ⊢
      exact hstep.keeps hkeeps hmemo

end Session

/-- A session opens over a mapping, with nothing remembered. -/
theorem Program.session_eq_ok_iff {p : Program} {ctx : Context} {s : Session} :
    p.session ctx = .ok s ↔ ctx.isMapping = true ∧ s = ⟨p, ctx, []⟩ := by
  unfold session Context.check
  by_cases hctx : ctx.isMapping = true
  · simp [hctx, bind, Except.bind, pure, Except.pure, eq_comm]
  · simp [hctx, bind, Except.bind]

end Rulebook
