/-
# Sessions and plain values

A session keeps what it has evaluated, asks for all traits where plain evaluation
asks for some, and takes a row of a table where plain evaluation tries conditions.
None of this shows in what it reports, as long as no trait is a list: whatever a
session gives, remembers or tells is the plain value. The converse is not claimed; a
session may fail where plain evaluation does not.
-/

import Rulebook.Proofs.Sessions

namespace Rulebook

/-- Every slot is remembered with its plain value. -/
def Memo.Truthful (p : Program) (ctx : Context) (memo : Memo) : Prop :=
  ∀ d ∈ memo, p.resolve ctx [] d.slot = .ok d.value

theorem Memo.Truthful.of_entry? {p : Program} {ctx : Context} {memo : Memo}
    (h : memo.Truthful p ctx) {slot : Nat} {d : Derivation} (hd : memo.entry? slot = some d) :
    p.resolve ctx [] slot = .ok d.value := by
  have hslot : d.slot = slot := by simpa using List.find?_some hd
  rw [← hslot]
  exact h d (List.mem_of_find?_eq_some hd)

/-! ## The true traits -/

namespace Program

variable {p : Program} {ask : Nat → Except Fault Value}

/-- Every slot asked for has a value, and the names collected are those of the true
ones. -/
theorem of_satisfied {satisfied : NameSet} (h : p.satisfied ask = .ok satisfied) :
    (∀ slot ∈ p.traitSlots, ∃ v, ask slot = .ok v) ∧
    ∀ name, name ∈ satisfied ↔
      ∃ slot ∈ p.traitSlots, p.slotName slot = name ∧
        ∃ v, ask slot = .ok v ∧ v.isTruthy = true := by
  -- The fold starts from any set: what it ends with is that and the true ones.
  suffices hfold : ∀ (slots : List Nat) (start : NameSet),
      slots.foldlM (fun names slot => do
        return if (← ask slot).isTruthy then names.add (p.slotName slot) else names) start =
          .ok satisfied →
      (∀ slot ∈ slots, ∃ v, ask slot = .ok v) ∧
      ∀ name, name ∈ satisfied ↔ name ∈ start ∨
        ∃ slot ∈ slots, p.slotName slot = name ∧ ∃ v, ask slot = .ok v ∧ v.isTruthy = true by
    simpa using hfold p.traitSlots ∅ h
  intro slots
  induction slots with
  | nil =>
      intro start hstart
      cases hstart
      simp
  | cons slot rest ih =>
      intro start hrun
      rw [List.foldlM_cons, bind_eq_ok_iff] at hrun
      obtain ⟨next, hnext, hrest⟩ := hrun
      obtain ⟨v, hv, hadd⟩ := bind_eq_ok_iff.1 hnext
      obtain ⟨hvalues, hnames⟩ := ih next hrest
      refine ⟨List.forall_mem_cons.2 ⟨⟨v, hv⟩, hvalues⟩, fun name => ?_⟩
      have hnext : name ∈ next ↔
          name ∈ start ∨ p.slotName slot = name ∧ v.isTruthy = true := by
        cases hadd
        by_cases htrue : v.isTruthy = true
        · simp [htrue, eq_comm, or_comm]
        · simp [htrue]
      rw [hnames, hnext]
      simp only [List.mem_cons, or_and_right, exists_or, exists_eq_left, hv, Except.ok.injEq,
        exists_eq_left', or_assoc]

end Program

namespace Schema.Accepted

variable {schema : Schema} {registry : Registry} {p : Program} {ctx : Context}
  (h : schema.Accepted registry p) (hctx : ctx.isMapping = true)

include h hctx

/-- Asked without memory, the traits that are reported true are the true ones. -/
theorem trueTraits_satisfied {satisfied : NameSet}
    (hsat : p.satisfied (p.resolve ctx []) = .ok satisfied) :
    schema.TrueTraits (p.evaluateBinding ctx) satisfied := by
  obtain ⟨hvalues, hnames⟩ := Program.of_satisfied hsat
  constructor
  · intro name hname
    obtain ⟨slot, hslot, rfl, -⟩ := (hnames name).1 hname
    obtain ⟨entry, hentry, hkind⟩ := Program.mem_traitSlots.1 hslot
    rw [Program.slotName_eq hentry, ← hkind]
    exact h.declaresKind_slot hentry
  · intro name hname
    obtain ⟨slot, entry, hentry, rfl, hkind, -⟩ := h.exists_slot_of_declaresKind hname
    have hslot : slot ∈ p.traitSlots := Program.mem_traitSlots.2 ⟨entry, hentry, hkind⟩
    obtain ⟨v, hv⟩ := hvalues slot hslot
    refine ⟨v, (h.evaluateBinding_slot hctx hentry).trans hv, ?_⟩
    rw [hnames]
    constructor
    · rintro ⟨other, hother, hname', w, hw, htrue⟩
      obtain ⟨entry', hentry', -⟩ := Program.mem_traitSlots.1 hother
      rw [Program.slotName_eq hentry'] at hname'
      rw [← h.evaluateBinding_slot hctx hentry', hname', h.evaluateBinding_slot hctx hentry,
        hv] at hw
      rw [Except.ok.inj hw]
      exact htrue
    · intro htrue
      exact ⟨slot, hslot, Program.slotName_eq hentry, v, hv, htrue⟩

/-! ## One slot -/

variable (hbuiltin : registry.BuiltinConjunctions)
  (hlists : ∀ name items, schema.DeclaresKind .trait name →
    p.evaluateBinding ctx name ≠ .ok (.list items))

include hbuiltin hlists

/-- The picked row is what the cascade of a table comes to. -/
theorem eval_of_pickRow {name : String} {cases : List Case} {otherwise : Option Expr}
    (he : schema.Declares name (.cascade cases otherwise)) {table : DecisionTable Branch}
    (htable : schema.TableOf registry p.analysis.order cases otherwise table)
    {satisfied : NameSet} (hsat : schema.TrueTraits (p.evaluateBinding ctx) satisfied)
    {row : Row Branch} (hpick : table.pickRow satisfied = .ok row) :
    (Code.ofExpr registry p.analysis.order (.cascade cases otherwise)).eval ctx
        (p.resolve ctx []) =
      row.resolver.code.eval ctx (p.resolve ctx []) := by
  have hspread : ∀ c ∈ cases, ¬ SpreadsFalse (p.evaluateBinding ctx) c.condition := by
    intro c hc hspreads
    obtain ⟨i, hi, rfl⟩ := List.getElem_of_mem hc
    obtain ⟨_, -, hrequired, -⟩ := htable.case_row i _ (List.getElem?_eq_getElem hi)
    obtain ⟨trait, items, htrait, hvalue⟩ := hspreads.exists_trait hrequired
    exact hlists trait items htrait hvalue
  have hdeclared : ∀ target, .binding target ∈ (Expr.cascade cases otherwise).nodes →
      target ∈ schema.names := fun target htarget => h.declared _ target ⟨_, he, htarget⟩
  have hpicked : ∀ target,
      .binding target ∈ (resultAt cases otherwise (table.picked satisfied)).nodes →
      target ∈ schema.names := fun target htarget =>
    hdeclared target ((mem_nodes_of_mem_nodes_resultAt htarget).resolve_right nofun)
  rw [htable.code_of_pickRow hpick, h.eval_ofExpr hctx hdeclared, h.eval_ofExpr hctx hpicked]
  exact htable.meaning_eq_of_not_spreadsFalse hsat hbuiltin ctx hspread

/-- What is derived for a slot from plain values is its plain value, from a table as from
its code. -/
theorem resolve_of_derive {slot : Nat} {entry : Slot} (hentry : p.slots[slot]? = some entry)
    {v : Value} {text : String} (hderive : p.derive ctx (p.resolve ctx []) entry = .ok (v, text)) :
    p.resolve ctx [] slot = .ok v := by
  rw [h.resolve_eq_eval hentry]
  unfold Program.derive at hderive
  cases htable : entry.table with
  | none =>
      simp only [htable] at hderive
      obtain ⟨w, hw, heq⟩ := bind_eq_ok_iff.1 hderive
      cases heq
      exact hw
  | some table =>
      simp only [htable] at hderive
      obtain ⟨satisfied, hsatisfied, hrest⟩ := bind_eq_ok_iff.1 hderive
      obtain ⟨row, hrow, hrun⟩ := bind_eq_ok_iff.1 hrest
      obtain ⟨w, hw, heq⟩ := bind_eq_ok_iff.1 hrun
      cases heq
      have hsat := h.trueTraits_satisfied hctx hsatisfied
      obtain ⟨d, hd, e, hexpression, -, rfl⟩ := h.exists_slotFor hentry
      obtain ⟨cases, otherwise, rfl, hrows⟩ := tableOf_of_slotFor htable
      obtain ⟨picked, -, hpick⟩ := hrows.exists_pickRow satisfied
      rw [hpick] at hrow
      cases hrow
      have he : schema.Declares d.name (.cascade cases otherwise) := ⟨d, hd, rfl, hexpression⟩
      exact (h.eval_of_pickRow hctx hbuiltin hlists he hrows hsat hpick).trans hw

/-- Resolving a slot keeps what is remembered truthful, and gives nothing but its plain
value. -/
theorem truthful_resolveWith : ∀ walk slot memo, memo.Truthful p ctx →
    (p.resolveWith ctx walk slot memo).2.Truthful p ctx ∧
      ∀ v, (p.resolveWith ctx walk slot memo).1 = .ok v → p.resolve ctx [] slot = .ok v := by
  apply Program.resolveWith_induction (P := fun _ slot memo r => memo.Truthful p ctx →
    r.2.Truthful p ctx ∧ ∀ v, r.1 = .ok v → p.resolve ctx [] slot = .ok v)
  · intro walk slot memo d hd hmemo
    refine ⟨hmemo, fun v hv => ?_⟩
    rw [← hv]
    exact hmemo.of_entry? hd
  · intro walk slot memo _ hmemo
    exact ⟨hmemo, nofun⟩
  · intro walk slot memo entry _ _ hmemo
    exact ⟨hmemo, nofun⟩
  -- What is asked for inside the slot is recalled as it should be, so what is derived
  -- from it is what plain evaluation derives.
  · intro walk slot memo entry _ hentry _ ih hmemo
    have hask : ∀ next, (Coupling.recalls fun progress => progress.memo.Truthful p ctx).Rel
        (Progress.ask (p.resolveWith ctx (slot :: walk)) next) (p.resolve ctx [] next) :=
      fun next => Coupling.recalls_ask (ih next)
    obtain ⟨hkept, hvalue⟩ := h.coupled_derive _ (fun next _ => hask next)
      (fun field progress hprogress => ⟨hprogress, nofun⟩)
      (fun function message progress hprogress => ⟨hprogress, nofun⟩) hentry ⟨memo, []⟩ hmemo
    rcases hrun : (p.derive ctx (Progress.ask (p.resolveWith ctx (slot :: walk))) entry).run
      ⟨memo, []⟩ with ⟨fault | ⟨v, text⟩, progress⟩
    · rw [hrun] at hkept
      exact ⟨hkept, nofun⟩
    · rw [hrun] at hkept hvalue
      have hplain := h.resolve_of_derive hctx hbuiltin hlists hentry (hvalue _ rfl)
      refine ⟨List.forall_mem_cons.2 ⟨hplain, hkept⟩, fun w hw => ?_⟩
      cases hw
      exact hplain

/-! ## Whole runs -/

variable {start s : Session} (hopen : p.session ctx = .ok start) (hlater : start.Later s)

include hopen hlater

/-- A run of a session keeps what is remembered truthful. -/
theorem truthful_of_later :
    s.program = p ∧ s.context = ctx ∧ s.memo.Truthful p ctx := by
  obtain ⟨-, rfl⟩ := Program.session_eq_ok_iff.1 hopen
  exact hlater.keeps
    (fun slot memo hmemo => (h.truthful_resolveWith hctx hbuiltin hlists [] slot memo hmemo).1)
    (fun d hd => absurd hd List.not_mem_nil)

/-- A name that resolves does so to its plain value. -/
theorem evaluateBinding_of_resolve {name : String} {v : Value}
    (hv : (s.resolve name).1 = .ok v) : p.evaluateBinding ctx name = .ok v := by
  obtain ⟨hprogram, hcontext, hmemo⟩ :=
    h.truthful_of_later hctx hbuiltin hlists hopen hlater
  cases hname : s.program.slotOf? name with
  | none =>
      rw [Session.resolve_of_slotOf?_eq_none hname] at hv
      cases hv
  | some slot =>
      rw [Session.resolve_of_slotOf? hname, hprogram, hcontext] at hv
      rw [hprogram] at hname
      rw [Program.evaluateBinding_eq_resolve hctx hname]
      exact (h.truthful_resolveWith hctx hbuiltin hlists [] slot s.memo hmemo).2 v hv

/-- Every node of an explanation tells the plain value of its name. -/
theorem evaluateBinding_of_explain {name : String} {tree node : Explanation}
    (htree : (s.explain name).1 = .ok tree) (hnode : tree.Has node) :
    p.evaluateBinding ctx node.name = .ok node.value := by
  obtain ⟨hprogram, -, hmemo⟩ := h.truthful_of_later hctx hbuiltin hlists hopen
    (hlater.tail (.resolve name))
  obtain ⟨slot, -, htold⟩ := Session.explanation?_of_explain htree
  obtain ⟨d, older, entry, hsuffix, hentry, rfl⟩ := Memo.exists_derivation_of_has htold hnode
  rw [hprogram] at hentry
  rw [h.evaluateBinding_slot hctx hentry]
  exact hmemo d (hsuffix.subset List.mem_cons_self)

/-- The traits that are reported true are the true ones. -/
theorem trueTraits_of_satisfiedTraits {satisfied : NameSet}
    (hsat : s.satisfiedTraits.1 = .ok satisfied) :
    schema.TrueTraits (p.evaluateBinding ctx) satisfied := by
  obtain ⟨hprogram, hcontext, hmemo⟩ :=
    h.truthful_of_later hctx hbuiltin hlists hopen hlater
  have hask : ∀ slot ∈ p.traitSlots, (Coupling.recalls fun memo => memo.Truthful p ctx).Rel
      (fun memo => p.resolveWith ctx [] slot memo) (p.resolve ctx [] slot) :=
    fun slot _ => h.truthful_resolveWith hctx hbuiltin hlists [] slot
  obtain ⟨-, hplain⟩ := Coupling.satisfied _ hask s.memo hmemo
  apply h.trueTraits_satisfied hctx
  apply hplain
  rw [← hsat, ← hprogram, ← hcontext]
  rfl

end Schema.Accepted

/-- A session only ever reports plain values. In a program with the builtin conjunctions,
over a context in which no trait is a list, whatever was called before: a value that
is resolved, or that stands at some node of an explanation, is the plain value of its
name, and the traits that are reported are the true ones. -/
theorem Schema.session_value_eq_plain {schema : Schema} {registry : Registry} {p : Program}
    {ctx : Context} (hp : schema.compile registry = .ok p)
    (hbuiltin : registry.BuiltinConjunctions)
    (hlists : ∀ name items, schema.DeclaresKind .trait name →
      p.evaluateBinding ctx name ≠ .ok (.list items))
    {start s : Session} (hopen : p.session ctx = .ok start) (hlater : start.Later s) :
    (∀ name v, (s.resolve name).1 = .ok v → p.evaluateBinding ctx name = .ok v) ∧
    (∀ name tree node, (s.explain name).1 = .ok tree → tree.Has node →
      p.evaluateBinding ctx node.name = .ok node.value) ∧
    ∀ satisfied, s.satisfiedTraits.1 = .ok satisfied →
      schema.TrueTraits (p.evaluateBinding ctx) satisfied := by
  have h := accepted_of_compile hp
  have hctx := (Program.session_eq_ok_iff.1 hopen).1
  refine ⟨?_, ?_, ?_⟩
  · intro name v hv
    exact h.evaluateBinding_of_resolve hctx hbuiltin hlists hopen hlater hv
  · intro name tree node htree hnode
    exact h.evaluateBinding_of_explain hctx hbuiltin hlists hopen hlater htree hnode
  · intro satisfied hsat
    exact h.trueTraits_of_satisfiedTraits hctx hbuiltin hlists hopen hlater hsat

namespace Example

/-- No trait of the small rulebook is a list. -/
theorem evaluateBinding_trait_ne_list {p : Program} (h : offers.Accepted .builtins p)
    (name : String) (items : List Value) (hname : offers.DeclaresKind .trait name) :
    p.evaluateBinding goldOverseas name ≠ .ok (.list items) := by
  have hgold : p.evaluateBinding goldOverseas "gold" = .ok (.bool true) :=
    h.evaluateBinding_of_meaning rfl (by decide)
      (rfl : offers.meaning .builtins goldOverseas 1 "gold" = some (.ok (.bool true)))
  have heu : p.evaluateBinding goldOverseas "eu" = .ok (.bool false) :=
    h.evaluateBinding_of_meaning rfl (by decide)
      (rfl : offers.meaning .builtins goldOverseas 1 "eu" = some (.ok (.bool false)))
  obtain ⟨d, hd, rfl, hkind⟩ := hname
  simp only [offers, Schema.declarations, List.cons_append, List.nil_append, List.append_nil,
    List.mem_cons, List.not_mem_nil, or_false] at hd
  rcases hd with rfl | rfl | rfl | rfl
  · cases hkind
  · cases hkind
  · rw [hgold]
    intro heq
    cases heq
  · rw [heu]
    intro heq
    cases heq

/-- A session that was asked for the traits, and why the fallback is what it is. -/
def askedBefore (start : Session) : Session := (start.satisfiedTraits.2.explain "fallback").2

/-- What a session on the small rulebook says about the offer after other calls: its value,
the value of a trait that stands below it in its explanation, and the traits that hold. All
of it is what plain evaluation gives. -/
theorem session_value_eq_plain_offers :
    ∃ p start tree node satisfied, offers.compile .builtins = .ok p ∧
      Registry.builtins.BuiltinConjunctions ∧
      (∀ name items, offers.DeclaresKind .trait name →
        p.evaluateBinding goldOverseas name ≠ .ok (.list items)) ∧
      p.session goldOverseas = .ok start ∧ start.Later (askedBefore start) ∧
      ((askedBefore start).resolve "offer").1 = .ok (.string "B") ∧
      p.evaluateBinding goldOverseas "offer" = .ok (.string "B") ∧
      ((askedBefore start).explain "offer").1 = .ok tree ∧ node ∈ tree.dependencies ∧
      node.name = "eu" ∧ node.value = .bool false ∧
      p.evaluateBinding goldOverseas "eu" = .ok (.bool false) ∧
      (askedBefore start).satisfiedTraits.1 = .ok satisfied ∧ satisfied.names = ["gold"] ∧
      offers.TrueTraits (p.evaluateBinding goldOverseas) satisfied := by
  have hruns : ((offers.compile .builtins).toOption.bind fun p =>
      (p.session goldOverseas).toOption.bind fun start =>
        ((askedBefore start).resolve "offer").1.toOption.bind fun offer =>
          ((askedBefore start).explain "offer").1.toOption.bind fun tree =>
            (tree.dependencies[0]?).bind fun node =>
              (askedBefore start).satisfiedTraits.1.toOption.map fun satisfied =>
                (offer.asString, node.name, node.value.asBool, satisfied.names)) =
      some (some "B", "eu", some false, ["gold"]) := by
    decide +kernel
  obtain ⟨p, hp, hruns⟩ := Option.bind_eq_some_iff.1 hruns
  obtain ⟨start, hopen, hruns⟩ := Option.bind_eq_some_iff.1 hruns
  obtain ⟨offer, hoffer, hruns⟩ := Option.bind_eq_some_iff.1 hruns
  obtain ⟨tree, htree, hruns⟩ := Option.bind_eq_some_iff.1 hruns
  obtain ⟨node, hnode, hruns⟩ := Option.bind_eq_some_iff.1 hruns
  obtain ⟨satisfied, hsatisfied, hruns⟩ := Option.map_eq_some_iff.1 hruns
  simp only [Prod.mk.injEq] at hruns
  obtain ⟨htext, hname, hverdict, htraits⟩ := hruns
  rw [toOption_eq_some_iff] at hp hopen hoffer htree hsatisfied
  obtain rfl := Value.asString_eq_some_iff.1 htext
  have hfalse : node.value = .bool false := Value.asBool_eq_some_iff.1 hverdict
  have hmem : node ∈ tree.dependencies := List.mem_of_getElem? hnode
  have hbuiltin := Registry.builtinConjunctions_builtins
  have hlists := evaluateBinding_trait_ne_list (Schema.accepted_of_compile hp)
  have hlater : start.Later (askedBefore start) :=
    .tail (.single .satisfiedTraits) (.explain "fallback")
  obtain ⟨hvalues, hnodes, hreported⟩ :=
    Schema.session_value_eq_plain hp hbuiltin hlists hopen hlater
  have heu := hnodes "offer" tree node htree (.within hmem (.root node))
  rw [hname, hfalse] at heu
  exact ⟨p, start, tree, node, satisfied, hp, hbuiltin, hlists, hopen, hlater, hoffer,
    hvalues "offer" _ hoffer, htree, hmem, hname, hfalse, heu, hsatisfied, htraits,
    hreported satisfied hsatisfied⟩

end Example

end Rulebook
