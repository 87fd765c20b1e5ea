/-
# Slots and declarations

What is compiled, said without the compiler: which slot stands for which name, which
declaration it is compiled from, and what its references are wired to. Whatever passes gave
the order, there is one slot for each place in it, and a name is reached at its last place.
Under the standard analysis slots and declarations correspond one to one, and all references
lead to earlier slots.
-/

import Mathlib.Data.List.Forall2
import Rulebook.Proofs.Sessions

namespace Rulebook

/-! ## Last declarations -/

/-- A name leads to its last declaration. -/
theorem Schema.find?_of_last {schema : Schema} {front back : List Declaration} {d : Declaration}
    (hdeclarations : schema.declarations = front ++ d :: back)
    (hlast : ∀ later ∈ back, later.name ≠ d.name) : schema.find? d.name = some d := by
  have hback : back.reverse.find? (fun later => later.name = d.name) = none := by
    simpa using hlast
  rw [find?, hdeclarations, List.reverse_append, List.reverse_cons, List.append_assoc,
    List.find?_append, hback]
  simp

/-- Where no name is declared twice, a declaration is the only one of its name. -/
theorem Schema.filter_name_eq {schema : Schema} (hnodup : schema.names.Nodup) {d : Declaration}
    (hd : d ∈ schema.declarations) : schema.declarations.filter (·.name = d.name) = [d] := by
  obtain ⟨front, back, hsplit⟩ := List.append_of_mem hd
  rw [names, hsplit, List.map_append, List.map_cons, List.nodup_middle, ← List.map_append] at hnodup
  have hothers : ∀ other ∈ front ++ back, other.name ≠ d.name := fun other hother heq =>
    (List.nodup_cons.1 hnodup).1 (heq ▸ List.mem_map_of_mem hother)
  have hfront : front.filter (·.name = d.name) = [] := by
    simpa using fun other hother => hothers other (List.mem_append_left _ hother)
  have hback : back.filter (·.name = d.name) = [] := by
    simpa using fun other hother => hothers other (List.mem_append_right _ hother)
  rw [hsplit, List.filter_append, List.filter_cons_of_pos (by simp), hfront, hback]
  rfl

/-! ## Nodes of code -/

namespace Code

mutual

/-- Every node of the code, a node before the nodes below it. -/
def nodes : Code → List Code
  | .literal value => [.literal value]
  | .field name => [.field name]
  | .slot index => [.slot index]
  | .unresolved name => [.unresolved name]
  | .list items => .list items :: nodesOfList items
  | .call function body args => .call function body args :: nodesOfList args
  | .cascade arms none => .cascade arms none :: nodesOfArms arms
  | .cascade arms (some c) => .cascade arms (some c) :: (nodesOfArms arms ++ nodes c)

/-- The nodes of several pieces of code, one after the other. -/
def nodesOfList : List Code → List Code
  | [] => []
  | c :: rest => nodes c ++ nodesOfList rest

/-- The nodes of the arms of a cascade. -/
def nodesOfArms : List (Code × Code) → List Code
  | [] => []
  | (condition, result) :: rest => nodes condition ++ nodes result ++ nodesOfArms rest

end

/-- What stands in code for one node of an expression, the nodes below it left out. A
reference is wired to the slot that has the number of its name; a name without a number
cannot be resolved. -/
inductive StandsFor (registry : Registry) (number : String → Option Nat) : Expr → Code → Prop
  | literal {value : Value} : StandsFor registry number (.literal value) (.literal value)
  | field {name : String} : StandsFor registry number (.field name) (.field name)
  | slot {name : String} {i : Nat} : number name = some i →
      StandsFor registry number (.binding name) (.slot i)
  | unresolved {name : String} : number name = none →
      StandsFor registry number (.binding name) (.unresolved name)
  | list {items : List Expr} {codes : List Code} : items.length = codes.length →
      StandsFor registry number (.list items) (.list codes)
  | call {function : String} {args : List Expr} {codes : List Code} :
      args.length = codes.length → StandsFor registry number (.call function args)
        (.call function ((registry.find? function).map (·.body)) codes)
  | cascade {cases : List Case} {otherwise : Option Expr} {arms : List (Code × Code)}
      {default : Option Code} : cases.length = arms.length →
      otherwise.isSome = default.isSome →
      StandsFor registry number (.cascade cases otherwise) (.cascade arms default)

/-- Code is an expression node by node, each reference being wired by the numbers of the
names. -/
def Encodes (registry : Registry) (number : String → Option Nat) (c : Code) (e : Expr) : Prop :=
  List.Forall₂ (StandsFor registry number) e.nodes c.nodes

section OfExpr

variable (registry : Registry) (order : List String)

theorem length_ofList (es : List Expr) : (ofList registry order es).length = es.length := by
  induction es with
  | nil => rfl
  | cons e rest ih => rw [ofList, List.length_cons, List.length_cons, ih]

theorem length_ofCases (cases : List Case) :
    (ofCases registry order cases).length = cases.length := by
  induction cases with
  | nil => rfl
  | cons c rest ih =>
      obtain ⟨condition, result⟩ := c
      rw [ofCases, List.length_cons, List.length_cons, ih]

mutual

/-- An expression is compiled node by node. -/
theorem encodes_ofExpr : ∀ e : Expr,
    (ofExpr registry order e).Encodes registry (lastPosition? · order) e
  | .literal _ => .cons .literal .nil
  | .field _ => .cons .field .nil
  | .binding name => by
    rw [ofExpr]
    cases hposition : lastPosition? name order with
    | some i => exact .cons (.slot hposition) .nil
    | none => exact .cons (.unresolved hposition) .nil
  | .list items =>
    .cons (.list (length_ofList registry order items).symm) (encodes_ofList items)
  | .call function args =>
    .cons (.call (length_ofList registry order args).symm) (encodes_ofList args)
  | .cascade cases none =>
    .cons (.cascade (length_ofCases registry order cases).symm rfl) (encodes_ofCases cases)
  | .cascade cases (some e) =>
    .cons (.cascade (length_ofCases registry order cases).symm rfl)
      (List.rel_append (encodes_ofCases cases) (encodes_ofExpr e))

theorem encodes_ofList : ∀ es : List Expr,
    List.Forall₂ (StandsFor registry (lastPosition? · order)) (Expr.nodesOfList es)
      (nodesOfList (ofList registry order es))
  | [] => .nil
  | e :: rest => List.rel_append (encodes_ofExpr e) (encodes_ofList rest)

theorem encodes_ofCases : ∀ cases : List Case,
    List.Forall₂ (StandsFor registry (lastPosition? · order)) (Expr.nodesOfCases cases)
      (nodesOfArms (ofCases registry order cases))
  | [] => .nil
  | ⟨condition, result⟩ :: rest =>
    List.rel_append (List.rel_append (encodes_ofExpr condition) (encodes_ofExpr result))
      (encodes_ofCases rest)

end

end OfExpr

namespace Encodes

variable {registry : Registry} {number : String → Option Nat} {e : Expr} {c : Code}
  (h : c.Encodes registry number e)

include h

/-- At the place of a node of the expression stands the code for it. -/
theorem exists_code {k : Nat} {x : Expr} (hx : e.nodes[k]? = some x) :
    ∃ y, c.nodes[k]? = some y ∧ StandsFor registry number x y := by
  obtain ⟨hlength, hnodes⟩ := List.forall₂_iff_get.1 h
  obtain ⟨hk, rfl⟩ := List.getElem?_eq_some_iff.1 hx
  exact ⟨_, List.getElem?_eq_getElem (hlength ▸ hk), hnodes k hk (hlength ▸ hk)⟩

/-- Every node of the code stands for one of the expression. -/
theorem exists_node {y : Code} (hy : y ∈ c.nodes) :
    ∃ x ∈ e.nodes, StandsFor registry number x y := by
  obtain ⟨hlength, hnodes⟩ := List.forall₂_iff_get.1 h
  obtain ⟨k, hk, rfl⟩ := List.getElem_of_mem hy
  exact ⟨_, List.get_mem _ _, hnodes k (hlength ▸ hk) hk⟩

end Encodes

/-- All references in code are wired, and to slots before the given one. -/
def RefersBelow (c : Code) (bound : Nat) : Prop :=
  ∀ x ∈ c.nodes, (∀ j, x = .slot j → j < bound) ∧ ∀ name, x ≠ .unresolved name

theorem Encodes.refersBelow {registry : Registry} {number : String → Option Nat} {e : Expr}
    {c : Code} {bound : Nat} (h : c.Encodes registry number e)
    (hbelow : ∀ target, .binding target ∈ e.nodes → ∃ j < bound, number target = some j) :
    c.RefersBelow bound := by
  intro y hy
  obtain ⟨x, hx, hstands⟩ := h.exists_node hy
  refine ⟨?_, ?_⟩
  · rintro j rfl
    cases hstands with
    | slot hnumber =>
        obtain ⟨i, hi, htarget⟩ := hbelow _ hx
        cases hnumber.symm.trans htarget
        exact hi
  · rintro name rfl
    cases hstands with
    | unresolved hnumber =>
        obtain ⟨i, -, htarget⟩ := hbelow _ hx
        cases hnumber.symm.trans htarget

end Code

/-! ## What a slot holds -/

/-- A slot holds what a declaration says: its name and kind, and its expression as text and
as code, with a row for each case and for the default if there is a table. Without an
expression it holds nothing that could be evaluated. -/
structure Slot.Holds (registry : Registry) (number : String → Option Nat) (entry : Slot)
    (d : Declaration) : Prop where
  name : entry.name = d.name
  kind : entry.kind = d.kind
  missing : d.expression = none →
    entry.description = "" ∧ entry.code = .unresolved d.name ∧ entry.table = none
  present : ∀ e, d.expression = some e →
    entry.description = e.render ∧ entry.code.Encodes registry number e
  rows : ∀ table, entry.table = some table → ∃ cases otherwise,
    d.expression = some (.cascade cases otherwise) ∧ table.rows.length = cases.length + 1 ∧
    ∀ (k : Nat) (row : Row Branch), table.rows[k]? = some row →
      row.resolver.code.Encodes registry number (Schema.resultAt cases otherwise k)

/-- The slots of a program against the declarations of a schema, whatever the order is. There
is one slot for each place of the order, a name has the number of its last place, and a slot
holds what the last declaration of its name says. A reference to a name that is not listed
comes to the fault of that name, wherever it stands and whoever evaluates it. -/
structure Program.Tabulates (p : Program) (schema : Schema) (registry : Registry) : Prop where
  names : p.slots.map (·.name) = p.analysis.order
  number : ∀ name i, p.slotOf? name = some i ↔
    p.analysis.order[i]? = some name ∧ ∀ j, p.analysis.order[j]? = some name → j ≤ i
  traits_ascending : p.traitSlots.Pairwise (· < ·)
  mem_traits : ∀ i, i ∈ p.traitSlots ↔ ∃ entry, p.slots[i]? = some entry ∧ entry.kind = .trait
  declared : ∀ front d back, schema.declarations = front ++ d :: back →
    (∀ later ∈ back, later.name ≠ d.name) →
    ∀ entry ∈ p.slots, entry.name = d.name → entry.Holds registry p.slotOf? d
  undeclared : ∀ entry ∈ p.slots, entry.name ∉ schema.names →
    entry = ⟨entry.name, .attribute, "", .unresolved entry.name, none⟩
  unlisted : ∀ name, name ∉ p.analysis.order → ∀ (e : Expr) (c : Code),
    c.Encodes registry p.slotOf? e → ∀ k : Nat, e.nodes[k]? = some (.binding name) →
      ∃ x : Code, c.nodes[k]? = some x ∧
        ∀ (m : Type → Type) [Monad m] [MonadExceptOf Fault m] (ctx : Context)
          (ask : Nat → m Value), x.eval ctx ask = throw (Fault.unresolvedBinding name)

/-- Slots and declarations correspond one to one, and references lead to earlier slots: every
one in the expression of a slot has a number below that of the slot, and that is what it is
wired to in the code and in the rows of the table. -/
structure Program.TabulatesOnce (p : Program) (schema : Schema) (registry : Registry) : Prop
    extends p.Tabulates schema registry where
  perm : (p.slots.map (·.name)).Perm schema.names
  nodup : (p.slots.map (·.name)).Nodup
  only : ∀ entry ∈ p.slots, ∃ d e, schema.declarations.filter (·.name = entry.name) = [d] ∧
    d.expression = some e ∧ entry.Holds registry p.slotOf? d
  inverse : ∀ name i, p.slotOf? name = some i ↔ p.analysis.order[i]? = some name
  backward : ∀ (i : Nat) (entry : Slot), p.slots[i]? = some entry →
    ∀ e, schema.Declares entry.name e →
      ∀ target, .binding target ∈ e.nodes → ∃ j < i, p.slotOf? target = some j
  wired : ∀ (i : Nat) (entry : Slot), p.slots[i]? = some entry → entry.code.RefersBelow i ∧
    ∀ table, entry.table = some table → ∀ row ∈ table.rows, row.resolver.code.RefersBelow i

namespace Schema

variable {schema : Schema} {registry : Registry} {p : Program}

namespace Compiled

variable (h : schema.Compiled registry p)

include h

/-- The numbers that code is wired by are those of the slots. -/
theorem slotOf?_eq : p.slotOf? = (lastPosition? · p.analysis.order) := by
  funext name
  rw [Program.slotOf?, h.executionOrder_eq]

theorem encodes_code (e : Expr) :
    (Code.ofExpr registry p.analysis.order e).Encodes registry p.slotOf? e := by
  rw [h.slotOf?_eq]
  exact Code.encodes_ofExpr registry p.analysis.order e

/-- The slot of a declaration holds what it says. -/
theorem holds_slot {name : String} {d : Declaration} (hd : schema.find? name = some d) :
    (schema.slot registry p.analysis.order name).Holds registry p.slotOf? d := by
  obtain ⟨-, rfl⟩ := mem_of_find? hd
  cases hexpression : d.expression with
  | none =>
      have hslot : schema.slot registry p.analysis.order d.name =
          ⟨d.name, d.kind, "", .unresolved d.name, none⟩ := by
        simp only [slot, hd, hexpression]
      rw [hslot]
      refine ⟨rfl, rfl, fun _ => ⟨rfl, rfl, rfl⟩, fun e he => ?_, fun table htable => ?_⟩
      · cases hexpression.symm.trans he
      · cases htable
  | some e =>
      rw [slot_eq_slotFor _ hd hexpression]
      refine ⟨rfl, rfl, fun hnone => ?_, fun e' he' => ?_, fun table htable => ?_⟩
      · cases hexpression.symm.trans hnone
      · cases hexpression.symm.trans he'
        exact ⟨rfl, h.encodes_code e⟩
      · obtain ⟨cases, otherwise, rfl, hrows⟩ := tableOf_of_slotFor htable
        refine ⟨cases, otherwise, hexpression, hrows.length_rows, fun k row hrow => ?_⟩
        rw [hrows.code_of_row hrow]
        exact h.encodes_code _

theorem tabulates : p.Tabulates schema registry where
  names := h.executionOrder_eq
  number name i := by
    rw [h.slotOf?_eq]
    exact lastPosition?_eq_some_iff_last
  traits_ascending := List.pairwise_lt_range.filter _
  mem_traits i := Program.mem_traitSlots
  declared front d back hdeclarations hlast entry hentry hname := by
    obtain ⟨i, hi⟩ := List.mem_iff_getElem?.1 hentry
    obtain ⟨name, -, rfl⟩ := h.exists_name hi
    rw [name_slot] at hname
    exact h.holds_slot (hname ▸ find?_of_last hdeclarations hlast)
  undeclared entry hentry hname := by
    obtain ⟨i, hi⟩ := List.mem_iff_getElem?.1 hentry
    obtain ⟨name, -, rfl⟩ := h.exists_name hi
    rw [name_slot] at hname ⊢
    have hnone : schema.find? name = none := by
      simpa using mt find?_isSome_iff.1 hname
    simp only [slot, hnone]
  unlisted name hname e c hcode k hk := by
    obtain ⟨x, hx, hstands⟩ := hcode.exists_code hk
    refine ⟨x, hx, fun m _ _ ctx ask => ?_⟩
    cases hstands with
    | slot hnumber =>
        rw [h.slotOf?_eq] at hnumber
        exact absurd (List.mem_of_getElem? (getElem?_of_lastPosition? hnumber)) hname
    | unresolved => rfl

end Compiled

namespace Accepted

variable (h : schema.Accepted registry p)

include h

/-- The reference of a slot leads to an earlier one. -/
theorem exists_lt_of_refers {i : Nat} {entry : Slot} (hentry : p.slots[i]? = some entry)
    {target : String} (hrefers : schema.Refers entry.name target) :
    ∃ j < i, p.slotOf? target = some j := by
  obtain ⟨j, hj⟩ := h.exists_slotOf? (h.declared entry.name target hrefers)
  have hi := h.slotOf?_eq_some_iff.1 (Program.slotOf?_name h.executionOrder_nodup hentry)
  exact ⟨j, h.lt_of_refers hrefers hi (h.slotOf?_eq_some_iff.1 hj), hj⟩

/-- The declaration of a slot is the only one of its name. -/
theorem exists_only {entry : Slot} (hentry : entry ∈ p.slots) :
    ∃ d e, schema.declarations.filter (·.name = entry.name) = [d] ∧ d.expression = some e ∧
      entry.Holds registry p.slotOf? d := by
  obtain ⟨i, hi⟩ := List.mem_iff_getElem?.1 hentry
  obtain ⟨name, hname, rfl⟩ := h.compiled.exists_name hi
  rw [name_slot]
  have hdeclared : name ∈ schema.names := (h.mem_order name).1 (List.mem_of_getElem? hname)
  obtain ⟨d, hd⟩ := Option.isSome_iff_exists.1 (find?_isSome_iff.2 hdeclared)
  obtain ⟨hmem, rfl⟩ := mem_of_find? hd
  obtain ⟨e, he⟩ := h.expression d hmem
  exact ⟨d, e, filter_name_eq h.names_nodup hmem, he, h.compiled.holds_slot hd⟩

theorem tabulatesOnce : p.TabulatesOnce schema registry where
  toTabulates := h.compiled.tabulates
  perm := h.compiled.tabulates.names ▸
    (List.perm_ext_iff_of_nodup h.order_nodup h.names_nodup).2 h.mem_order
  nodup := h.executionOrder_nodup
  only entry hentry := h.exists_only hentry
  inverse name i := h.slotOf?_eq_some_iff
  backward i entry hentry e he target htarget := h.exists_lt_of_refers hentry ⟨e, he, htarget⟩
  wired i entry hentry := by
    obtain ⟨d, e, honly, he, hholds⟩ := h.exists_only (List.mem_of_getElem? hentry)
    have hd : d ∈ schema.declarations :=
      List.mem_of_mem_filter (honly ▸ List.mem_singleton_self d)
    have hbelow : ∀ target, .binding target ∈ e.nodes → ∃ j < i, p.slotOf? target = some j :=
      fun target htarget =>
        h.exists_lt_of_refers hentry ⟨e, ⟨d, hd, hholds.name.symm, he⟩, htarget⟩
    refine ⟨(hholds.present e he).2.refersBelow hbelow, fun table htable row hrow => ?_⟩
    obtain ⟨cases, otherwise, hcascade, -, hrows⟩ := hholds.rows table htable
    cases he.symm.trans hcascade
    obtain ⟨k, hk⟩ := List.mem_iff_getElem?.1 hrow
    refine (hrows k row hk).refersBelow fun target htarget => hbelow target ?_
    -- What a row resolves with stands in the cascade.
    exact (mem_nodes_of_mem_nodes_resultAt htarget).resolve_right nofun

end Accepted

/-- Every program tabulates its schema, whatever passes gave the order, and any list of names
is the order of some passes. Under the standard analysis it does so once: slots and
declarations correspond one to one, and references lead to earlier slots. -/
theorem tabulates_of_compile (schema : Schema) (registry : Registry) :
    (∀ p, schema.compile registry = .ok p → p.TabulatesOnce schema registry) ∧
    (∀ passes p, schema.compileWith passes registry = .ok p → p.Tabulates schema registry) ∧
    ∀ order, ∃ p, schema.compileWith [.fixedOrder order] registry = .ok p ∧
      p.analysis.order = order :=
  ⟨fun _ hp => (accepted_of_compile hp).tabulatesOnce,
    fun _ _ hp => (compiled_of_compileWith hp).tabulates, fun _ => ⟨_, rfl, rfl⟩⟩

end Schema

namespace Example

/-- A price that is declared twice, and a label that refers to it and to the unit. -/
def patchwork : Schema where
  attributes :=
    [⟨.attribute, "price", some (.literal (.int 1)), none⟩,
      ⟨.attribute, "label", some (.list [.binding "price", .binding "unit"]), none⟩,
      ⟨.attribute, "unit", some (.literal (.string "pair")), none⟩]
  traits := []
  functions := [⟨.function, "price", some (.literal (.int 2)), none⟩]

/-- An order that lists the price twice, leaves the unit out and knows a name of its own. -/
def patchworkOrder : List String := ["price", "ghost", "label", "price"]

/-- The offer is compiled last, after the name that its table falls back on. In the patchwork
the price is reached at its last place and is what it is declared to be last, and the label
cannot be evaluated for want of the unit. -/
theorem tabulates_of_compile_patchwork :
    ∃ p q, offers.compile .builtins = .ok p ∧ p.TabulatesOnce offers .builtins ∧
      p.executionOrder = ["eu", "fallback", "gold", "offer"] ∧
      p.hasDecisionTable "offer" = true ∧ (∃ j < 3, p.slotOf? "fallback" = some j) ∧
      patchwork.compileWith [.fixedOrder patchworkOrder] .builtins = .ok q ∧
      q.Tabulates patchwork .builtins ∧
      q.slotOf? "price" = some 3 ∧ q.kindOf? "price" = some .function ∧
      q.evaluateBinding goldOverseas "label" = .error (.unresolvedBinding "unit") := by
  have hruns : (offers.compile .builtins).toOption.map (fun p =>
      (p.executionOrder, p.hasDecisionTable "offer")) =
      some (["eu", "fallback", "gold", "offer"], true) := by
    decide +kernel
  obtain ⟨p, hp, hfacts⟩ := Option.map_eq_some_iff.1 hruns
  obtain ⟨horder, htable⟩ := by simpa using hfacts
  rw [toOption_eq_some_iff] at hp
  have honce := (Schema.tabulates_of_compile offers .builtins).1 p hp
  have hfallback : ∃ j < 3, p.slotOf? "fallback" = some j := by
    obtain ⟨e, he, hnode⟩ : offers.Refers "offer" "fallback" :=
      ⟨_, ⟨_, List.mem_cons_self, rfl, rfl⟩, by simp [Expr.nodes, Expr.nodesOfCases]⟩
    have hname : p.executionOrder[3]? = some "offer" := by rw [horder]; rfl
    rw [Program.executionOrder, List.getElem?_map, Option.map_eq_some_iff] at hname
    obtain ⟨entry, hentry, hname⟩ := hname
    exact honce.backward 3 entry hentry e (hname ▸ he) "fallback" hnode
  have hq : patchwork.compileWith [.fixedOrder patchworkOrder] .builtins =
      .ok (patchwork.program .builtins ⟨∅, ∅, patchworkOrder⟩) := rfl
  have hany := (Schema.tabulates_of_compile patchwork .builtins).2.1 _ _ hq
  have hlabel : fault? ((patchwork.program .builtins ⟨∅, ∅, patchworkOrder⟩).evaluateBinding
      goldOverseas "label") = some (.unresolvedBinding "unit") := by
    decide +kernel
  rw [fault?_eq_some_iff] at hlabel
  exact ⟨p, _, hp, honce, horder, htable, hfallback, hq, hany, by decide, by decide, hlabel⟩

end Example

end Rulebook
