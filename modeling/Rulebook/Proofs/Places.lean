/-
# Places in an expression

A place in an expression is what lies around one of its nodes, layer by layer. What stands
in an expression stands at some place, and another expression can be put there. Nodes off
the place stay as they are, nodes around it keep what can be seen of them without looking
inside, and the whole keeps its meaning if what is put in has the meaning of what stood
there. None of this says anything about schemas: the meaning is taken for any answers to
the names.
-/

import Rulebook.Proofs.Meaning

namespace Rulebook

namespace Expr

/-- What lies around a part of an expression, up to the expression. -/
inductive Layer where
  | item (before after : List Expr)
  | argument (function : String) (before after : List Expr)
  | caseCondition (before : List Case) (result : Expr) (after : List Case)
    (otherwise : Option Expr)
  | caseResult (before : List Case) (condition : Expr) (after : List Case)
    (otherwise : Option Expr)
  | default (cases : List Case)

/-- The expression with its part in it. -/
def Layer.wrap : Layer → Expr → Expr
  | .item before after, e => .list (before ++ e :: after)
  | .argument function before after, e => .call function (before ++ e :: after)
  | .caseCondition before result after otherwise, e =>
    .cascade (before ++ ⟨e, result⟩ :: after) otherwise
  | .caseResult before condition after otherwise, e =>
    .cascade (before ++ ⟨condition, e⟩ :: after) otherwise
  | .default cases, e => .cascade cases (some e)

/-- The expression with a node at a place; the outermost layer comes first. -/
def fill (place : List Layer) (e : Expr) : Expr := place.foldr Layer.wrap e

@[simp] theorem fill_nil (e : Expr) : fill [] e = e := rfl

@[simp] theorem fill_cons (layer : Layer) (place : List Layer) (e : Expr) :
    fill (layer :: place) e = layer.wrap (fill place e) := rfl

/-! ## Parts -/

/-- The parts beside the one that a layer leaves open do not depend on it. -/
theorem children_wrap (layer : Layer) :
    ∃ before after, ∀ e, (layer.wrap e).children = before ++ e :: after := by
  cases layer with
  | item before after => exact ⟨before, after, fun e => rfl⟩
  | argument function before after => exact ⟨before, after, fun e => rfl⟩
  | caseCondition before result after otherwise =>
      exact ⟨before.flatMap fun c => [c.condition, c.result],
        result :: after.flatMap (fun c => [c.condition, c.result]) ++ otherwise.toList,
        fun e => by simp [Layer.wrap, children]⟩
  | caseResult before condition after otherwise =>
      exact ⟨(before.flatMap fun c => [c.condition, c.result]) ++ [condition],
        after.flatMap (fun c => [c.condition, c.result]) ++ otherwise.toList,
        fun e => by simp [Layer.wrap, children]⟩
  | default cases =>
      exact ⟨cases.flatMap fun c => [c.condition, c.result], [],
        fun e => by simp [Layer.wrap, children]⟩

/-- Every part has a layer around it. -/
theorem exists_layer {part whole : Expr} (h : part ∈ whole.children) :
    ∃ layer : Layer, whole = layer.wrap part := by
  cases whole with
  | list items =>
      obtain ⟨before, after, rfl⟩ := List.append_of_mem h
      exact ⟨.item before after, rfl⟩
  | call function args =>
      obtain ⟨before, after, rfl⟩ := List.append_of_mem h
      exact ⟨.argument function before after, rfl⟩
  | cascade cases otherwise =>
      rcases mem_children_cascade.1 h with ⟨⟨condition, result⟩, hc, hpart⟩ | rfl
      · obtain ⟨before, after, rfl⟩ := List.append_of_mem hc
        rcases hpart with rfl | rfl
        · exact ⟨.caseCondition before _ after otherwise, rfl⟩
        · exact ⟨.caseResult before _ after otherwise, rfl⟩
      · exact ⟨.default cases, rfl⟩
  | _ => cases h

theorem mem_nodes_fill (place : List Layer) (x : Expr) : x ∈ (fill place x).nodes := by
  induction place with
  | nil => exact self_mem_nodes x
  | cons layer place ih =>
      obtain ⟨before, after, hchildren⟩ := children_wrap layer
      rw [fill_cons, nodes_eq, hchildren]
      simp [ih]

/-- What stands in an expression is what stands at some place in it. -/
theorem mem_nodes_iff_exists_place {x whole : Expr} :
    x ∈ whole.nodes ↔ ∃ place, whole = fill place x := by
  constructor
  · intro hx
    induction mem_nodes_iff.1 hx using Relation.ReflTransGen.head_induction_on with
    | refl => exact ⟨[], rfl⟩
    | head hpart hrest ih =>
        obtain ⟨layer, rfl⟩ := exists_layer hpart
        obtain ⟨place, rfl⟩ := ih (mem_nodes_iff.2 hrest)
        exact ⟨layer :: place, rfl⟩
  · rintro ⟨place, rfl⟩
    exact mem_nodes_fill place x

/-! ## Nodes -/

/-- A property of nodes that does not look inside: if it holds of an expression, then with
any other part in it as well. -/
def Shallow (Q : Expr → Prop) : Prop :=
  ∀ (layer : Layer) (x y : Expr), Q (layer.wrap x) → Q (layer.wrap y)

/-- If a property that does not look inside holds of all nodes of an expression, it holds
of all nodes after something was put in whose nodes have it. -/
theorem forall_nodes_fill {Q : Expr → Prop} (hQ : Shallow Q) {place : List Layer} {x y : Expr}
    (hx : ∀ z ∈ (fill place x).nodes, Q z) (hy : ∀ z ∈ y.nodes, Q z) :
    ∀ z ∈ (fill place y).nodes, Q z := by
  induction place with
  | nil => exact hy
  | cons layer place ih =>
      obtain ⟨before, after, hchildren⟩ := children_wrap layer
      rw [fill_cons, nodes_eq, hchildren, List.flatMap_append, List.flatMap_cons] at hx ⊢
      simp only [List.forall_mem_cons, List.forall_mem_append] at hx ⊢
      obtain ⟨houter, hbefore, hinner, hafter⟩ := hx
      exact ⟨hQ layer _ _ houter, hbefore, ih hinner, hafter⟩

/-- Whether a node is a reference of some kind can be seen without looking inside. -/
theorem shallow_binding (P : String → Prop) :
    Shallow fun z => ∀ name, z = .binding name → P name := by
  intro layer x y _ name hy
  cases layer <;> cases hy

/-- So can what a call calls, and with how many arguments. -/
theorem shallow_call (P : String → Nat → Prop) :
    Shallow fun z => ∀ function args, z = .call function args → P function args.length := by
  intro layer x y hx function args hy
  cases layer with
  | argument function before after =>
      cases hy
      simpa [Layer.wrap] using hx function _ rfl
  | _ => cases hy

/-- A call stays a call when something is put in for a reference in it. -/
theorem isCall_fill {place : List Layer} {name : String} (e : Expr)
    (h : (fill place (.binding name)).isCall = true) : (fill place e).isCall = true := by
  cases place with
  | nil => cases h
  | cons layer place =>
      cases layer with
      | argument function before after => rfl
      | _ => cases h

/-! ## Meaning -/

section Meaning

variable {m : Type → Type} [Monad m] [MonadExceptOf Fault m]
variable {registry : Registry} {ctx : Context} {ask : String → m Value}

theorem meaningOfList_congr {before after : List Expr} {x y : Expr}
    (h : x.meaning registry ctx ask = y.meaning registry ctx ask) :
    meaningOfList registry ctx ask (before ++ x :: after) =
      meaningOfList registry ctx ask (before ++ y :: after) := by
  induction before with
  | nil => rw [List.nil_append, List.nil_append, meaningOfList, meaningOfList, h]
  | cons e rest ih =>
      rw [List.cons_append, List.cons_append, meaningOfList, meaningOfList, ih]

theorem meaningOfCases_congr {before after : List Case} {c c' : Case}
    (hcondition : c.condition.meaning registry ctx ask = c'.condition.meaning registry ctx ask)
    (hresult : c.result.meaning registry ctx ask = c'.result.meaning registry ctx ask) :
    meaningOfCases registry ctx ask (before ++ c :: after) =
      meaningOfCases registry ctx ask (before ++ c' :: after) := by
  induction before with
  | nil =>
      rw [List.nil_append, List.nil_append, meaningOfCases_cons, meaningOfCases_cons,
        hcondition, hresult]
  | cons e rest ih =>
      rw [List.cons_append, List.cons_append, meaningOfCases_cons, meaningOfCases_cons, ih]

/-- Cascades with the same meaning of their cases have the same meaning. -/
theorem meaning_cascade_congr {cases cases' : List Case} (otherwise : Option Expr)
    (h : meaningOfCases registry ctx ask cases = meaningOfCases registry ctx ask cases') :
    (cascade cases otherwise).meaning registry ctx ask =
      (cascade cases' otherwise).meaning registry ctx ask := by
  cases otherwise with
  | none => rw [meaning, meaning, h]
  | some e => rw [meaning, meaning, h]

/-- What is put at a place counts by its meaning alone. -/
theorem meaning_fill (place : List Layer) {x y : Expr}
    (h : x.meaning registry ctx ask = y.meaning registry ctx ask) :
    (fill place x).meaning registry ctx ask = (fill place y).meaning registry ctx ask := by
  induction place with
  | nil => exact h
  | cons layer place ih =>
      rw [fill_cons, fill_cons]
      cases layer with
      | item before after =>
          rw [Layer.wrap, Layer.wrap, meaning, meaning, meaningOfList_congr ih]
      | argument function before after =>
          rw [Layer.wrap, Layer.wrap, meaning, meaning, meaningOfList_congr ih]
      | caseCondition before result after otherwise =>
          exact meaning_cascade_congr otherwise (meaningOfCases_congr ih rfl)
      | caseResult before condition after otherwise =>
          exact meaning_cascade_congr otherwise (meaningOfCases_congr rfl ih)
      | default cases =>
          rw [Layer.wrap, Layer.wrap, meaning, meaning, ih]

end Meaning

end Expr

end Rulebook
