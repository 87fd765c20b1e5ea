/-
# What the analysis looks past

The walk over an expression takes note of leaves, references and calls in their order, and
of nothing else. Expressions that are walked through alike can therefore stand for each
other at any place, and for any name of an accepted schema as long as both are calls or
neither is. The analysis is then not only successful again but the same: no edge, no leaf
and no position in the order differs.
-/

import Rulebook.Proofs.Places
import Rulebook.Proofs.Redefinition

namespace Rulebook

/-- At a place, only what stands outermost shows whether the whole is a call. -/
theorem Expr.isCall_fill_congr (place : List Layer) {x y : Expr} (h : x.isCall = y.isCall) :
    (fill place x).isCall = (fill place y).isCall := by
  cases place with
  | nil => exact h
  | cons layer place => cases layer <;> rfl

namespace Shapes

section Declaration

variable {registry : Registry} {definitions definitions' : NameMap Declaration}
  {d d' : Declaration} {e e' : Expr}

/-- Of its declaration the walk sees the name and the location, and of the definitions
which names they have. -/
theorem visitNode_congr
    (hdefined : ∀ name, definitions.contains name = definitions'.contains name)
    (hname : d.name = d'.name) (hlocation : d.location = d'.location) :
    visitNode registry definitions d = visitNode registry definitions' d' := by
  funext w x
  cases x <;>
    simp only [visitNode, checkBinding, checkCall, Draft.report, hdefined, hname, hlocation]

theorem checkForm_of_some (he : d.expression = some e) (w : Draft) :
    checkForm d w =
      if d.kind = .trait ∧ e.isCall = false then w.report d (.traitNotCall d.name) else w := by
  obtain ⟨kind, name, expression, location⟩ := d
  subst he
  cases kind <;> cases e <;> simp [checkForm, Expr.isCall]

end Declaration

/-- The walk over either expression does the same, whatever was drawn and reported before. -/
def WalkedAlike (x y : Expr) : Prop :=
  ∀ registry definitions d w, visit registry definitions d x w = visit registry definitions d y w

namespace WalkedAlike

variable {x y : Expr}

theorem refl (x : Expr) : WalkedAlike x x := fun _ _ _ _ => rfl

theorem wrap (layer : Expr.Layer) (h : WalkedAlike x y) :
    WalkedAlike (layer.wrap x) (layer.wrap y) := by
  intro registry definitions d w
  obtain ⟨before, after, hchildren⟩ := Expr.children_wrap layer
  have hnode : visitNode registry definitions d w (layer.wrap x) =
      visitNode registry definitions d w (layer.wrap y) := by
    cases layer with
    | argument function before after => simp [Expr.Layer.wrap, visitNode]
    | _ => rfl
  have hpart : ∀ v, x.nodes.foldl (visitNode registry definitions d) v =
      y.nodes.foldl (visitNode registry definitions d) v := by
    intro v
    rw [← visit_eq_foldl, ← visit_eq_foldl]
    exact h registry definitions d v
  rw [visit_eq_foldl, visit_eq_foldl, Expr.nodes_eq (layer.wrap x), Expr.nodes_eq (layer.wrap y)]
  simp only [hchildren, List.flatMap_append, List.flatMap_cons, List.foldl_cons,
    List.foldl_append, hnode, hpart]

/-- What is walked through alike is so at any place. -/
theorem fill (place : List Expr.Layer) (h : WalkedAlike x y) :
    WalkedAlike (Expr.fill place x) (Expr.fill place y) := by
  induction place with
  | nil => exact h
  | cons layer place ih => exact ih.wrap layer

end WalkedAlike

section Declaration

variable {registry : Registry} {definitions definitions' : NameMap Declaration}
  {d d' : Declaration} {e e' : Expr}

/-- Two declarations that differ in their expressions alone are checked alike, if these are
walked through alike and both are calls or neither is. -/
theorem step_congr
    (hdefined : ∀ name, definitions.contains name = definitions'.contains name)
    (hkind : d.kind = d'.kind) (hname : d.name = d'.name) (hlocation : d.location = d'.location)
    (he : d.expression = some e) (he' : d'.expression = some e')
    (hcall : e.isCall = e'.isCall) (halike : WalkedAlike e e') (w : Draft) :
    step registry definitions d w = step registry definitions' d' w := by
  have hform : checkForm d (w.enter d.name) = checkForm d' (w.enter d'.name) := by
    rw [checkForm_of_some he, checkForm_of_some he', hkind, hcall, hname]
    simp only [Draft.report, hlocation]
  have hnode : visitNode registry definitions d = visitNode registry definitions' d' :=
    visitNode_congr hdefined hname hlocation
  simp only [step, he, he', hform]
  rw [halike, visit_eq_foldl, visit_eq_foldl, hnode]

end Declaration

end Shapes

namespace Schema

variable {schema : Schema} {registry : Registry} {name : String} {e e' : Expr}

theorem contains_definitions_redefine (target : String) :
    (schema.redefine name e').definitions.contains target =
      schema.definitions.contains target := by
  rw [Bool.eq_iff_iff, contains_definitions, contains_definitions, names_redefine]

/-- The pass over shapes draws and reports the same. -/
theorem WellFormed.draft_redefine (h : schema.WellFormed registry)
    (he : schema.Declares name e) (hcall : e'.isCall = e.isCall)
    (halike : Shapes.WalkedAlike e' e) :
    (schema.redefine name e').draft registry = schema.draft registry := by
  rw [draft, draft, declarations_redefine, List.foldl_map]
  apply List.foldl_ext
  intro w d hd
  obtain ⟨x, hx⟩ := h.expression d hd
  by_cases hname : d.name = name
  · obtain rfl : x = e := h.expression_unique ⟨d, hd, hname, hx⟩ he
    rw [Declaration.redefine_of_eq hname]
    refine Shapes.step_congr contains_definitions_redefine ?_ ?_ ?_ ?_ hx hcall halike w <;> rfl
  · rw [Declaration.redefine_of_ne hname]
    exact Shapes.step_congr contains_definitions_redefine rfl rfl rfl hx hx rfl
      (Shapes.WalkedAlike.refl x) w

/-- An analysis that finds nothing gives what its passes have drawn and ordered. -/
theorem analyze_of_found (h : (Pass.runAll Pass.standard registry schema).2 = []) :
    schema.analyze registry =
      .ok ⟨(schema.draft registry).graph, (schema.draft registry).leaves,
        (schema.sorting registry).order⟩ := by
  rw [analyze, analyzeWith]
  rw [runAll_standard] at h ⊢
  dsimp only at h ⊢
  rw [h]
  rfl

/-- An accepted schema has the same analysis with another expression for a name, if the two
expressions are walked through alike and both are calls or neither is. -/
theorem analyze_redefine {p : Program} (hp : schema.compile registry = .ok p)
    (he : schema.Declares name e) (hcall : e'.isCall = e.isCall)
    (halike : Shapes.WalkedAlike e' e) :
    (schema.redefine name e').analyze registry = .ok p.analysis := by
  obtain ⟨hanalyze, -⟩ := analyze_of_compile hp
  obtain ⟨hfound, hanalysis⟩ := analysis_of_analyze hanalyze
  have h : schema.WellFormed registry := (accepted_of_compile hp).toWellFormed
  have hdraft : (schema.redefine name e').draft registry = schema.draft registry :=
    h.draft_redefine he hcall halike
  have hsorting : (schema.redefine name e').sorting registry = schema.sorting registry := by
    rw [sorting, sorting, hdraft, Graph.sorted, Graph.sorted, Graph.roots, Graph.roots,
      names_redefine]
  have hquiet : (Pass.runAll Pass.standard registry (schema.redefine name e')).2 = [] := by
    rw [found_runAll_standard, problems_eq, circles] at hfound ⊢
    simp only [List.append_eq_nil_iff, List.map_eq_nil_iff] at hfound ⊢
    obtain ⟨⟨⟨-, hreported⟩, hcycles⟩, -⟩ := hfound
    rw [hdraft, hsorting]
    have hnodup : (schema.redefine name e').names.Nodup := by
      rw [names_redefine]
      exact h.names_nodup
    have hnames : Names.repeats [] (schema.redefine name e').declarations = [] :=
      Names.repeats_eq_nil_iff.2 ⟨hnodup, fun d _ => List.not_mem_nil⟩
    exact ⟨⟨⟨hnames, hreported⟩, hcycles⟩, hcycles⟩
  rw [analyze_of_found hquiet, hdraft, hsorting, hanalysis]

/-- What the analysis accepts is compiled along it. -/
theorem compile_of_analyze {a : Analysis} (h : schema.analyze registry = .ok a) :
    schema.compile registry = .ok (schema.program registry a) := by
  rw [compile, compileWith, ← analyze, h]
  rfl

end Schema

end Rulebook
