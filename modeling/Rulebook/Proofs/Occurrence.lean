/-
# Occurrences

Which nodes stand in an expression, which declaration carries which expression,
and which names the evaluation of a name can come to. The relations are read off
the declarations alone: no analysis and no program has a part in them, so they
can be used to say what analyses and programs are about.
-/

import Mathlib.Data.List.Nodup
import Mathlib.Logic.Relation
import Rulebook.Schema

namespace Rulebook

/-! ## Nodes -/

namespace Expr

theorem nodesOfList_eq (es : List Expr) : nodesOfList es = es.flatMap nodes := by
  induction es with
  | nil => rfl
  | cons e rest ih => rw [nodesOfList, List.flatMap_cons, ih]

theorem nodesOfCases_eq (cs : List Case) :
    nodesOfCases cs = (cs.flatMap fun c => [c.condition, c.result]).flatMap nodes := by
  induction cs with
  | nil => rfl
  | cons c rest ih =>
      obtain ⟨condition, result⟩ := c
      simp [nodesOfCases, ih]

/-- A node comes first, then the nodes of its parts in the order of evaluation. -/
theorem nodes_eq (e : Expr) : e.nodes = e :: e.children.flatMap nodes := by
  cases e with
  | list items => rw [nodes, nodesOfList_eq, children]
  | call function args => rw [nodes, nodesOfList_eq, children]
  | cascade cases otherwise =>
      cases otherwise with
      | none => simp [nodes, nodesOfCases_eq, children]
      | some e => simp [nodes, nodesOfCases_eq, children]
  | _ => simp [nodes, children]

theorem mem_children_cascade {part : Expr} {cases : List Case} {otherwise : Option Expr} :
    part ∈ (cascade cases otherwise).children ↔
      (∃ c ∈ cases, part = c.condition ∨ part = c.result) ∨ otherwise = some part := by
  simp [children]

theorem sizeOf_lt_of_mem_children {part whole : Expr} (h : part ∈ whole.children) :
    sizeOf part < sizeOf whole := by
  cases whole with
  | list items =>
      have hlt : sizeOf part < sizeOf items := List.sizeOf_lt_of_mem h
      simp only [list.sizeOf_spec]
      omega
  | call function args =>
      have hlt : sizeOf part < sizeOf args := List.sizeOf_lt_of_mem h
      simp only [call.sizeOf_spec]
      omega
  | cascade cases otherwise =>
      rcases mem_children_cascade.1 h with ⟨⟨condition, result⟩, hc, hpart⟩ | rfl
      · have hlt := List.sizeOf_lt_of_mem hc
        simp only [Case.mk.sizeOf_spec] at hlt
        simp only [cascade.sizeOf_spec]
        rcases hpart with rfl | rfl <;> omega
      · simp only [cascade.sizeOf_spec, Option.some.sizeOf_spec]
        omega
  | _ => cases h

/-- What holds of an expression as soon as it holds of its parts holds of all. -/
theorem parts_induction {P : Expr → Prop} (step : ∀ e, (∀ part ∈ e.children, P part) → P e)
    (e : Expr) : P e := by
  induction hsize : sizeOf e using Nat.strongRecOn generalizing e with
  | ind size ih =>
      subst hsize
      exact step e fun part hpart => ih _ (sizeOf_lt_of_mem_children hpart) part rfl

/-- An expression stands in another: it is the other, or stands in one of its parts. -/
def StandsIn (x whole : Expr) : Prop :=
  Relation.ReflTransGen (fun whole part => part ∈ whole.children) whole x

/-- The nodes of a tree are what stands in it. -/
theorem mem_nodes_iff {x whole : Expr} : x ∈ whole.nodes ↔ x.StandsIn whole := by
  constructor
  · intro hx
    induction whole using parts_induction with
    | step whole ih =>
        rw [nodes_eq, List.mem_cons, List.mem_flatMap] at hx
        rcases hx with rfl | ⟨part, hpart, hx⟩
        · exact .refl
        · exact .head hpart (ih part hpart hx)
  · intro hx
    induction hx using Relation.ReflTransGen.head_induction_on with
    | refl =>
        rw [nodes_eq]
        exact List.mem_cons_self
    | head hpart _ ih =>
        rw [nodes_eq]
        exact List.mem_cons_of_mem _ (List.mem_flatMap.2 ⟨_, hpart, ih⟩)

theorem self_mem_nodes (e : Expr) : e ∈ e.nodes := by
  rw [nodes_eq]
  exact List.mem_cons_self

theorem mem_nodesOfCases {x : Expr} {cs : List Case} :
    x ∈ nodesOfCases cs ↔ ∃ c ∈ cs, x ∈ c.condition.nodes ∨ x ∈ c.result.nodes := by
  simp [nodesOfCases_eq, List.flatMap_assoc]

theorem mem_nodes_of_mem_nodesOfCases {x : Expr} {cs : List Case} (otherwise : Option Expr)
    (h : x ∈ nodesOfCases cs) : x ∈ (cascade cs otherwise).nodes := by
  cases otherwise <;> simp [nodes, h]

end Expr

namespace Schema

variable {s : Schema} {name : String}

/-! ## Declarations of a name -/

/-- Some declaration of a name carries an expression. -/
def Declares (s : Schema) (name : String) (e : Expr) : Prop :=
  ∃ d ∈ s.declarations, d.name = name ∧ d.expression = some e

theorem Declares.mem_names {e : Expr} (h : s.Declares name e) : name ∈ s.names := by
  obtain ⟨d, hd, rfl, -⟩ := h
  exact List.mem_map_of_mem hd

/-- A name that is declared with a kind. -/
def DeclaresKind (s : Schema) (kind : Kind) (name : String) : Prop :=
  ∃ d ∈ s.declarations, d.name = name ∧ d.kind = kind

theorem DeclaresKind.mem_names {kind : Kind} (h : s.DeclaresKind kind name) :
    name ∈ s.names := by
  obtain ⟨d, hd, rfl, -⟩ := h
  exact List.mem_map_of_mem hd

theorem mem_of_find? {d : Declaration} (h : s.find? name = some d) :
    d ∈ s.declarations ∧ d.name = name := by
  unfold find? at h
  have hname := List.find?_some h
  exact ⟨List.mem_reverse.1 (List.mem_of_find?_eq_some h), by simpa using hname⟩

theorem find?_isSome_iff : (s.find? name).isSome = true ↔ name ∈ s.names := by
  simp [find?, names]

/-- A name that is declared once leads to its declaration. -/
theorem find?_of_nodup (h : s.names.Nodup) {d : Declaration} (hd : d ∈ s.declarations) :
    s.find? d.name = some d := by
  have hsome : (s.find? d.name).isSome = true :=
    find?_isSome_iff.2 (List.mem_map_of_mem hd)
  obtain ⟨d', hd'⟩ := Option.isSome_iff_exists.1 hsome
  obtain ⟨hmem, hname⟩ := mem_of_find? hd'
  rw [hd', List.inj_on_of_nodup_map h hmem hd hname]

/-! ## References -/

/-- An expression of the first name refers to the second. -/
def Refers (s : Schema) (name target : String) : Prop :=
  ∃ e, s.Declares name e ∧ .binding target ∈ e.nodes

/-- References lead from the first name to the second, in any number of steps. -/
def Reaches (s : Schema) : String → String → Prop := Relation.ReflTransGen s.Refers

/-- A node stands in an expression of a name, or of one that the name reaches. -/
def Uses (s : Schema) (name : String) (x : Expr) : Prop :=
  ∃ target, s.Reaches name target ∧ ∃ e, s.Declares target e ∧ x ∈ e.nodes

theorem Uses.of_declares {e x : Expr} (h : s.Declares name e) (hx : x ∈ e.nodes) :
    s.Uses name x :=
  ⟨name, .refl, e, h, hx⟩

/-- What a name refers to uses nothing that the name does not use. -/
theorem Uses.of_refers {target : String} {x : Expr} (h : s.Refers name target)
    (hx : s.Uses target x) : s.Uses name x := by
  obtain ⟨last, hreach, hlast⟩ := hx
  exact ⟨last, Relation.ReflTransGen.head h hreach, hlast⟩

end Schema

end Rulebook
