/-
# The order of any graph

The last pass takes the graph that stands in the survey, whoever drew it. It may go in
circles, lead from a name to itself or to names without an entry, and have entries for names
that no declaration has. Whatever it is like, its nodes come out once each, and an edge that
does not lead backward in the order is the last one of a circle that is reported.
-/

import Rulebook.Proofs.Analysis.Problems

namespace Rulebook

namespace Graph

variable {g : Graph} {schema : Schema}

/-- The edge that closes a reported circle leads to a name that refers to something. -/
theorem mem_names_of_closes {source target : String}
    (h : Order.Closes (g.sorted schema).cycles source target) : target ∈ g.names := by
  obtain ⟨front, hpath⟩ := h
  have hlast : (front ++ [source, target]).getLast? = some target := by simp
  obtain ⟨next, hedge⟩ := (isSimpleCircle_of_sorted _ hpath).exists_edge hlast
  exact hedge.mem_names

/-- An edge leads backward in the order, or closes a circle that is reported. -/
theorem precedes_or_closes (schema : Schema) {source target : String}
    (hedge : g.Edge source target) :
    Precedes (g.sorted schema).order target source ∨
      Order.Closes (g.sorted schema).cycles source target := by
  obtain ⟨hsound, hlisted⟩ := g.sound_sorted schema
  exact hsound.after source (hlisted source hedge.mem_names) target hedge

/-- The names in the order are the nodes of the graph. -/
theorem mem_order_sorted {name : String} :
    name ∈ (g.sorted schema).order ↔ g.HasNode name := by
  obtain ⟨hsound, hlisted⟩ := g.sound_sorted schema
  refine ⟨hsound.hasNode name, ?_⟩
  rintro (hname | ⟨source, hedge⟩)
  · exact hlisted name hname
  · rcases precedes_or_closes schema hedge with ⟨front, back, horder, hmem⟩ | hcloses
    · exact horder ▸ List.mem_append_left _ hmem
    · exact hlisted name (mem_names_of_closes hcloses)

end Graph

/-- The pass over the order does right by every graph. The order holds each node of the
graph once, whether it is a source or only a target, and nothing else. The target of an edge
stands before its source, unless the edge is the last one of a circle that the pass reports.
So the pass reports nothing exactly if no name leads back to itself, and then whatever a
name refers to stands before it. Nothing else in the survey is changed. -/
theorem Pass.order_of_run (registry : Registry) (schema : Schema) (survey : Survey) :
    ∃ order found, Pass.order.run registry schema survey = ({ survey with order := order }, found) ∧
      order.Nodup ∧
      (∀ name, name ∈ order ↔ survey.graph.HasNode name) ∧
      (∀ source target, survey.graph.Edge source target →
        Precedes order target source ∨
          ∃ d ∈ found, ∃ front, d.issue = .cycle (front ++ [source, target])) ∧
      (found = [] ↔ ∀ name, ¬ Relation.TransGen survey.graph.Edge name name) ∧
      (found = [] → ∀ source target, survey.graph.Edge source target →
        Precedes order target source) := by
  refine ⟨(survey.graph.sorted schema).order, (survey.graph.sorted schema).cycles.map
    (Graph.cycleDiagnostic survey.definitions), rfl, (survey.graph.sound_sorted schema).1.nodup,
    fun name => Graph.mem_order_sorted, ?_, ?_, ?_⟩
  · intro source target hedge
    refine (Graph.precedes_or_closes schema hedge).imp_right ?_
    rintro ⟨front, hpath⟩
    exact ⟨_, List.mem_map_of_mem hpath, front, rfl⟩
  · rw [List.map_eq_nil_iff, Graph.cycles_sorted_eq_nil_iff]
  · rw [List.map_eq_nil_iff]
    intro hnil source target hedge
    refine (Graph.precedes_or_closes schema hedge).resolve_right ?_
    rintro ⟨front, hpath⟩
    rw [hnil] at hpath
    cases hpath

namespace Example

/-- A graph that goes in a circle, leads from a name to itself and to a name without an
entry, and knows names that are not declared. -/
def tangle : Graph := .ofList
  [("total", .ofNames ["net", "tax"]), ("tax", .ofNames ["rate", "tax", "total"]),
    ("stray", .ofNames ["rate"])]

/-- What lies before the pass over the order: the tangled graph, and an order to be
forgotten. -/
def tangledSurvey : Survey := { graph := tangle, definitions := ∅, leaves := ∅, order := ["old"] }

/-- Both circles of the tangled graph are reported, by the edges that are passed over; the
edge to the rate, which has no entry and is not declared, leads backward. -/
theorem order_of_run_tangle :
    ∃ order found, Pass.order.run .builtins tangledBill tangledSurvey =
        ({ tangledSurvey with order := order }, found) ∧
      order = ["net", "rate", "tax", "total", "stray"] ∧
      (found.map fun d => d.issue) = [.cycle ["tax", "tax"], .cycle ["total", "tax", "total"]] ∧
      tangle.Edge "tax" "total" ∧ ¬ Precedes order "total" "tax" ∧
      (∃ d ∈ found, ∃ front, d.issue = .cycle (front ++ ["tax", "total"])) ∧
      ∃ name, Relation.TransGen tangle.Edge name name := by
  obtain ⟨order, found, hrun, -, -, hedges, hnil, -⟩ :=
    Pass.order_of_run .builtins tangledBill tangledSurvey
  have horder : order = ["net", "rate", "tax", "total", "stray"] :=
    (congrArg (fun r => r.1.order) hrun).symm.trans (by decide +kernel)
  have hfound : (found.map fun d => d.issue) =
      [.cycle ["tax", "tax"], .cycle ["total", "tax", "total"]] :=
    (congrArg (fun r => r.2.map fun d => d.issue) hrun).symm.trans (by decide +kernel)
  have hedge : tangle.Edge "tax" "total" := by
    show "total" ∈ tangle.targets "tax"
    decide +kernel
  have hbefore : ¬ Precedes order "total" "tax" := by
    intro hprecedes
    have hlt := Graph.idxOf_lt_of_precedes hprecedes (horder ▸ by decide)
    rw [horder] at hlt
    revert hlt
    decide
  have hcircle : found ≠ [] := by
    rintro rfl
    cases hfound
  exact ⟨order, found, hrun, horder, hfound, hedge, hbefore,
    (hedges "tax" "total" hedge).resolve_left hbefore, not_forall_not.1 (mt hnil.2 hcircle)⟩

end Example

end Rulebook
