/-
# Inlining a reference

A reference may be replaced by the expression of the name that it leads to, wherever it
stands: in the arguments of a call, in a list, in a condition, a result or a default, at any
depth. The schema stays accepted, since the expression refers to nothing that was not
reached before, and every name keeps its value or fault. What does change is the graph, and
with it perhaps the order of the slots; and a condition that was a conjunction of traits
need not be one any more, so that an attribute may lose its decision table.
-/

import Rulebook.Proofs.Places
import Rulebook.Proofs.Redefinition

namespace Rulebook

namespace Schema

variable {schema : Schema} {registry : Registry} {p : Program} {name target : String}
  {place : List Expr.Layer} {body : Expr}

theorem WellFormed.depends (h : schema.WellFormed registry) {e : Expr}
    (he : schema.Declares name e) (htarget : .binding target ∈ e.nodes) :
    schema.Depends name target :=
  ⟨h.declared name target ⟨e, he, htarget⟩, e, he, htarget⟩

/-- With a reference replaced by the expression it leads to, an expression refers to nothing
that its name did not reach. -/
theorem WellFormed.transGen_depends_inlined (h : schema.WellFormed registry)
    (he : schema.Declares name (Expr.fill place (.binding target)))
    (hbody : schema.Declares target body) :
    ∀ last, .binding last ∈ (Expr.fill place body).nodes →
      Relation.TransGen schema.Depends name last := by
  have hfirst : schema.Depends name target := h.depends he (Expr.mem_nodes_fill place _)
  have hnodes : ∀ x ∈ (Expr.fill place body).nodes, ∀ last, x = .binding last →
      Relation.TransGen schema.Depends name last := by
    refine Expr.forall_nodes_fill (Expr.shallow_binding _) (x := .binding target) ?_ ?_
    · rintro _ hx last rfl
      exact .single (h.depends he hx)
    · rintro _ hx last rfl
      exact .head hfirst (.single (h.depends hbody hx))
  exact fun last hlast => hnodes _ hlast last rfl

/-- The calls in it are those of the two expressions, with as many arguments. -/
theorem WellFormed.callable_inlined (h : schema.WellFormed registry)
    (he : schema.Declares name (Expr.fill place (.binding target)))
    (hbody : schema.Declares target body) :
    ∀ function args, .call function args ∈ (Expr.fill place body).nodes →
      ∃ f, registry.find? function = some f ∧ f.arity.accepts args.length = true := by
  have hnodes : ∀ x ∈ (Expr.fill place body).nodes, ∀ function args, x = .call function args →
      ∃ f, registry.find? function = some f ∧ f.arity.accepts args.length = true := by
    refine Expr.forall_nodes_fill (Expr.shallow_call fun function count =>
      ∃ f, registry.find? function = some f ∧ f.arity.accepts count = true)
      (x := .binding target) ?_ ?_
    · rintro _ hx function args rfl
      exact h.callable name _ function args he hx
    · rintro _ hx function args rfl
      exact h.callable target body function args hbody hx
  exact fun function args hcall => hnodes _ hcall function args rfl

/-- A reference may be inlined. In an accepted schema every reference leads to a declared
expression and stands at some place; and at whatever place it stands, the schema with that
expression in its place is accepted as well and gives every name the same value or fault in
every context. -/
theorem evaluateBinding_inlined (hp : schema.compile registry = .ok p) {e : Expr}
    (he : schema.Declares name e) (htarget : .binding target ∈ e.nodes) :
    ∃ body, schema.Declares target body ∧ (∃ place, e = Expr.fill place (.binding target)) ∧
      ∀ place, e = Expr.fill place (.binding target) →
        ∃ q, (schema.redefine name (Expr.fill place body)).compile registry = .ok q ∧
          ∀ ctx, ctx.isMapping = true → ∀ other ∈ schema.names,
            q.evaluateBinding ctx other = p.evaluateBinding ctx other := by
  have h := accepted_of_compile hp
  obtain ⟨d, hd, rfl⟩ := List.mem_map.1 (h.declared name target ⟨e, he, htarget⟩)
  obtain ⟨body, hbody⟩ := h.expression d hd
  have hbody : schema.Declares d.name body := ⟨d, hd, rfl, hbody⟩
  refine ⟨body, hbody, Expr.mem_nodes_iff_exists_place.1 htarget, ?_⟩
  rintro place rfl
  obtain ⟨q, hq⟩ := exists_compile_redefine hp he (Expr.isCall_fill body)
    (h.transGen_depends_inlined he hbody) (h.callable_inlined he hbody)
  refine ⟨q, hq, fun ctx hctx => ?_⟩
  apply h.evaluateBinding_redefine (accepted_of_compile hq) hctx he
  apply Expr.meaning_fill
  rw [← h.evaluateBinding_eq hctx hbody, Expr.meaning]

end Schema

namespace Example

/-- The place of the first conjunct in the first condition of the offer. -/
def firstConjunct : List Expr.Layer :=
  [.caseCondition [] (.literal (.string "A"))
      [⟨.binding "gold", .literal (.string "B")⟩] (some (.binding "fallback")),
    .argument "and" [] [.binding "eu"]]

/-- The expression of the trait that the first conjunct refers to. -/
def goldTest : Expr := .call "==" [.field "tier", .literal (.string "gold")]

/-- With the trait inlined, the first condition is no conjunction of traits any more. The
offer loses its decision table and keeps its value. -/
theorem evaluateBinding_inlined_offers :
    ∃ p q, offers.compile .builtins = .ok p ∧
      offers.Declares "offer" (Expr.fill firstConjunct (.binding "gold")) ∧
      .binding "gold" ∈ (Expr.fill firstConjunct (.binding "gold")).nodes ∧
      offers.Declares "gold" goldTest ∧
      (offers.redefine "offer" (Expr.fill firstConjunct goldTest)).compile .builtins = .ok q ∧
      p.hasDecisionTable "offer" = true ∧ q.hasDecisionTable "offer" = false ∧
      goldOverseas.isMapping = true ∧ "offer" ∈ offers.names ∧
      q.evaluateBinding goldOverseas "offer" = .ok (.string "B") := by
  obtain ⟨p, hp⟩ := exists_compile_offers
  have h := Schema.accepted_of_compile hp
  have he : offers.Declares "offer" (Expr.fill firstConjunct (.binding "gold")) :=
    ⟨_, List.mem_cons_self, rfl, rfl⟩
  have hgold : offers.Declares "gold" goldTest :=
    ⟨_, List.mem_cons_of_mem _ (List.mem_cons_of_mem _ List.mem_cons_self), rfl, rfl⟩
  have htarget := Expr.mem_nodes_fill firstConjunct (.binding "gold")
  obtain ⟨body, hbody, -, hinlined⟩ := Schema.evaluateBinding_inlined hp he htarget
  obtain rfl : body = goldTest := h.expression_unique hbody hgold
  obtain ⟨q, hq, hvalues⟩ := hinlined firstConjunct rfl
  have htables : ((offers.compile .builtins).toOption.map fun p => p.hasDecisionTable "offer") =
        some true ∧
      (((offers.redefine "offer" (Expr.fill firstConjunct goldTest)).compile .builtins).toOption.map
        fun q => q.hasDecisionTable "offer") = some false := by
    decide +kernel
  rw [hp, hq] at htables
  have hname : "offer" ∈ offers.names := by decide
  have hvalue : offers.meaning .builtins goldOverseas 4 "offer" = some (.ok (.string "B")) := rfl
  refine ⟨p, q, hp, he, htarget, hgold, hq, Option.some.inj htables.1, Option.some.inj htables.2,
    rfl, hname, ?_⟩
  rw [hvalues goldOverseas rfl "offer" hname]
  exact h.evaluateBinding_of_meaning rfl hname hvalue

end Example

end Rulebook
