/-
# What a name reads

The analysis lists the fields under each name and the names that it depends on. Together
they bound what plain evaluation of a name looks up: contexts that agree on the fields
listed under the name and under all it depends on give it the same value, or the same fault
but for the keys that a missing field is reported with. Nothing is claimed of sessions,
where an attribute may ask for every trait.
-/

import Rulebook.Proofs.Analysis.Leaves
import Rulebook.Proofs.PlainEvaluation
import Rulebook.Proofs.Traversal

namespace Rulebook

/-- Dependencies lead from the first name to the second, in any number of steps. -/
def Analysis.DependsOn (a : Analysis) : String → String → Prop :=
  Relation.ReflTransGen fun name target =>
    ∃ targets, a.dependenciesOf? name = some targets ∧ target ∈ targets

/-- The same fault, with other keys for those that the context is reported to have. -/
def Fault.withKeys (keys : List String) : Fault → Fault
  | .missingField field _ => .missingField field keys
  | fault => fault

/-- The second computation comes to what the first comes to, other keys reported. -/
def Coupling.relists (keys : List String) : Coupling (Except Fault) (Except Fault) where
  Rel x y := y = x.mapError (·.withKeys keys)
  pure _ := rfl
  bind {_ _ x y f g} hx hf := by
    subst hx
    cases x with
    | error fault => rfl
    | ok a => exact hf a

/-- A field on which two contexts agree is read alike in both. -/
theorem Coupling.relists_readField {ctx ctx' : Context} {field : String}
    (h : ctx.find? field = ctx'.find? field) :
    (relists ctx'.keys).Rel (Expr.readField ctx field) (Expr.readField ctx' field) := by
  cases hfind : ctx'.find? field with
  | some v =>
      rw [Expr.readField_of_some hfind, Expr.readField_of_some (h.trans hfind)]
      rfl
  | none =>
      rw [Expr.readField_of_none hfind, Expr.readField_of_none (h.trans hfind)]
      rfl

namespace Schema

variable {schema : Schema} {registry : Registry} {p : Program} {ctx ctx' : Context}

/-- Evaluation looks up no field but those that a name uses. -/
theorem Accepted.evaluateBinding_relists (h : schema.Accepted registry p)
    (hctx : ctx.isMapping = true) (hctx' : ctx'.isMapping = true) :
    ∀ name ∈ schema.names,
      (∀ field, schema.Uses name (.field field) → ctx.find? field = ctx'.find? field) →
      (Coupling.relists ctx'.keys).Rel (p.evaluateBinding ctx name)
        (p.evaluateBinding ctx' name) := by
  apply h.induction (P := fun name =>
    (∀ field, schema.Uses name (.field field) → ctx.find? field = ctx'.find? field) →
    (Coupling.relists ctx'.keys).Rel (p.evaluateBinding ctx name) (p.evaluateBinding ctx' name))
  intro name e he ih hagree
  rw [h.evaluateBinding_eq hctx he, h.evaluateBinding_eq hctx' he]
  apply (Coupling.relists ctx'.keys).meaning
  intro x hx
  cases x with
  | field field => exact Coupling.relists_readField (hagree field (.of_declares he hx))
  | binding target =>
      apply ih target hx
      intro field huses
      exact hagree field (huses.of_refers ⟨e, he, hx⟩)
  | call function args =>
      obtain ⟨f, hf, -⟩ := h.callable name e function args he hx
      exact (Coupling.relists ctx'.keys).applyFunction hf fun message => rfl
  | _ => trivial

/-- What a name uses stands under a name that it depends on, as the analysis tells. -/
theorem exists_leaf_of_uses (hp : schema.compile registry = .ok p) {name field : String}
    (huses : schema.Uses name (.field field)) :
    ∃ target, p.analysis.DependsOn name target ∧ .field field ∈ p.analysis.leavesOf target := by
  obtain ⟨hanalyze, -⟩ := analyze_of_compile hp
  obtain ⟨target, hreaches, he⟩ := huses
  refine ⟨target, ?_, ?_⟩
  · refine Relation.ReflTransGen.mono (fun source next hrefers => ?_) name target hreaches
    have hdeclared := (accepted_of_compile hp).declared source next hrefers
    have hedge : next ∈ (schema.draft registry).graph.targets source :=
      mem_targets_draft.2 ⟨hdeclared, hrefers⟩
    rw [(analysis_of_analyze hanalyze).2]
    exact Graph.mem_targets_iff.1 hedge
  · rw [leavesOf_of_analyze hanalyze, Leaf.field_mem_distinct]
    exact field_mem_leavesOf.2 he

/-- A name reads only the fields that the analysis lists. If two mappings agree on every
field that is a leaf of a declared name or of one that its dependencies lead to, then the
name has the same value in both; or it has the same fault in both, a missing field being
reported with the keys of the mapping at hand. -/
theorem evaluateBinding_of_agreeing_leaves (hp : schema.compile registry = .ok p)
    (hctx : ctx.isMapping = true) (hctx' : ctx'.isMapping = true) {name : String}
    (hname : name ∈ schema.names)
    (hagree : ∀ target field, p.analysis.DependsOn name target →
      .field field ∈ p.analysis.leavesOf target → ctx.find? field = ctx'.find? field) :
    p.evaluateBinding ctx' name =
      (p.evaluateBinding ctx name).mapError (·.withKeys ctx'.keys) := by
  apply (accepted_of_compile hp).evaluateBinding_relists hctx hctx' name hname
  intro field huses
  obtain ⟨target, hdepends, hleaf⟩ := exists_leaf_of_uses hp huses
  exact hagree target field hdepends hleaf

end Schema

namespace Example

/-- A context without a region. -/
def silver : Context := .ofMap (.ofList [("tier", .string "silver")])

/-- The same with a season, which the small rulebook does not look at. -/
def silverInWinter : Context :=
  .ofMap (.ofList [("tier", .string "silver"), ("season", .string "winter")])

theorem field_offers {name field : String} {e : Expr} (he : offers.Declares name e)
    (hfield : .field field ∈ e.nodes) : field = "tier" ∨ field = "region" := by
  obtain ⟨d, hd, -, he⟩ := he
  simp only [offers, Schema.declarations, List.cons_append, List.nil_append, List.append_nil,
    List.mem_cons, List.not_mem_nil, or_false] at hd
  rcases hd with rfl | rfl | rfl | rfl <;> cases he <;>
    simp_all [Expr.nodes, Expr.nodesOfList, Expr.nodesOfCases]

/-- Without a region there is no offer in either season; only the keys that are reported
tell the two contexts apart. -/
theorem evaluateBinding_of_agreeing_leaves_offers :
    ∃ p, offers.compile .builtins = .ok p ∧ silver.isMapping = true ∧
      silverInWinter.isMapping = true ∧ "offer" ∈ offers.names ∧
      (∀ target field, p.analysis.DependsOn "offer" target →
        .field field ∈ p.analysis.leavesOf target →
        silver.find? field = silverInWinter.find? field) ∧
      silver.find? "season" ≠ silverInWinter.find? "season" ∧
      p.evaluateBinding silver "offer" = .error (.missingField "region" ["tier"]) ∧
      p.evaluateBinding silverInWinter "offer" =
        .error (.missingField "region" ["season", "tier"]) := by
  have hfault : ((offers.compile .builtins).toOption.bind fun p =>
      fault? (p.evaluateBinding silver "offer")) = some (.missingField "region" ["tier"]) := by
    decide +kernel
  obtain ⟨p, hp, hfault⟩ := Option.bind_eq_some_iff.1 hfault
  rw [toOption_eq_some_iff] at hp
  rw [fault?_eq_some_iff] at hfault
  have hname : "offer" ∈ offers.names := by decide
  have hagree : ∀ target field, p.analysis.DependsOn "offer" target →
      .field field ∈ p.analysis.leavesOf target →
      silver.find? field = silverInWinter.find? field := by
    intro target field _ hleaf
    rw [Schema.leavesOf_of_analyze (Schema.analyze_of_compile hp).1,
      Leaf.field_mem_distinct] at hleaf
    obtain ⟨e, he, hnode⟩ := Schema.field_mem_leavesOf.1 hleaf
    rcases field_offers he hnode with rfl | rfl <;> rfl
  have hsame := Schema.evaluateBinding_of_agreeing_leaves hp rfl rfl hname hagree
  rw [hfault] at hsame
  exact ⟨p, hp, rfl, rfl, hname, hagree, nofun, hfault, hsame⟩

end Example

end Rulebook
