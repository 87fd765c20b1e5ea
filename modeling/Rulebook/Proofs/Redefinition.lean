/-
# Another expression for a name

A schema in which one name gets another expression, with everything else in its place. What
the declarations say changes for that name only. The new schema is accepted as soon as the
new expression fits the kind of the name, its references and calls lead somewhere, and what
it refers to was reached from the name before. And all names keep their values, although
the order of the slots and the decision tables may be others, as soon as the two
expressions mean the same where the other names have their values.
-/

import Rulebook.Proofs.Analysis.Problems
import Rulebook.Proofs.PlainEvaluation

namespace Rulebook

/-- A declaration with another expression, if it is one of the name. -/
def Declaration.redefine (name : String) (e : Expr) (d : Declaration) : Declaration :=
  if d.name = name then { d with expression := some e } else d

namespace Declaration

variable {name : String} {e : Expr} {d : Declaration}

theorem redefine_of_eq (h : d.name = name) : d.redefine name e = { d with expression := some e } :=
  if_pos h

theorem redefine_of_ne (h : d.name ≠ name) : d.redefine name e = d := if_neg h

@[simp] theorem name_redefine : (d.redefine name e).name = d.name := by
  unfold redefine
  split <;> rfl

@[simp] theorem kind_redefine : (d.redefine name e).kind = d.kind := by
  unfold redefine
  split <;> rfl

end Declaration

namespace Schema

/-- The schema with another expression for a name. -/
def redefine (schema : Schema) (name : String) (e : Expr) : Schema where
  attributes := schema.attributes.map (Declaration.redefine name e)
  traits := schema.traits.map (Declaration.redefine name e)
  functions := schema.functions.map (Declaration.redefine name e)

variable {schema : Schema} {registry : Registry} {name : String} {e e' : Expr}

theorem declarations_redefine : (schema.redefine name e).declarations =
    schema.declarations.map (Declaration.redefine name e) := by
  simp [declarations, redefine]

@[simp] theorem names_redefine : (schema.redefine name e).names = schema.names := by
  simp [names, declarations_redefine, Function.comp_def]

theorem declares_redefine_self {x : Expr} :
    (schema.redefine name e).Declares name x ↔ name ∈ schema.names ∧ x = e := by
  simp only [Declares, declarations_redefine, List.mem_map, exists_exists_and_eq_and, names]
  constructor
  · rintro ⟨d, hd, hname, hexpression⟩
    rw [Declaration.name_redefine] at hname
    rw [Declaration.redefine_of_eq hname] at hexpression
    exact ⟨⟨d, hd, hname⟩, (Option.some.inj hexpression).symm⟩
  · rintro ⟨⟨d, hd, hname⟩, rfl⟩
    refine ⟨d, hd, ?_⟩
    rw [Declaration.redefine_of_eq hname]
    exact ⟨hname, rfl⟩

theorem declares_redefine_of_ne {other : String} (hne : other ≠ name) {x : Expr} :
    (schema.redefine name e).Declares other x ↔ schema.Declares other x := by
  simp only [Declares, declarations_redefine, List.mem_map, exists_exists_and_eq_and,
    Declaration.name_redefine]
  refine exists_congr fun d => and_congr_right fun _ => and_congr_right fun hname => ?_
  rw [Declaration.redefine_of_ne (hname ▸ hne)]

/-! ## Acceptance -/

/-- A redefined schema is well formed if the new expression is a call where the old one was,
and its references and calls lead somewhere. -/
theorem WellFormed.redefine (h : schema.WellFormed registry) (he : schema.Declares name e)
    (hcall : e.isCall = true → e'.isCall = true)
    (hdeclared : ∀ target, .binding target ∈ e'.nodes → target ∈ schema.names)
    (hcallable : ∀ function args, .call function args ∈ e'.nodes →
      ∃ f, registry.find? function = some f ∧ f.arity.accepts args.length = true) :
    (schema.redefine name e').WellFormed registry where
  names_nodup := by
    rw [names_redefine]
    exact h.names_nodup
  expression d' hd' := by
    rw [declarations_redefine] at hd'
    obtain ⟨d, hd, rfl⟩ := List.mem_map.1 hd'
    by_cases hname : d.name = name
    · exact ⟨e', by rw [Declaration.redefine_of_eq hname]⟩
    · rw [Declaration.redefine_of_ne hname]
      exact h.expression d hd
  trait_call d' hd' hkind := by
    rw [declarations_redefine] at hd'
    obtain ⟨d, hd, rfl⟩ := List.mem_map.1 hd'
    rw [Declaration.kind_redefine] at hkind
    obtain ⟨function, args, hexpression⟩ := h.trait_call d hd hkind
    by_cases hname : d.name = name
    · obtain rfl : e = .call function args :=
        h.expression_unique he ⟨d, hd, hname, hexpression⟩
      have hnew := hcall rfl
      rw [Declaration.redefine_of_eq hname]
      cases e' with
      | call function args => exact ⟨function, args, rfl⟩
      | _ => cases hnew
    · rw [Declaration.redefine_of_ne hname]
      exact ⟨function, args, hexpression⟩
  declared source target hrefers := by
    obtain ⟨x, hx, htarget⟩ := hrefers
    rw [names_redefine]
    by_cases hsource : source = name
    · subst hsource
      obtain ⟨-, rfl⟩ := declares_redefine_self.1 hx
      exact hdeclared target htarget
    · exact h.declared source target ⟨x, (declares_redefine_of_ne hsource).1 hx, htarget⟩
  callable source x function args hx hmem := by
    by_cases hsource : source = name
    · subst hsource
      obtain ⟨-, rfl⟩ := declares_redefine_self.1 hx
      exact hcallable function args hmem
    · exact h.callable source x function args ((declares_redefine_of_ne hsource).1 hx) hmem

/-- References of a redefined schema lead where references led before, if those of the new
expression do. -/
theorem transGen_depends_of_redefine
    (hrefs : ∀ target, .binding target ∈ e'.nodes → Relation.TransGen schema.Depends name target)
    {source target : String}
    (h : Relation.TransGen (schema.redefine name e').Depends source target) :
    Relation.TransGen schema.Depends source target := by
  have hstep : ∀ a b, (schema.redefine name e').Depends a b →
      Relation.TransGen schema.Depends a b := by
    rintro a b ⟨hb, x, hx, hmem⟩
    rw [names_redefine] at hb
    by_cases ha : a = name
    · subst ha
      obtain ⟨-, rfl⟩ := declares_redefine_self.1 hx
      exact hrefs b hmem
    · exact .single ⟨hb, x, (declares_redefine_of_ne ha).1 hx, hmem⟩
  exact Relation.TransGen.closed hstep source target h

/-- A redefined schema is accepted if the new expression is a call where the old one was,
its calls are accepted, and it refers to nothing that the name did not reach. -/
theorem exists_compile_redefine {p : Program} (hp : schema.compile registry = .ok p)
    (he : schema.Declares name e) (hcall : e.isCall = true → e'.isCall = true)
    (hrefs : ∀ target, .binding target ∈ e'.nodes → Relation.TransGen schema.Depends name target)
    (hcallable : ∀ function args, .call function args ∈ e'.nodes →
      ∃ f, registry.find? function = some f ∧ f.arity.accepts args.length = true) :
    ∃ q, (schema.redefine name e').compile registry = .ok q := by
  obtain ⟨hwell, hacyclic⟩ := exists_compile_iff.1 ⟨p, hp⟩
  have hdeclared : ∀ target, .binding target ∈ e'.nodes → target ∈ schema.names := by
    intro target htarget
    obtain ⟨_, -, hlast⟩ := Relation.TransGen.tail'_iff.1 (hrefs target htarget)
    exact hlast.1
  exact exists_compile_iff.2 ⟨hwell.redefine he hcall hdeclared hcallable,
    fun a ha => hacyclic a (transGen_depends_of_redefine hrefs ha)⟩

/-! ## Values -/

/-- No name changes its value if the two expressions mean the same where the names have the
values that they had. -/
theorem Accepted.evaluateBinding_redefine {p q : Program} {ctx : Context}
    (h : schema.Accepted registry p) (h' : (schema.redefine name e').Accepted registry q)
    (hctx : ctx.isMapping = true) (he : schema.Declares name e)
    (hmeaning : e'.meaning registry ctx (p.evaluateBinding ctx) =
      e.meaning registry ctx (p.evaluateBinding ctx)) :
    ∀ other ∈ schema.names, q.evaluateBinding ctx other = p.evaluateBinding ctx other := by
  have hnames : (schema.redefine name e').names = schema.names := names_redefine
  rw [← hnames]
  apply h'.induction (P := fun other =>
    q.evaluateBinding ctx other = p.evaluateBinding ctx other)
  intro other x hx ih
  rw [h'.evaluateBinding_eq hctx hx, Expr.meaning_congr ih]
  by_cases hother : other = name
  · subst hother
    obtain ⟨-, rfl⟩ := declares_redefine_self.1 hx
    rw [hmeaning, h.evaluateBinding_eq hctx he]
  · rw [h.evaluateBinding_eq hctx ((declares_redefine_of_ne hother).1 hx)]

end Schema

end Rulebook
