/-
# Locality of plain evaluation

What a name evaluates to is settled by the expressions of the names that it reaches.
A second schema that declares these names with the same expressions gives the same
value or the same fault, whatever else it declares, in whatever order, under whatever
kinds and in whichever of its lists. The two programs need not agree on the number of
any slot, nor on which names have a decision table.
-/

import Rulebook.Proofs.PlainEvaluation
import Rulebook.Proofs.Traversal

namespace Rulebook

namespace Schema

variable {schema other : Schema} {registry : Registry} {p q : Program} {ctx : Context}

/-- The equation of a name mentions nothing but its expression and the values of what it
refers to, so two solutions agree on a name if the equations do on all it reaches. -/
theorem Accepted.evaluateBinding_eq_of_below (h : schema.Accepted registry p)
    (h' : other.Accepted registry q) (hctx : ctx.isMapping = true) :
    ∀ name ∈ schema.names,
      (∀ target e, schema.Reaches name target → schema.Declares target e →
        other.Declares target e) →
      p.evaluateBinding ctx name = q.evaluateBinding ctx name := by
  apply h.induction (P := fun name => (∀ target e, schema.Reaches name target →
      schema.Declares target e → other.Declares target e) →
    p.evaluateBinding ctx name = q.evaluateBinding ctx name)
  intro name e he ih hbelow
  have he' : other.Declares name e := hbelow name e .refl he
  rw [h.evaluateBinding_eq hctx he, h'.evaluateBinding_eq hctx he']
  apply Expr.meaning_congr
  intro target htarget
  apply ih target htarget
  intro last e' hreaches
  exact hbelow last e' (Relation.ReflTransGen.head ⟨e, he, htarget⟩ hreaches)

/-- Plain evaluation is local. If two accepted schemas have the same expression for every
name that the first reaches from a declared name, they give that name the same value or
fault; that the second schema reaches the same names is not asked for, since it follows.
So no name is changed by declaring the same in another order or under other kinds, or by
declaring more. -/
theorem evaluateBinding_eq_of_declares (hp : schema.compile registry = .ok p)
    (hq : other.compile registry = .ok q) (hctx : ctx.isMapping = true) :
    (∀ name ∈ schema.names,
      (∀ target e, schema.Reaches name target → schema.Declares target e →
        other.Declares target e) →
      p.evaluateBinding ctx name = q.evaluateBinding ctx name) ∧
    ((∀ target e, schema.Declares target e → other.Declares target e) →
      ∀ name ∈ schema.names, p.evaluateBinding ctx name = q.evaluateBinding ctx name) := by
  have hlocal := (accepted_of_compile hp).evaluateBinding_eq_of_below (accepted_of_compile hq) hctx
  exact ⟨hlocal, fun hmore name hname => hlocal name hname fun target e _ => hmore target e⟩

end Schema

namespace Example

/-- The small rulebook told differently: in another order, with attributes and a function
in place of the traits, so that there is no decision table any more, and with a banner. -/
def offersRetold : Schema where
  attributes :=
    [⟨.attribute, "banner", some (.list [.binding "offer", .field "season"]), none⟩,
      ⟨.attribute, "gold", some (.call "==" [.field "tier", .literal (.string "gold")]), none⟩,
      ⟨.attribute, "fallback", some (.call "concatenate"
        [.literal (.string "none in "), .field "region"]), none⟩]
  traits := []
  functions :=
    [⟨.function, "offer", some (.cascade
        [⟨.call "and" [.binding "gold", .binding "eu"], .literal (.string "A")⟩,
          ⟨.binding "gold", .literal (.string "B")⟩]
        (some (.binding "fallback"))), none⟩,
      ⟨.function, "eu", some (.call "==" [.field "region", .literal (.string "eu")]), none⟩]

theorem offersRetold_declares {target : String} {e : Expr} (h : offers.Declares target e) :
    offersRetold.Declares target e := by
  obtain ⟨d, hd, rfl, he⟩ := h
  simp only [offers, Schema.declarations, List.cons_append, List.nil_append, List.append_nil,
    List.mem_cons, List.not_mem_nil, or_false] at hd
  simp only [Schema.Declares, offersRetold, Schema.declarations]
  rcases hd with rfl | rfl | rfl | rfl <;> simp_all

/-- The offer has a decision table in one telling only, and it is the second one, `"B"`, in
both; every other name of the first has the same value in both as well. -/
theorem evaluateBinding_eq_of_declares_offers :
    ∃ p q, offers.compile .builtins = .ok p ∧ offersRetold.compile .builtins = .ok q ∧
      p.hasDecisionTable "offer" = true ∧ q.hasDecisionTable "offer" = false ∧
      goldOverseas.isMapping = true ∧ "offer" ∈ offers.names ∧
      (∀ target e, offers.Reaches "offer" target → offers.Declares target e →
        offersRetold.Declares target e) ∧
      p.evaluateBinding goldOverseas "offer" = .ok (.string "B") ∧
      q.evaluateBinding goldOverseas "offer" = .ok (.string "B") ∧
      (∀ target e, offers.Declares target e → offersRetold.Declares target e) ∧
      ∀ name ∈ offers.names,
        p.evaluateBinding goldOverseas name = q.evaluateBinding goldOverseas name := by
  have hruns : ((offers.compile .builtins).toOption.bind fun p =>
      (offersRetold.compile .builtins).toOption.map fun q =>
        (p.hasDecisionTable "offer", q.hasDecisionTable "offer")) = some (true, false) := by
    decide +kernel
  obtain ⟨p, hp, hruns⟩ := Option.bind_eq_some_iff.1 hruns
  obtain ⟨q, hq, htables⟩ := Option.map_eq_some_iff.1 hruns
  obtain ⟨htable, hnotable⟩ := Prod.mk.inj htables
  rw [toOption_eq_some_iff] at hp hq
  have hctx : goldOverseas.isMapping = true := rfl
  have hname : "offer" ∈ offers.names := by decide
  have hbelow : ∀ target e, offers.Reaches "offer" target → offers.Declares target e →
      offersRetold.Declares target e := fun target e _ => offersRetold_declares
  have hmore : ∀ target e, offers.Declares target e → offersRetold.Declares target e :=
    fun target e => offersRetold_declares
  obtain ⟨hlocal, hall⟩ := Schema.evaluateBinding_eq_of_declares hp hq hctx
  have hsame := hlocal "offer" hname hbelow
  have hvalue : p.evaluateBinding goldOverseas "offer" = .ok (.string "B") :=
    (Schema.accepted_of_compile hp).evaluateBinding_of_meaning hctx hname
      (rfl : offers.meaning .builtins goldOverseas 4 "offer" = some (.ok (.string "B")))
  exact ⟨p, q, hp, hq, htable, hnotable, hctx, hname, hbelow, hvalue, hsame.symm.trans hvalue,
    hmore, hall hmore⟩

end Example

end Rulebook
