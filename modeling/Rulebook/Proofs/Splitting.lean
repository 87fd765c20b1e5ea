/-
# Splitting a cascade

The cases of a cascade may be parted anywhere: the later ones, together with the default,
can become a cascade of their own that is the default of the earlier ones. The first true
case stays the first true one, a condition is looked at only if all before it are false, and
a missing default is `null` in the inner cascade as it was in the outer one. The walk of the
analysis meets the same parts in the same order. A decision table does change: it has fewer
rows, and the last one resolves with the inner cascade.
-/

import Rulebook.Proofs.Analysis.Rewording

namespace Rulebook

/-! ## Evaluation -/

namespace Expr

section Meaning

variable {m : Type → Type} [Monad m] [LawfulMonad m] [MonadExceptOf Fault m]
variable (registry : Registry) (ctx : Context) (ask : String → m Value)

/-- Later cases count only if no earlier one is true. -/
theorem meaningOfCases_append (xs ys : List Case) :
    meaningOfCases registry ctx ask (xs ++ ys) = (do
      match ← meaningOfCases registry ctx ask xs with
      | some value => return some value
      | none => meaningOfCases registry ctx ask ys) := by
  induction xs with
  | nil => simp [meaningOfCases]
  | cons c rest ih =>
      rw [List.cons_append, meaningOfCases_cons, meaningOfCases_cons, bind_assoc]
      congr 1
      funext verdict
      by_cases hverdict : verdict.isTruthy = true
      · simp [hverdict]
      · simp [hverdict, ih]

/-- A cascade means the same with its later cases in the default. -/
theorem meaning_split (xs ys : List Case) (otherwise : Option Expr) :
    (cascade xs (some (cascade ys otherwise))).meaning registry ctx ask =
      (cascade (xs ++ ys) otherwise).meaning registry ctx ask := by
  cases otherwise with
  | none =>
      rw [meaning, meaning, meaning, meaningOfCases_append, bind_assoc]
      congr 1
      funext value
      cases value <;> simp
  | some e =>
      rw [meaning, meaning, meaning, meaningOfCases_append, bind_assoc]
      congr 1
      funext value
      cases value <;> simp

end Meaning

end Expr

/-! ## Analysis -/

namespace Shapes

theorem visitCases_append (registry : Registry) (definitions : NameMap Declaration)
    (d : Declaration) (xs ys : List Case) (w : Draft) :
    visitCases registry definitions d (xs ++ ys) w =
      visitCases registry definitions d ys (visitCases registry definitions d xs w) := by
  induction xs generalizing w with
  | nil => rfl
  | cons c rest ih =>
      obtain ⟨condition, result⟩ := c
      rw [List.cons_append, visitCases, visitCases, ih]

/-- The walk meets the same cases and the same default in the same order. -/
theorem walkedAlike_split (xs ys : List Case) (otherwise : Option Expr) :
    WalkedAlike (.cascade xs (some (.cascade ys otherwise))) (.cascade (xs ++ ys) otherwise) := by
  intro registry definitions d w
  cases otherwise with
  | none => rw [visit, visit, visit, visitCases_append]
  | some e => rw [visit, visit, visit, visitCases_append]

end Shapes

/-! ## Splitting -/

/-- Cascades may be split anywhere. In an accepted schema, whatever cascade stands in an
expression of a name, at whatever place and with its cases parted in whatever way: with the
later cases and the default moved into a cascade of their own, the analysis of the schema is
the same, and every name keeps its value or fault in every context. -/
theorem Schema.evaluateBinding_split {schema : Schema} {registry : Registry} {p : Program}
    (hp : schema.compile registry = .ok p) {name : String} {e : Expr}
    (he : schema.Declares name e) {xs ys : List Case} {otherwise : Option Expr}
    (hcascade : .cascade (xs ++ ys) otherwise ∈ e.nodes) :
    (∃ place, e = Expr.fill place (.cascade (xs ++ ys) otherwise)) ∧
    ∀ place, e = Expr.fill place (.cascade (xs ++ ys) otherwise) →
      ∀ parted, parted = schema.redefine name
          (Expr.fill place (.cascade xs (some (.cascade ys otherwise)))) →
        (∃ a, schema.analyze registry = .ok a ∧ parted.analyze registry = .ok a) ∧
        ∃ q, parted.compile registry = .ok q ∧
          ∀ ctx, ctx.isMapping = true → ∀ other ∈ schema.names,
            q.evaluateBinding ctx other = p.evaluateBinding ctx other := by
  refine ⟨Expr.mem_nodes_iff_exists_place.1 hcascade, ?_⟩
  rintro place rfl parted rfl
  have halike := (Shapes.walkedAlike_split xs ys otherwise).fill place
  have hanalyze := analyze_redefine hp he (Expr.isCall_fill_congr place (by rfl)) halike
  have hcompile := compile_of_analyze hanalyze
  refine ⟨⟨p.analysis, (analyze_of_compile hp).1, hanalyze⟩, _, hcompile, ?_⟩
  intro ctx hctx
  apply (accepted_of_compile hp).evaluateBinding_redefine (accepted_of_compile hcompile) hctx he
  exact Expr.meaning_fill place (Expr.meaning_split registry ctx _ xs ys otherwise)

namespace Example

/-- A fee with a surcharge that depends on two traits and has no default. -/
def parking : Schema where
  attributes :=
    [⟨.attribute, "fee", some (.call "add" [.field "hours", .cascade
        [⟨.binding "resident", .literal (.int 0)⟩, ⟨.binding "night", .field "surcharge"⟩]
        none]), none⟩]
  traits :=
    [⟨.trait, "night", some (.call ">=" [.field "hour", .literal (.int 22)]), none⟩,
      ⟨.trait, "resident", some (.call "==" [.field "zone", .literal (.string "home")]), none⟩]
  functions := []

/-- A visitor at noon, about whom nothing but the zone and the hours is known. -/
def visitorAtNoon : Context :=
  .ofMap (.ofList [("hour", .int 12), ("hours", .int 2), ("zone", .string "harbour")])

/-- The place of the surcharge. -/
def surcharge : List Expr.Layer := [.argument "add" [.field "hours"] []]

/-- For the visitor no case is true, so the surcharge is `null` and the fee cannot be added
up; and so it is with the second case moved into the default. -/
theorem evaluateBinding_split_parking :
    ∃ p q, parking.compile .builtins = .ok p ∧
      parking.Declares "fee" (Expr.fill surcharge (.cascade
        ([⟨.binding "resident", .literal (.int 0)⟩] ++ [⟨.binding "night", .field "surcharge"⟩])
        none)) ∧
      (parking.redefine "fee" (Expr.fill surcharge (.cascade
        [⟨.binding "resident", .literal (.int 0)⟩]
        (some (.cascade [⟨.binding "night", .field "surcharge"⟩] none))))).compile .builtins =
          .ok q ∧
      q.analysis.order = ["night", "resident", "fee"] ∧
      visitorAtNoon.isMapping = true ∧ "fee" ∈ parking.names ∧
      q.evaluateBinding visitorAtNoon "fee" =
        .error (.call "add" "expected a number, got null") := by
  have hcompiled : (parking.compile .builtins).toOption.map (fun p => p.analysis.order) =
      some ["night", "resident", "fee"] := by
    decide +kernel
  obtain ⟨p, hp, horder⟩ := Option.map_eq_some_iff.1 hcompiled
  rw [toOption_eq_some_iff] at hp
  have he : parking.Declares "fee" (Expr.fill surcharge (.cascade
      ([⟨.binding "resident", .literal (.int 0)⟩] ++ [⟨.binding "night", .field "surcharge"⟩])
      none)) := ⟨_, List.mem_cons_self, rfl, rfl⟩
  obtain ⟨-, hsplit⟩ := Schema.evaluateBinding_split hp he (Expr.mem_nodes_fill surcharge _)
  obtain ⟨⟨a, ha, hparted⟩, q, hq, hvalues⟩ := hsplit surcharge rfl _ rfl
  have hname : "fee" ∈ parking.names := by decide
  have hsame : q.analysis = p.analysis := by
    have hanalysis := (Schema.analyze_of_compile hq).1
    rw [hparted, ← ha, (Schema.analyze_of_compile hp).1] at hanalysis
    exact (Except.ok.inj hanalysis).symm
  refine ⟨p, q, hp, he, hq, hsame ▸ horder, rfl, hname, ?_⟩
  rw [hvalues visitorAtNoon rfl "fee" hname]
  exact (Schema.accepted_of_compile hp).evaluateBinding_of_meaning rfl hname
    (rfl : parking.meaning .builtins visitorAtNoon 3 "fee" =
      some (.error (.call "add" "expected a number, got null")))

end Example

end Rulebook
