/-
# Sessions away from decision tables

Where no decision table is consulted, memory is all that a session adds to plain
evaluation, and memory does not show: a name resolves to what plain evaluation gives, the
same value or the same fault, whatever was called before. Nothing is assumed of the
passes that analyzed the schema. Names may be listed twice or not at all, and references
may go in circles, which both report by the same path.
-/

import Rulebook.Proofs.History
import Rulebook.Proofs.PlainEvaluation

namespace Rulebook

namespace Schema

/-- Neither a name nor any that it leads to has a decision table. -/
def AwayFromTables (schema : Schema) (p : Program) (name : String) : Prop :=
  ∀ target, Relation.ReflTransGen (schema.Leads p) name target →
    p.hasDecisionTable target = false

variable {schema : Schema} {registry : Registry} {p : Program} {ctx : Context} {name : String}

theorem AwayFromTables.of_leads {target : String} (h : schema.AwayFromTables p name)
    (hleads : schema.Leads p name target) : schema.AwayFromTables p target :=
  fun last hlast => h last (Relation.ReflTransGen.head hleads hlast)

/-- The slot of such a name has no table. -/
theorem AwayFromTables.table_eq_none (h : schema.AwayFromTables p name) {slot : Nat}
    (hslot : p.slotOf? name = some slot) {entry : Slot} (hentry : p.slots[slot]? = some entry) :
    entry.table = none := by
  have htable := h name .refl
  simpa [Program.hasDecisionTable, Program.find?, hslot, hentry] using htable

end Schema

/-- Evaluation with memory comes to the outcome that evaluation without it has, as long as
the state is as it should be. -/
def Coupling.plainOutcome {σ : Type} (Inv : σ → Prop) :
    Coupling (ExceptT Fault (StateM σ)) (Except Fault) where
  Rel x y := ∀ s, Inv s → Inv (x.run s).2 ∧ (x.run s).1 = y
  pure a s hs := ⟨hs, rfl⟩
  bind {_ _ x y f g} hx hf s hs := by
    obtain ⟨hinv, houtcome⟩ := hx s hs
    rw [run_bind]
    rcases hrun : x.run s with ⟨fault | a, s'⟩
    · rw [hrun] at hinv houtcome
      subst houtcome
      exact ⟨hinv, rfl⟩
    · rw [hrun] at hinv houtcome
      subst houtcome
      exact hf a s' hinv

theorem Coupling.plainOutcome_ask {Inv : Memo → Prop}
    {lookUp : Nat → ExceptT Fault (StateM Memo) Value} {next : Nat} {y : Except Fault Value}
    (h : (plainOutcome Inv).Rel (lookUp next) y) :
    (plainOutcome fun progress => Inv progress.memo).Rel (Progress.ask lookUp next) y :=
  run_ask_of_lookUp (Q := fun r => r = y) h

namespace Schema.Compiled

open Memo

variable {schema : Schema} {registry : Registry} {p : Program} {ctx : Context}
  (h : schema.Compiled registry p)

include h

/-- Away from tables a slot is derived by its code, so it comes to what plain evaluation
comes to if all it asks for does. -/
theorem resolveWith_eq_of_inside {walk : List Nat} {name : String} {slot : Nat}
    (haway : schema.AwayFromTables p name) (hslot : p.slotOf? name = some slot) {entry : Slot}
    (hentry : p.slots[slot]? = some entry) (hwalk : slot ∉ walk)
    (hinside : ∀ target next memo, schema.AwayFromTables p target →
      p.slotOf? target = some next → memo.FoundedOutside p ctx (slot :: walk) →
      (p.resolveWith ctx (slot :: walk) next memo).1 = p.resolve ctx (slot :: walk) next) :
    (p.resolveWith ctx walk slot []).1 = p.resolve ctx walk slot := by
  have hname : entry.name = name :=
    (Program.slotName_eq hentry).symm.trans (Program.slotName_of_slotOf? hslot)
  have hask : ∀ target next, schema.Leads p entry.name target → p.slotOf? target = some next →
      (Coupling.plainOutcome fun progress : Progress =>
          progress.memo.FoundedOutside p ctx (slot :: walk)).Rel
        (Progress.ask (p.resolveWith ctx (slot :: walk)) next)
        (p.resolve ctx (slot :: walk) next) := by
    intro target next hleads hnext
    apply Coupling.plainOutcome_ask
    intro memo hmemo
    exact ⟨(h.foundedOutside_resolveWith _ next memo hmemo).1,
      hinside target next memo (haway.of_leads (hname ▸ hleads)) hnext hmemo⟩
  have hcode := h.coupled_code_of_leads _ ctx
    (fun fault _ progress hprogress => ⟨hprogress, rfl⟩) hentry hask
  have hderive : (Coupling.plainOutcome fun progress : Progress =>
        progress.memo.FoundedOutside p ctx (slot :: walk)).Rel
      (p.derive ctx (Progress.ask (p.resolveWith ctx (slot :: walk))) entry)
      (entry.code.eval ctx (p.resolve ctx (slot :: walk)) >>= fun v =>
        pure (v, entry.description)) := by
    unfold Program.derive
    rw [haway.table_eq_none hslot hentry]
    exact Coupling.bind _ hcode fun v => Coupling.pure _ _
  have hnil : Memo.FoundedOutside p ctx (slot :: walk) [] := ⟨.nil, fun _ _ => rfl⟩
  obtain ⟨-, houtcome⟩ := hderive ⟨[], []⟩ hnil
  rw [Program.resolveWith_of_not_mem rfl hentry hwalk, Progress.finish_fst, houtcome,
    p.resolve_of_not_mem ctx hentry hwalk]
  cases entry.code.eval ctx (p.resolve ctx (slot :: walk)) <;> rfl

/-- Away from tables a slot comes to what plain evaluation comes to, inside the same walk
and whatever is remembered. -/
theorem resolveWith_eq_resolve (walk : List Nat) : ∀ name slot memo,
    schema.AwayFromTables p name → p.slotOf? name = some slot →
    memo.FoundedOutside p ctx walk →
    (p.resolveWith ctx walk slot memo).1 = p.resolve ctx walk slot := by
  induction walk using walk_induction (List.range p.size) with
  | step walk ih =>
      intro name slot memo haway hslot hmemo
      -- What is remembered makes no difference, so let it be nothing.
      have hnil : Memo.FoundedOutside p ctx walk [] := ⟨.nil, fun _ _ => rfl⟩
      rw [h.outcome_eq walk slot memo [] hmemo hnil]
      cases hentry : p.slots[slot]? with
      | none => rw [Program.resolveWith_of_none rfl hentry, p.resolve_of_none ctx hentry]
      | some entry =>
          by_cases hwalk : slot ∈ walk
          · rw [Program.resolveWith_of_mem rfl hentry hwalk, p.resolve_of_mem ctx hentry hwalk]
          · have hsize : slot ∈ List.range p.size :=
              List.mem_range.2 (List.getElem?_eq_some_iff.1 hentry).1
            exact h.resolveWith_eq_of_inside haway hslot hentry hwalk (ih slot hsize hwalk)

end Schema.Compiled

/-- Away from decision tables a session is plain evaluation. Whatever was called on it
before, successfully or not, a name that leads to no table resolves to what its plain
evaluation gives, the same value or the same fault. -/
theorem Schema.resolve_eq_evaluateBinding {schema : Schema} {passes : List Pass}
    {registry : Registry} {p : Program} {ctx : Context}
    (hp : schema.compileWith passes registry = .ok p) {start s : Session}
    (hopen : p.session ctx = .ok start) (hlater : start.Later s) {name : String}
    (haway : schema.AwayFromTables p name) :
    (s.resolve name).1 = p.evaluateBinding ctx name := by
  have h := compiled_of_compileWith hp
  have hctx := (Program.session_eq_ok_iff.1 hopen).1
  obtain ⟨program, context, memo⟩ := s
  obtain ⟨rfl, rfl, hmemo⟩ := h.founded_of_later hopen hlater
  cases hslot : program.slotOf? name with
  | none =>
      rw [Session.resolve_of_slotOf?_eq_none hslot, Program.evaluateBinding, Program.slotOf, hslot]
      rfl
  | some slot =>
      rw [Session.resolve_of_slotOf? hslot, Program.evaluateBinding_eq_resolve hctx hslot]
      exact h.resolveWith_eq_resolve [] name slot memo haway hslot hmemo

namespace Example

/-- A road that leads around itself unless the bridge is open, and a fare that has a
decision table. -/
def commutes : Schema where
  attributes :=
    [⟨.attribute, "route", some (.cascade
        [⟨.field "open", .literal (.string "bridge")⟩] (some (.binding "detour"))), none⟩,
      ⟨.attribute, "detour", some (.binding "route"), none⟩,
      ⟨.attribute, "fare", some (.cascade
        [⟨.binding "senior", .literal (.string "reduced")⟩]
        (some (.literal (.string "full")))), none⟩]
  traits := [⟨.trait, "senior", some (.call ">=" [.field "age", .literal (.int 65)]), none⟩]
  functions := []

/-- The bridge is closed to everybody. -/
def closedAt70 : Context := .ofMap (.ofList [("open", .bool false), ("age", .int 70)])

/-- The detour leads to itself and to the route. -/
theorem awayFromTables_detour {p : Program} (hdetour : p.hasDecisionTable "detour" = false)
    (hroute : p.hasDecisionTable "route" = false) : commutes.AwayFromTables p "detour" := by
  have hclosed : ∀ target, Relation.ReflTransGen (commutes.Leads p) "detour" target →
      target = "detour" ∨ target = "route" := by
    intro target hreach
    induction hreach with
    | refl => exact .inl rfl
    | @tail before after _ hleads ih =>
        obtain ⟨d, e, hfind, he, hnode, -⟩ := hleads
        rcases ih with rfl | rfl
        · cases (rfl : commutes.find? "detour" = some _).symm.trans hfind
          cases he
          simpa [Expr.nodes] using Or.inr hnode
        · cases (rfl : commutes.find? "route" = some _).symm.trans hfind
          cases he
          simpa [Expr.nodes, Expr.nodesOfCases] using Or.inl hnode
  intro target hreach
  rcases hclosed target hreach with rfl | rfl
  · exact hdetour
  · exact hroute

/-- After the fare was explained from its table and the route was found to lead around
itself, the detour resolves to the cycle that its plain evaluation comes to. -/
theorem resolve_eq_evaluateBinding_commutes :
    ∃ p start, commutes.compileWith [.names, .shapes, .declarationOrder] .builtins = .ok p ∧
      p.session closedAt70 = .ok start ∧ p.hasDecisionTable "fare" = true ∧
      commutes.AwayFromTables p "detour" ∧
      p.evaluateBinding closedAt70 "detour" = .error (.cycle ["detour", "route", "detour"]) ∧
      (((start.explain "fare").2.resolve "route").2.resolve "detour").1 =
        .error (.cycle ["detour", "route", "detour"]) := by
  have hruns : ((commutes.compileWith [.names, .shapes, .declarationOrder]
      .builtins).toOption.bind fun p => (p.session closedAt70).toOption.bind fun _ =>
        (fault? (p.evaluateBinding closedAt70 "detour")).map fun fault =>
          (fault, p.hasDecisionTable "fare", p.hasDecisionTable "detour",
            p.hasDecisionTable "route")) =
      some (.cycle ["detour", "route", "detour"], true, false, false) := by
    decide +kernel
  obtain ⟨p, hp, hruns⟩ := Option.bind_eq_some_iff.1 hruns
  obtain ⟨start, hopen, hruns⟩ := Option.bind_eq_some_iff.1 hruns
  obtain ⟨fault, hfault, htables⟩ := Option.map_eq_some_iff.1 hruns
  obtain ⟨rfl, hfare, hdetour, hroute⟩ := by simpa using htables
  rw [toOption_eq_some_iff] at hp hopen
  rw [fault?_eq_some_iff] at hfault
  have haway := awayFromTables_detour hdetour hroute
  have hlater : start.Later ((start.explain "fare").2.resolve "route").2 :=
    .tail (.single (.explain "fare")) (.resolve "route")
  exact ⟨p, start, hp, hopen, hfare, haway, hfault,
    (Schema.resolve_eq_evaluateBinding hp hopen hlater haway).trans hfault⟩

end Example

end Rulebook
