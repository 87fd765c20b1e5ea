/-
# Plain evaluation of accepted schemas

References of an accepted schema lead to smaller slots, so plain evaluation never
meets a slot that it is inside of, and what a slot gives does not depend on the
walk it is met on. The values of the names are therefore a solution of the
equations that the declarations write down, and the only one: they are what
reading the expressions by name gives, whatever the numbers of the slots.
-/

import Mathlib.Data.List.Perm.Subperm
import Rulebook.Program.Evaluate
import Rulebook.Proofs.Acceptance
import Rulebook.Proofs.Meaning

namespace Rulebook

theorem Program.evaluateBinding_eq_resolve {p : Program} {ctx : Context}
    (hctx : ctx.isMapping = true) {name : String} {slot : Nat}
    (hslot : p.slotOf? name = some slot) :
    p.evaluateBinding ctx name = p.resolve ctx [] slot := by
  rw [evaluateBinding, slotOf, hslot, Context.check_eq_ok_iff.2 hctx]
  rfl

namespace Schema

variable {schema : Schema} {registry : Registry} {p : Program} {ctx : Context}

/-- A way on which evaluation comes to a slot: it starts at any slot, and goes from a
slot to those its expression refers to. The walk is what it is inside of by then. -/
inductive Visits (schema : Schema) (p : Program) : List Nat → Nat → Prop
  | start (slot : Nat) : Visits schema p [] slot
  | reference {walk : List Nat} {slot next : Nat} {entry : Slot} {target : String} :
      Visits schema p walk slot → p.slots[slot]? = some entry →
      schema.Refers entry.name target → p.slotOf? target = some next →
      Visits schema p (slot :: walk) next

namespace Accepted

variable (h : schema.Accepted registry p)

include h

/-! ## Independence of the walk -/

/-- Evaluation only ever descends, so it is inside larger slots alone. -/
theorem lt_of_visits {walk : List Nat} {slot : Nat} (hvisits : schema.Visits p walk slot) :
    ∀ outer ∈ walk, slot < outer := by
  induction hvisits with
  | start slot => simp
  | @reference walk slot next entry target _ hentry hrefers hnext ih =>
      obtain ⟨d, -, e, -, hname, rfl⟩ := h.exists_slotFor hentry
      have hlt : next < slot :=
        h.lt_of_refers hrefers hname (h.slotOf?_eq_some_iff.1 hnext)
      intro outer houter
      rcases List.mem_cons.1 houter with rfl | houter
      · exact hlt
      · exact Nat.lt_trans hlt (ih outer houter)

/-- The code of a slot asks for smaller slots only. -/
theorem eval_congr {m : Type → Type} [Monad m] [MonadExceptOf Fault m] {slot : Nat}
    {entry : Slot} (hentry : p.slots[slot]? = some entry) {ask ask' : Nat → m Value}
    (hask : ∀ next < slot, ask next = ask' next) :
    entry.code.eval ctx ask = entry.code.eval ctx ask' := by
  obtain ⟨d, hd, e, he, hname, rfl⟩ := h.exists_slotFor hentry
  rw [slotFor, Code.eval_ofExpr, Code.eval_ofExpr]
  apply Expr.meaning_congr
  intro target htarget
  rw [Code.bySlot, Code.bySlot]
  cases hposition : lastPosition? target p.analysis.order with
  | none => rfl
  | some next =>
      have hrefers : schema.Refers d.name target := ⟨e, ⟨d, hd, rfl, he⟩, htarget⟩
      exact hask next (h.lt_of_refers hrefers hname (getElem?_of_lastPosition? hposition))

/-- The walk does not matter as long as all its slots are larger. -/
theorem resolve_eq_of_lt {slot : Nat} {walk : List Nat} (hwalk : ∀ outer ∈ walk, slot < outer) :
    p.resolve ctx walk slot = p.resolve ctx [] slot := by
  induction slot using Nat.strongRecOn generalizing walk with
  | ind slot ih =>
      cases hentry : p.slots[slot]? with
      | none => rw [p.resolve_of_none ctx hentry, p.resolve_of_none ctx hentry]
      | some entry =>
          have hnew : slot ∉ walk := fun hmem => Nat.lt_irrefl slot (hwalk slot hmem)
          rw [p.resolve_of_not_mem ctx hentry hnew, p.resolve_of_not_mem ctx hentry (by simp)]
          apply h.eval_congr hentry
          intro next hlt
          have hinside : ∀ outer ∈ slot :: walk, next < outer := by
            intro outer houter
            rcases List.mem_cons.1 houter with rfl | houter
            · exact hlt
            · exact Nat.lt_trans hlt (hwalk outer houter)
          have halone : ∀ outer ∈ [slot], next < outer := by simpa using hlt
          rw [ih next hlt hinside, ih next hlt halone]

/-! ## The equations -/

theorem evaluateBinding_slot (hctx : ctx.isMapping = true) {slot : Nat} {entry : Slot}
    (hentry : p.slots[slot]? = some entry) :
    p.evaluateBinding ctx entry.name = p.resolve ctx [] slot := by
  obtain ⟨d, -, e, -, hname, rfl⟩ := h.exists_slotFor hentry
  exact Program.evaluateBinding_eq_resolve hctx (h.slotOf?_eq_some_iff.2 hname)

/-- Inside an accepted schema, asking by slot is asking by name. -/
theorem bySlot_eq (hctx : ctx.isMapping = true) {name : String} (hname : name ∈ schema.names) :
    Code.bySlot p.analysis.order (p.resolve ctx []) name = p.evaluateBinding ctx name := by
  obtain ⟨slot, hslot⟩ := h.exists_slotOf? hname
  have hposition : lastPosition? name p.analysis.order = some slot :=
    (lastPosition?_eq_some_iff h.order_nodup).2 (h.slotOf?_eq_some_iff.1 hslot)
  rw [Program.evaluateBinding_eq_resolve hctx hslot, Code.bySlot_of_some hposition]

/-- Code of an accepted program means what its expression means, by name. -/
theorem eval_ofExpr (hctx : ctx.isMapping = true) {e : Expr}
    (hnames : ∀ target, .binding target ∈ e.nodes → target ∈ schema.names) :
    (Code.ofExpr registry p.analysis.order e).eval ctx (p.resolve ctx []) =
      e.meaning registry ctx (p.evaluateBinding ctx) := by
  rw [Code.eval_ofExpr]
  exact Expr.meaning_congr fun target htarget => h.bySlot_eq hctx (hnames target htarget)

/-- The value of a slot is the value of its code where all other slots have theirs. -/
theorem resolve_eq_eval {slot : Nat} {entry : Slot} (hentry : p.slots[slot]? = some entry) :
    p.resolve ctx [] slot = entry.code.eval ctx (p.resolve ctx []) := by
  rw [p.resolve_of_not_mem ctx hentry (by simp)]
  exact h.eval_congr hentry fun next hlt => h.resolve_eq_of_lt (by simpa using hlt)

/-- The value of a name is the meaning of its expression where all other names have
their values. -/
theorem evaluateBinding_eq (hctx : ctx.isMapping = true) {name : String} {e : Expr}
    (he : schema.Declares name e) :
    p.evaluateBinding ctx name = e.meaning registry ctx (p.evaluateBinding ctx) := by
  obtain ⟨d, hd, rfl, hexpression⟩ := id he
  obtain ⟨slot, hslot, hentry⟩ := h.exists_slot hd hexpression
  rw [Program.evaluateBinding_eq_resolve hctx hslot, h.resolve_eq_eval hentry, slotFor]
  exact h.eval_ofExpr hctx fun target htarget => h.declared _ target ⟨_, he, htarget⟩

/-! ## Induction along references -/

/-- What holds of a name as soon as it holds of all it refers to holds of every
declared name. -/
theorem induction {P : String → Prop}
    (step : ∀ name e, schema.Declares name e →
      (∀ target, .binding target ∈ e.nodes → P target) → P name) :
    ∀ name ∈ schema.names, P name := by
  have hslots : ∀ (slot : Nat) (name : String), p.analysis.order[slot]? = some name → P name := by
    intro slot
    induction slot using Nat.strongRecOn with
    | ind slot ih =>
        intro name hname
        have hdeclared := (h.mem_order name).1 (List.mem_of_getElem? hname)
        obtain ⟨d, hd, rfl⟩ := List.mem_map.1 hdeclared
        obtain ⟨e, he⟩ := h.expression d hd
        apply step d.name e ⟨d, hd, rfl, he⟩
        intro target htarget
        have hrefers : schema.Refers d.name target := ⟨e, ⟨d, hd, rfl, he⟩, htarget⟩
        obtain ⟨next, hnext⟩ := h.exists_slotOf? (h.declared _ target hrefers)
        have hposition := h.slotOf?_eq_some_iff.1 hnext
        exact ih next (h.lt_of_refers hrefers hname hposition) target hposition
  intro name hname
  obtain ⟨slot, hslot⟩ := h.exists_slotOf? hname
  exact hslots slot name (h.slotOf?_eq_some_iff.1 hslot)

/-! ## Reading by name -/

omit h in
/-- A computation on a budget that comes to an answer, beside the answer. -/
def onBudget : Coupling (ExceptT Fault Option) (Except Fault) where
  Rel x y := x.run = some y
  pure _ := rfl
  bind {_ _ x y f g} hx hf := by
    rw [ExceptT.run_bind, hx]
    cases y with
    | error fault => rfl
    | ok a => exact hf a

/-- To read a name takes no more than one unit of the budget for each slot up to its
own, since references lead to smaller ones. -/
theorem meaning_eq (hctx : ctx.isMapping = true) :
    ∀ name ∈ schema.names, ∀ slot budget, p.slotOf? name = some slot → slot < budget →
      schema.meaning registry ctx budget name = some (p.evaluateBinding ctx name) := by
  apply h.induction (P := fun name => ∀ slot budget, p.slotOf? name = some slot →
    slot < budget →
      schema.meaning registry ctx budget name = some (p.evaluateBinding ctx name))
  intro name e he ih slot budget hslot hbudget
  obtain ⟨budget, rfl⟩ : ∃ k, budget = k + 1 := ⟨budget - 1, by omega⟩
  obtain ⟨d, hd, rfl, hexpression⟩ := id he
  have hfind : (schema.find? d.name).bind (·.expression) = some e := by
    rw [find?_of_nodup h.names_nodup hd]
    exact hexpression
  rw [Schema.meaning, h.evaluateBinding_eq hctx he]
  simp only [hfind]
  apply onBudget.meaning
  intro x hx
  cases x with
  | binding target =>
      have hrefers : schema.Refers d.name target := ⟨e, he, hx⟩
      obtain ⟨next, hnext⟩ := h.exists_slotOf? (h.declared _ target hrefers)
      have hlt := h.lt_of_refers hrefers (h.slotOf?_eq_some_iff.1 hslot)
        (h.slotOf?_eq_some_iff.1 hnext)
      exact ih target hx next budget hnext (by omega)
  | field name => exact onBudget.readField fun _ => rfl
  | call function args =>
      obtain ⟨f, hf, -⟩ := h.callable d.name e function args he hx
      exact onBudget.applyFunction hf fun message => rfl
  | _ => trivial

theorem slot_lt_size {name : String} {slot : Nat} (hslot : p.slotOf? name = some slot) :
    slot < schema.size := by
  have hlt := (List.getElem?_eq_some_iff.1 (h.slotOf?_eq_some_iff.1 hslot)).1
  have hsub : p.analysis.order ⊆ schema.names := fun x hx => (h.mem_order x).1 hx
  have hle := (List.Nodup.subperm h.order_nodup hsub).length_le
  have hsize : schema.names.length = schema.size := List.length_map _
  omega

/-- A budget of as many references as there are declarations is enough. -/
theorem meaning_eq_of_size_le (hctx : ctx.isMapping = true) {name : String}
    (hname : name ∈ schema.names) {budget : Nat} (hbudget : schema.size ≤ budget) :
    schema.meaning registry ctx budget name = some (p.evaluateBinding ctx name) := by
  obtain ⟨slot, hslot⟩ := h.exists_slotOf? hname
  have hlt := h.slot_lt_size hslot
  exact h.meaning_eq hctx name hname slot budget hslot (by omega)

/-- An answer on any budget is the value. -/
theorem evaluateBinding_of_meaning (hctx : ctx.isMapping = true) {name : String}
    (hname : name ∈ schema.names) {budget : Nat} {r : Except Fault Value}
    (hr : schema.meaning registry ctx budget name = some r) :
    p.evaluateBinding ctx name = r := by
  have hmore := meaning_mono (Nat.le_max_left budget schema.size) hr
  rw [h.meaning_eq_of_size_le hctx hname (Nat.le_max_right budget schema.size)] at hmore
  exact Option.some.inj hmore

end Accepted

/-- Compilation preserves meaning. In an accepted schema every declared name has
exactly one meaning by name, it is found on a budget of as many references as there
are declarations, and evaluation gives it as it is, faults included, on whatever way
it comes to the name. -/
theorem evaluateBinding_eq_iff_meaning (hp : schema.compile registry = .ok p)
    (hctx : ctx.isMapping = true) {name : String} (hname : name ∈ schema.names) :
    (∀ r, p.evaluateBinding ctx name = r ↔
      ∃ budget, schema.meaning registry ctx budget name = some r) ∧
    (∀ budget, schema.size ≤ budget →
      schema.meaning registry ctx budget name = some (p.evaluateBinding ctx name)) ∧
    ∀ walk slot, schema.Visits p walk slot → p.slotOf? name = some slot →
      p.resolve ctx walk slot = p.evaluateBinding ctx name := by
  have h := accepted_of_compile hp
  refine ⟨fun r => ⟨?_, ?_⟩, fun budget hbudget => ?_, fun walk slot hvisits hslot => ?_⟩
  · rintro rfl
    exact ⟨schema.size, h.meaning_eq_of_size_le hctx hname (Nat.le_refl _)⟩
  · rintro ⟨budget, hr⟩
    exact h.evaluateBinding_of_meaning hctx hname hr
  · exact h.meaning_eq_of_size_le hctx hname hbudget
  · rw [h.resolve_eq_of_lt (h.lt_of_visits hvisits),
      Program.evaluateBinding_eq_resolve hctx hslot]

end Schema

namespace Example

/-- The builtin functions and three of a host that is having a bad day: one reports that it
has no answer, one breaks off with a text, and one without. -/
def badDay : Registry :=
  ⟨NameMap.ofList (Registry.builtins.functions.entries ++
    [("courier", .failing (.exactly 1) "no courier serves this town"),
      ("printer", .crashing .any (some "out of paper")),
      ("archive", .crashing (.exactly 1) none)])⟩

/-- Deliveries, with references that lead forward, a decision table, and calls of the host. -/
def deliveries : Schema where
  attributes :=
    [⟨.attribute, "price", some (.cascade
        [⟨.binding "express", .call "courier" [.field "town"]⟩] (some (.literal (.int 5)))), none⟩,
      ⟨.attribute, "label", some (.list
        [.binding "address", .call "printer" [], .binding "price"]), none⟩,
      ⟨.attribute, "address", some (.call "concatenate"
        [.literal (.string "to "), .field "town"]), none⟩]
  traits :=
    [⟨.trait, "express", some (.call "==" [.field "speed", .literal (.string "express")]), none⟩]
  functions := [⟨.function, "record", some (.call "archive" [.binding "address"]), none⟩]

/-- A delivery that is to be fast. -/
def fastToUlm : Context :=
  .ofMap (.ofList [("speed", .string "express"), ("town", .string "Ulm")])

/-- What the host reports stands in the fault of the call, and so does the text with which it
breaks off; of two faults in a list the first counts, and what lies before it has its value.
The price has the same fault inside the label as by itself. -/
theorem evaluateBinding_eq_iff_meaning_deliveries :
    ∃ p, deliveries.compile badDay = .ok p ∧ fastToUlm.isMapping = true ∧
      (∀ name ∈ ["address", "price", "label", "record"], name ∈ deliveries.names) ∧
      p.evaluateBinding fastToUlm "address" = .ok (.string "to Ulm") ∧
      p.evaluateBinding fastToUlm "price" =
        .error (.call "courier" "no courier serves this town") ∧
      p.evaluateBinding fastToUlm "label" = .error (.call "printer" "out of paper") ∧
      p.evaluateBinding fastToUlm "record" = .error (.call "archive" "function panicked") ∧
      deliveries.meaning badDay fastToUlm deliveries.size "label" =
        some (.error (.call "printer" "out of paper")) ∧
      ∃ label price, deliveries.Visits p [label] price ∧
        p.slotOf? "label" = some label ∧ p.slotOf? "price" = some price ∧
        p.resolve fastToUlm [label] price =
          .error (.call "courier" "no courier serves this town") := by
  obtain ⟨p, hp⟩ : ∃ p, deliveries.compile badDay = .ok p :=
    Schema.exists_compile (by decide +kernel)
  have hctx : fastToUlm.isMapping = true := rfl
  have hnames : ∀ name ∈ ["address", "price", "label", "record"], name ∈ deliveries.names := by
    decide
  have hread : ∀ name ∈ deliveries.names, ∀ r,
      (∃ budget, deliveries.meaning badDay fastToUlm budget name = some r) →
        p.evaluateBinding fastToUlm name = r :=
    fun name hname r => ((Schema.evaluateBinding_eq_iff_meaning hp hctx hname).1 r).2
  obtain ⟨-, hbudget, -⟩ :=
    Schema.evaluateBinding_eq_iff_meaning hp hctx (hnames "label" (by decide))
  obtain ⟨-, -, hwalk⟩ :=
    Schema.evaluateBinding_eq_iff_meaning hp hctx (hnames "price" (by decide))
  have hlabel : p.evaluateBinding fastToUlm "label" = .error (.call "printer" "out of paper") :=
    hread "label" (hnames _ (by decide)) _ ⟨4, rfl⟩
  have hprice : p.evaluateBinding fastToUlm "price" =
      .error (.call "courier" "no courier serves this town") :=
    hread "price" (hnames _ (by decide)) _ ⟨4, rfl⟩
  -- The label refers to the price, so evaluation comes to the price inside of the label.
  have h := Schema.accepted_of_compile hp
  obtain ⟨label, hslot, hentry⟩ := h.exists_slot
    (List.mem_cons_of_mem _ List.mem_cons_self : _ ∈ deliveries.declarations) rfl
  obtain ⟨price, hslot'⟩ := h.exists_slotOf? (hnames "price" (by decide))
  have hrefers : deliveries.Refers "label" "price" :=
    ⟨_, ⟨_, List.mem_cons_of_mem _ List.mem_cons_self, rfl, rfl⟩,
      by simp [Expr.nodes, Expr.nodesOfList]⟩
  have hvisits : deliveries.Visits p [label] price :=
    .reference (.start label) hentry hrefers hslot'
  refine ⟨p, hp, hctx, hnames, hread "address" (hnames _ (by decide)) _ ⟨4, rfl⟩, hprice, hlabel,
    hread "record" (hnames _ (by decide)) _ ⟨4, rfl⟩, ?_, label, price, hvisits, hslot, hslot', ?_⟩
  · rw [hbudget deliveries.size (Nat.le_refl _), hlabel]
  · rw [hwalk [label] price hvisits hslot', hprice]

end Example

end Rulebook
