/-
# Where a session fails and plain evaluation does not

An attribute with a decision table asks for every trait, so a session looks at more
than plain evaluation does. Where the traits all have values this can cost it one
thing only: it may come back to where it is. And it can come back only if some trait
leads to such an attribute; otherwise every slot asks for slots of a smaller rank.
-/

import Rulebook.Proofs.Agreement
import Rulebook.Proofs.Dependence

namespace Rulebook

namespace Schema

/-- References lead from some trait to the name. -/
def ReachedByTrait (schema : Schema) (name : String) : Prop :=
  ∃ trait, schema.DeclaresKind .trait trait ∧ schema.Reaches trait name

/-- References lead from some trait to an attribute that has a decision table. -/
def TraitMeetsTable (schema : Schema) (p : Program) : Prop :=
  ∃ name, schema.ReachedByTrait name ∧ schema.DeclaresKind .attribute name ∧
    p.hasDecisionTable name = true

theorem ReachedByTrait.of_refers {schema : Schema} {name target : String}
    (h : schema.ReachedByTrait name) (hrefers : schema.Refers name target) :
    schema.ReachedByTrait target := by
  obtain ⟨trait, htrait, hreaches⟩ := h
  exact ⟨trait, htrait, hreaches.tail hrefers⟩

end Schema

/-! ## What plain evaluation gives -/

/-- Evaluation that comes to a value. -/
def Coupling.succeeds : Coupling (Except Fault) (Except Fault) where
  Rel x _ := ∃ a, x = .ok a
  pure a := ⟨a, rfl⟩
  bind {_ _ x y f g} hx hf := by
    obtain ⟨a, rfl⟩ := hx
    exact hf a

namespace Schema.Accepted

variable {schema : Schema} {registry : Registry} {p : Program} {ctx : Context}
  (h : schema.Accepted registry p) (hctx : ctx.isMapping = true)
  (hbuiltin : registry.BuiltinConjunctions)
  (hlists : ∀ name items, schema.DeclaresKind .trait name →
    p.evaluateBinding ctx name ≠ .ok (.list items))
  (htraits : ∀ slot ∈ p.traitSlots, ∃ v, p.resolve ctx [] slot = .ok v)

include h hctx hbuiltin hlists htraits

/-- A plain value can be derived from plain values, from a table as from the code. -/
theorem exists_derive {slot : Nat} {entry : Slot} (hentry : p.slots[slot]? = some entry)
    {v : Value} (hv : p.resolve ctx [] slot = .ok v) :
    ∃ text, p.derive ctx (p.resolve ctx []) entry = .ok (v, text) := by
  rw [h.resolve_eq_eval hentry] at hv
  unfold Program.derive
  cases htable : entry.table with
  | none => exact ⟨_, bind_eq_ok_iff.2 ⟨v, hv, rfl⟩⟩
  | some table =>
      have hsucceeds : ∀ slot ∈ p.traitSlots,
          Coupling.succeeds.Rel (p.resolve ctx [] slot) (p.resolve ctx [] slot) := htraits
      obtain ⟨satisfied, hsatisfied⟩ := Coupling.succeeds.satisfied hsucceeds
      have hsat := h.trueTraits_satisfied hctx hsatisfied
      obtain ⟨d, hd, e, hexpression, -, rfl⟩ := h.exists_slotFor hentry
      obtain ⟨cases, otherwise, rfl, hrows⟩ := tableOf_of_slotFor htable
      obtain ⟨row, -, hpick⟩ := hrows.exists_pickRow satisfied
      have he : schema.Declares d.name (.cascade cases otherwise) := ⟨d, hd, rfl, hexpression⟩
      have hrow := (h.eval_of_pickRow hctx hbuiltin hlists he hrows hsat hpick).symm.trans hv
      refine ⟨row.resolver.description, bind_eq_ok_iff.2 ⟨satisfied, hsatisfied, ?_⟩⟩
      exact bind_eq_ok_iff.2 ⟨row, congrArg liftExcept hpick, bind_eq_ok_iff.2 ⟨v, hrow, rfl⟩⟩

/-- To resolve a slot gives its plain value, unless evaluation comes back to where it is. -/
theorem attains_resolveWith : ∀ walk slot memo, memo.Truthful p ctx → ∀ v,
    p.resolve ctx [] slot = .ok v → (p.resolveWith ctx walk slot memo).1 = .ok v ∨
      ∃ fault, (p.resolveWith ctx walk slot memo).1 = .error fault ∧ fault.isCycle = true := by
  apply Program.resolveWith_induction (P := fun _ slot memo r => memo.Truthful p ctx → ∀ v,
    p.resolve ctx [] slot = .ok v → r.1 = .ok v ∨ ∃ fault, r.1 = .error fault ∧
      fault.isCycle = true)
  · intro walk slot memo d hd hmemo v hv
    exact .inl ((hmemo.of_entry? hd).symm.trans hv)
  · intro walk slot memo hnone _ v hv
    rw [p.resolve_of_none ctx hnone] at hv
    cases hv
  · intro walk slot memo entry _ _ _ v _
    exact .inr ⟨_, rfl, rfl⟩
  · intro walk slot memo entry _ hentry _ ih hmemo v hv
    have hask : ∀ next, (Coupling.attains (fun progress : Progress =>
          progress.memo.Truthful p ctx) (·.isCycle = true)).Rel
        (Progress.ask (p.resolveWith ctx (slot :: walk)) next) (p.resolve ctx [] next) := by
      intro next
      apply Coupling.attains_ask
      intro memo hmemo
      exact ⟨(h.truthful_resolveWith hctx hbuiltin hlists _ next memo hmemo).1, ih next memo hmemo⟩
    obtain ⟨text, hderive⟩ := h.exists_derive hctx hbuiltin hlists htraits hentry hv
    obtain ⟨-, hvalue⟩ := h.compiled.coupled_derive _ ctx
      (fun fault _ progress hprogress => ⟨hprogress, nofun⟩) hentry (fun next _ => hask next)
      ⟨memo, []⟩ hmemo
    rw [Progress.finish_fst]
    rcases hvalue _ hderive with hresult | ⟨fault, hresult, hcycle⟩
    · rw [hresult]
      exact .inl rfl
    · rw [hresult]
      exact .inr ⟨fault, rfl, hcycle⟩

end Schema.Accepted

/-! ## Ranks -/

namespace Schema

open Classical in
/-- The slots that are reached by a trait come first, and after them all others. -/
noncomputable def rank (schema : Schema) (p : Program) (slot : Nat) : Nat :=
  if schema.ReachedByTrait (p.slotName slot) then slot else p.size + slot

variable {schema : Schema} {p : Program} {slot : Nat}

theorem rank_of_reached (h : schema.ReachedByTrait (p.slotName slot)) :
    schema.rank p slot = slot := if_pos h

theorem rank_of_not_reached (h : ¬ schema.ReachedByTrait (p.slotName slot)) :
    schema.rank p slot = p.size + slot := if_neg h

theorem rank_le (slot : Nat) : schema.rank p slot ≤ p.size + slot := by
  unfold rank
  split <;> omega

end Schema

/-- Where every slot consults slots of a smaller rank only, there is no way back to
where evaluation is. -/
theorem Schema.Compiled.isCycle_of_resolveWith {schema : Schema} {registry : Registry}
    {p : Program} {ctx : Context} (h : schema.Compiled registry p) {rank : Nat → Nat}
    (hrank : ∀ slot entry next, p.slots[slot]? = some entry → schema.Consults p entry next →
      rank next < rank slot) :
    ∀ walk slot memo, (∀ outer ∈ walk, rank slot < rank outer) → ∀ fault,
      (p.resolveWith ctx walk slot memo).1 = .error fault → fault.isCycle = false := by
  apply h.of_error_of_resolveWith fun fault hown => hown.isCycle_eq_false
  · intro walk slot hwalk hmem
    exact absurd (hwalk slot hmem) (Nat.lt_irrefl _)
  · intro walk slot entry next hwalk _ hentry hasks
    have hless := hrank slot entry next hentry hasks.consults
    exact List.forall_mem_cons.2
      ⟨hless, fun outer houter => Nat.lt_trans hless (hwalk outer houter)⟩

namespace Schema.Accepted

variable {schema : Schema} {registry : Registry} {p : Program}
  (h : schema.Accepted registry p)

include h

/-- Only attributes have tables. -/
theorem declaresKind_of_table {slot : Nat} {entry : Slot} (hentry : p.slots[slot]? = some entry)
    (htable : entry.table.isSome = true) :
    schema.DeclaresKind .attribute entry.name ∧ p.hasDecisionTable entry.name = true := by
  constructor
  · obtain ⟨d, hd, e, -, -, rfl⟩ := h.exists_slotFor hentry
    refine ⟨d, hd, rfl, ?_⟩
    simp only [slotFor] at htable
    split at htable
    · assumption
    · cases htable
  · rw [Program.hasDecisionTable_name h.executionOrder_nodup hentry]
    exact htable

/-- If no trait leads to a table, every slot consults slots of a smaller rank only. -/
theorem rank_lt_of_consults (hmeets : ¬ schema.TraitMeetsTable p) {slot next : Nat} {entry : Slot}
    (hentry : p.slots[slot]? = some entry) (hnext : schema.Consults p entry next) :
    schema.rank p next < schema.rank p slot := by
  have hslot := Program.slotOf?_name h.executionOrder_nodup hentry
  have hname := Program.slotName_eq hentry
  cases hnext with
  | @reference target _ hrefers htarget =>
      have hless : next < slot := h.lt_of_refers hrefers (h.slotOf?_eq_some_iff.1 hslot)
        (h.slotOf?_eq_some_iff.1 htarget)
      by_cases hreached : schema.ReachedByTrait (p.slotName slot)
      · have hbelow : schema.ReachedByTrait (p.slotName next) := by
          rw [hname] at hreached
          rw [Program.slotName_of_slotOf? htarget]
          exact hreached.of_refers hrefers
        rw [rank_of_reached hbelow, rank_of_reached hreached]
        exact hless
      · rw [rank_of_not_reached hreached]
        exact Nat.lt_of_le_of_lt (rank_le next) (Nat.add_lt_add_left hless _)
  | trait htable hnext =>
      have hreached : schema.ReachedByTrait (p.slotName next) := by
        obtain ⟨other, hother, hkind⟩ := Program.mem_traitSlots.1 hnext
        rw [Program.slotName_eq hother]
        exact ⟨other.name, hkind ▸ h.declaresKind_slot hother, .refl⟩
      have hapart : ¬ schema.ReachedByTrait (p.slotName slot) := by
        intro hreached
        rw [hname] at hreached
        exact hmeets ⟨entry.name, hreached, h.declaresKind_of_table hentry htable⟩
      rw [rank_of_reached hreached, rank_of_not_reached hapart]
      exact Nat.lt_add_right slot (Program.lt_size_of_mem_traitSlots hnext)

/-! ## Whole runs -/

/-- A cycle in a session means that a trait meets a table. -/
theorem traitMeetsTable_of_resolve {s : Session} (hprogram : s.program = p) {name : String}
    {path : List String} (hcycle : (s.resolve name).1 = .error (.cycle path)) :
    schema.TraitMeetsTable p := by
  subst hprogram
  by_contra hmeets
  cases hslot : s.program.slotOf? name with
  | none =>
      rw [Session.resolve_of_slotOf?_eq_none hslot] at hcycle
      cases hcycle
  | some slot =>
      rw [Session.resolve_of_slotOf? hslot] at hcycle
      cases h.compiled.isCycle_of_resolveWith (fun _ _ _ => h.rank_lt_of_consults hmeets) [] slot
        s.memo (List.forall_mem_nil _) _ hcycle

variable {ctx : Context} (hctx : ctx.isMapping = true)
  (hbuiltin : registry.BuiltinConjunctions)
  (hlists : ∀ name items, schema.DeclaresKind .trait name →
    p.evaluateBinding ctx name ≠ .ok (.list items))
  (htraits : ∀ slot ∈ p.traitSlots, ∃ v, p.resolve ctx [] slot = .ok v)

include hctx hbuiltin hlists htraits

/-- Whatever was called before, a name with a plain value resolves to it or to a cycle. -/
theorem resolve_of_evaluateBinding {start s : Session} (hopen : p.session ctx = .ok start)
    (hlater : start.Later s) {name : String} {v : Value}
    (hv : p.evaluateBinding ctx name = .ok v) :
    (s.resolve name).1 = .ok v ∨ ∃ path, (s.resolve name).1 = .error (.cycle path) := by
  obtain ⟨hprogram, hcontext, hmemo⟩ := h.truthful_of_later hctx hbuiltin hlists hopen hlater
  cases hslot : p.slotOf? name with
  | none =>
      rw [Program.evaluateBinding, Program.slotOf, hslot] at hv
      cases hv
  | some slot =>
      rw [Program.evaluateBinding_eq_resolve hctx hslot] at hv
      rw [Session.resolve_of_slotOf? (hprogram ▸ hslot), hprogram, hcontext]
      have hresult := h.attains_resolveWith hctx hbuiltin hlists htraits [] slot s.memo hmemo v hv
      simpa only [Fault.isCycle_iff, ← exists_and_left, exists_comm, exists_eq_right] using hresult

end Schema.Accepted

/-- Where plain evaluation succeeds a session does, except for cycles at tables. In a
program with the builtin conjunctions, over a context in which every trait has a value
and none is a list, whatever was called before: a name with a plain value resolves to it
or to a cycle, and there is a cycle only if references lead from some trait to an
attribute that has a decision table. -/
theorem Schema.resolve_ok_or_cycle {schema : Schema} {registry : Registry} {p : Program}
    {ctx : Context} (hp : schema.compile registry = .ok p)
    (hbuiltin : registry.BuiltinConjunctions) {traits : NameMap Value}
    (htraits : p.evaluateKind ctx .trait = .ok traits)
    (hlists : ∀ name items, traits.find? name ≠ some (.list items))
    {start s : Session} (hopen : p.session ctx = .ok start) (hlater : start.Later s) :
    (∀ name v, p.evaluateBinding ctx name = .ok v →
      (s.resolve name).1 = .ok v ∨ ∃ path, (s.resolve name).1 = .error (.cycle path)) ∧
    ∀ name path, (s.resolve name).1 = .error (.cycle path) → schema.TraitMeetsTable p := by
  have h := accepted_of_compile hp
  have hctx := (Program.session_eq_ok_iff.1 hopen).1
  have hplain : ∀ name items, schema.DeclaresKind .trait name →
      p.evaluateBinding ctx name ≠ .ok (.list items) := fun name items hname hvalue =>
    hlists name items ((h.find?_evaluateKind htraits).2 ⟨hname, hvalue⟩)
  have hvalues : ∀ slot ∈ p.traitSlots, ∃ v, p.resolve ctx [] slot = .ok v := by
    intro slot hslot
    obtain ⟨entry, hentry, hkind⟩ := Program.mem_traitSlots.1 hslot
    rw [← h.evaluateBinding_slot hctx hentry]
    exact h.exists_value_of_evaluateKind htraits (hkind ▸ h.declaresKind_slot hentry)
  have hprogram := (h.truthful_of_later hctx hbuiltin hplain hopen hlater).1
  constructor
  · intro name v hv
    exact h.resolve_of_evaluateBinding hctx hbuiltin hplain hvalues hopen hlater hv
  · intro name path hcycle
    exact h.traitMeetsTable_of_resolve hprogram hcycle

namespace Example

/-- The tier of a membership has a plain value, and in a session it is met again on the
way to it: the premium leads to its table. -/
theorem resolve_ok_or_cycle_memberships :
    ∃ p traits start, memberships.compile .builtins = .ok p ∧
      Registry.builtins.BuiltinConjunctions ∧ p.evaluateKind aged30 .trait = .ok traits ∧
      (∀ name items, traits.find? name ≠ some (.list items)) ∧
      p.session aged30 = .ok start ∧
      p.evaluateBinding aged30 "tier" = .ok (.string "standard") ∧
      (start.resolve "tier").1 = .error (.cycle ["tier", "premium", "tier"]) ∧
      memberships.TraitMeetsTable p ∧
      ∀ v, p.evaluateBinding aged30 "adult" = .ok v →
        ((start.resolve "tier").2.resolve "adult").1 = .ok v ∨
          ∃ path, ((start.resolve "tier").2.resolve "adult").1 = .error (.cycle path) := by
  have hruns : ((memberships.compile .builtins).toOption.bind fun p =>
      ((p.evaluateKind aged30 .trait).toOption.filter fun traits =>
          traits.entries.all fun entry => entry.2.asList.isNone).bind fun _ =>
        (p.session aged30).toOption.bind fun start =>
          (p.evaluateBinding aged30 "tier").toOption.bind fun v => v.asString.bind fun text =>
            (fault? (start.resolve "tier").1).map fun fault => (text, fault)) =
      some ("standard", .cycle ["tier", "premium", "tier"]) := by
    decide +kernel
  obtain ⟨p, hp, hruns⟩ := Option.bind_eq_some_iff.1 hruns
  obtain ⟨traits, htraits, hruns⟩ := Option.bind_eq_some_iff.1 hruns
  obtain ⟨start, hopen, hruns⟩ := Option.bind_eq_some_iff.1 hruns
  obtain ⟨v, hv, hruns⟩ := Option.bind_eq_some_iff.1 hruns
  obtain ⟨text, htext, hruns⟩ := Option.bind_eq_some_iff.1 hruns
  obtain ⟨fault, hfault, hpair⟩ := Option.map_eq_some_iff.1 hruns
  cases hpair
  obtain rfl := Value.asString_eq_some_iff.1 htext
  obtain ⟨htraits, hnone⟩ := Option.filter_eq_some_iff.1 htraits
  rw [toOption_eq_some_iff] at hp htraits hopen hv
  rw [fault?_eq_some_iff] at hfault
  have hlists : ∀ name items, traits.find? name ≠ some (.list items) := by
    intro name items hfind
    cases List.all_eq_true.1 hnone _ (NameMap.mem_entries_iff.2 hfind)
  have hbuiltin := Registry.builtinConjunctions_builtins
  obtain ⟨-, hmeets⟩ := Schema.resolve_ok_or_cycle hp hbuiltin htraits hlists hopen .refl
  obtain ⟨hafter, -⟩ := Schema.resolve_ok_or_cycle hp hbuiltin htraits hlists hopen
    (.single (.resolve "tier"))
  exact ⟨p, traits, start, hp, hbuiltin, htraits, hlists, hopen, hv, hfault,
    hmeets "tier" _ hfault, hafter "adult"⟩

end Example

end Rulebook
