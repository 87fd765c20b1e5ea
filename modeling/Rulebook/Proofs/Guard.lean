/-
# The guard against circles

Plain evaluation gives up when it meets a slot that it is inside of. Here it is held
against the same code run without that guard, as plain recursion on a budget: whatever
the recursion comes to, evaluation comes to as well, and evaluation reports a cycle
exactly where the recursion uses up every budget. So the guard is neither missing nor
spurious, also where references go in circles that no evaluation goes all the way
around. That evaluation ends is said by a run of it on a budget that is known before,
which keeps a record of the walks it went on.
-/

import Mathlib.Data.Nat.Find
import Rulebook.Proofs.Dependence
import Rulebook.Proofs.PlainEvaluation

namespace Rulebook

namespace Program

variable (p : Program) (ctx : Context)

/-! ## Without the guard -/

/-- The value of a slot by plain recursion. Entering a slot takes one from the budget,
and there is no answer when the budget is used up. -/
def unguarded : Nat → Nat → ExceptT Fault Option Value
  | 0, _ => (none : Option (Except Fault Value))
  | budget + 1, slot =>
    match p.slots[slot]? with
    | none => throw (.unresolvedBinding s!"#{slot}")
    | some entry => entry.code.eval ctx (unguarded budget)

theorem unguarded_of_none {slot : Nat} (h : p.slots[slot]? = none) (budget : Nat) :
    p.unguarded ctx (budget + 1) slot = throw (.unresolvedBinding s!"#{slot}") := by
  rw [unguarded, h]

theorem unguarded_of_some {slot : Nat} {entry : Slot} (h : p.slots[slot]? = some entry)
    (budget : Nat) :
    p.unguarded ctx (budget + 1) slot = entry.code.eval ctx (p.unguarded ctx budget) := by
  rw [unguarded, h]

/-- The recursion, to be told its budget. -/
def recursion (slot : Nat) : ReaderT Nat (ExceptT Fault Option) Value :=
  fun budget => p.unguarded ctx budget slot

/-! ## With a record -/

/-- Plain evaluation with its guard, inside the given walk. It writes down every walk
that it goes on; entering a slot takes one from the budget. -/
def watched : Nat → List Nat → Nat → ExceptT Fault (StateT (List (List Nat)) Option) Value
  | 0, _, _ => fun _ => none
  | budget + 1, walk, slot =>
    match p.slots[slot]? with
    | none => throw (.unresolvedBinding s!"#{slot}")
    | some entry =>
      if slot ∈ walk then throw (p.cycleFault walk slot)
      else do
        modify (· ++ [slot :: walk])
        entry.code.eval ctx (watched budget (slot :: walk))

variable {p} {walk : List Nat} {slot : Nat}

theorem watched_of_none (h : p.slots[slot]? = none) (budget : Nat) :
    p.watched ctx (budget + 1) walk slot = throw (.unresolvedBinding s!"#{slot}") := by
  rw [watched, h]

variable {entry : Slot} (h : p.slots[slot]? = some entry)

include h

theorem watched_of_mem (hwalk : slot ∈ walk) (budget : Nat) :
    p.watched ctx (budget + 1) walk slot = throw (p.cycleFault walk slot) := by
  rw [watched, h]
  exact if_pos hwalk

theorem watched_of_not_mem (hwalk : slot ∉ walk) (budget : Nat) :
    p.watched ctx (budget + 1) walk slot = (do
      modify (· ++ [slot :: walk])
      entry.code.eval ctx (p.watched ctx budget (slot :: walk))) := by
  rw [watched, h]
  exact if_neg hwalk

end Program

/-! ## Couplings on a budget -/

namespace Coupling

/-- An answer on a budget is the outcome. -/
def answers : Coupling (ExceptT Fault Option) (Except Fault) where
  Rel x y := ∀ r, x.run = some r → y = r
  pure _ _ h := Option.some.inj h
  bind {_ _ x y f g} hx hf r h := by
    cases hrun : x.run with
    | none => simp [ExceptT.run_bind, hrun] at h
    | some outcome =>
      rw [ExceptT.run_bind, hrun] at h
      rw [hx outcome hrun]
      cases outcome with
      | error fault => exact Option.some.inj h
      | ok a => exact hf a r h

/-- An answer on a budget is no cycle. -/
def answersWithoutCycle : Coupling (ExceptT Fault Option) (ExceptT Fault Option) where
  Rel x _ := ∀ fault, x.run = some (.error fault) → fault.isCycle = false
  pure _ := nofun
  bind {_ _ x y f g} hx hf fault h := by
    cases hrun : x.run with
    | none => simp [ExceptT.run_bind, hrun] at h
    | some outcome =>
      rw [ExceptT.run_bind, hrun] at h
      cases outcome with
      | error fault' =>
          cases h
          exact hx fault hrun
      | ok a => exact hf a fault h

/-- A computation that is told its budget, beside the one on that budget. -/
def atBudget (budget : Nat) :
    Coupling (ReaderT Nat (ExceptT Fault Option)) (ExceptT Fault Option) where
  Rel x y := x budget = y
  pure _ := rfl
  bind {_ _ x y f g} hx hf := by
    show (x budget >>= fun a => f a budget) = _
    rw [hx]
    congr 1
    funext a
    exact hf a

/-- A computation either has its outcome as its answer on every budget that is large
enough, and no answer on any other, or it uses up every budget and the outcome is a
cycle. -/
def endsOrCycles : Coupling (ReaderT Nat (ExceptT Fault Option)) (Except Fault) where
  Rel x y :=
    (∃ enough, ∀ budget, (x budget).run = if enough ≤ budget then some y else none) ∨
    (∀ budget, (x budget).run = none) ∧ ∃ path, y = .error (.cycle path)
  pure _ := .inl ⟨0, fun budget => by rw [if_pos (Nat.zero_le budget)]; rfl⟩
  bind {_ _ x y f g} hx hf := by
    have hbind : ∀ budget, ((x >>= f) budget).run = (x budget >>= fun a => f a budget).run :=
      fun _ => rfl
    rcases hx with ⟨enough, hx⟩ | ⟨hx, path, rfl⟩
    · cases y with
      | error fault =>
          refine .inl ⟨enough, fun budget => ?_⟩
          rw [hbind, ExceptT.run_bind, hx]
          split <;> rfl
      | ok a =>
          rcases hf a with ⟨enough', hf⟩ | ⟨hf, hcycle⟩
          · refine .inl ⟨max enough enough', fun budget => ?_⟩
            rw [hbind, ExceptT.run_bind, hx]
            by_cases hle : enough ≤ budget
            · rw [if_pos hle]
              refine (hf budget).trans ?_
              simp only [Nat.max_le, hle, true_and]
              rfl
            · rw [if_neg hle, if_neg fun hmax => hle (Nat.max_le.1 hmax).1]
              rfl
          · refine .inr ⟨fun budget => ?_, hcycle⟩
            rw [hbind, ExceptT.run_bind, hx]
            split
            · exact hf budget
            · rfl
    · refine .inr ⟨fun budget => ?_, path, rfl⟩
      rw [hbind, ExceptT.run_bind, hx]
      rfl

/-- A computation that keeps a record comes to the outcome, and every entry of the record
is as it should be. -/
def completes {ρ : Type} (Recorded : ρ → Prop) :
    Coupling (ExceptT Fault (StateT (List ρ) Option)) (Except Fault) where
  Rel x y := ∀ log, (∀ entry ∈ log, Recorded entry) →
    ∃ log', x.run.run log = some (y, log') ∧ ∀ entry ∈ log', Recorded entry
  pure a log hlog := ⟨log, rfl, hlog⟩
  bind {_ _ x y f g} hx hf log hlog := by
    obtain ⟨log', hrun, hlog'⟩ := hx log hlog
    rw [ExceptT.run_bind, StateT.run_bind, hrun]
    cases y with
    | error fault => exact ⟨log', rfl, hlog'⟩
    | ok a => exact hf a log' hlog'

end Coupling

namespace Schema.Compiled

variable {schema : Schema} {registry : Registry} {p : Program} {ctx : Context}
  (h : schema.Compiled registry p)

include h

/-! ## The guard is not spurious -/

theorem unguarded_mono {budget more : Nat} (hle : budget ≤ more) {slot : Nat}
    {r : Except Fault Value} (hr : p.unguarded ctx budget slot = some r) :
    p.unguarded ctx more slot = some r := by
  induction budget generalizing more slot r with
  | zero => cases hr
  | succ budget ih =>
      obtain ⟨more, rfl⟩ : ∃ k, more = k + 1 := ⟨more - 1, by omega⟩
      cases hentry : p.slots[slot]? with
      | none =>
          rw [p.unguarded_of_none ctx hentry] at hr ⊢
          exact hr
      | some entry =>
          rw [p.unguarded_of_some ctx hentry] at hr ⊢
          exact h.coupled_code moreBudget ctx (fun _ _ _ hthrow => hthrow) hentry
            (fun next _ r hnext => ih (by omega) hnext) r hr

/-- What the recursion answers is the outcome, as long as the walk holds only slots
that take a larger budget. -/
theorem resolve_of_unguarded {budget slot : Nat} {r : Except Fault Value} {walk : List Nat}
    (hr : p.unguarded ctx budget slot = some r)
    (hwalk : ∀ outer ∈ walk, p.unguarded ctx budget outer = none) :
    p.resolve ctx walk slot = r := by
  induction budget generalizing slot r walk with
  | zero => cases hr
  | succ budget ih =>
      have hless : ∀ outer ∈ walk, p.unguarded ctx budget outer = none := by
        intro outer houter
        cases hanswer : p.unguarded ctx budget outer with
        | none => rfl
        | some r' =>
            have hmore := h.unguarded_mono (Nat.le_succ budget) hanswer
            rw [hwalk outer houter] at hmore
            cases hmore
      cases hanswer : p.unguarded ctx budget slot with
      | some r' =>
          have hmore := h.unguarded_mono (Nat.le_succ budget) hanswer
          rw [hr] at hmore
          cases hmore
          exact ih hanswer hless
      | none =>
          have hnew : slot ∉ walk := by
            intro hmem
            rw [hwalk slot hmem] at hr
            cases hr
          cases hentry : p.slots[slot]? with
          | none =>
              rw [p.unguarded_of_none ctx hentry] at hr
              rw [p.resolve_of_none ctx hentry]
              exact Option.some.inj hr
          | some entry =>
              rw [p.unguarded_of_some ctx hentry] at hr
              rw [p.resolve_of_not_mem ctx hentry hnew]
              exact h.coupled_code Coupling.answers ctx (fun _ _ _ hthrow => Option.some.inj hthrow)
                hentry (fun next _ r hnext => ih hnext (List.forall_mem_cons.2 ⟨hanswer, hless⟩))
                r hr

/-! ## The guard is not missing -/

theorem isCycle_of_unguarded {budget slot : Nat} {fault : Fault}
    (hfault : p.unguarded ctx budget slot = some (.error fault)) : fault.isCycle = false := by
  induction budget generalizing slot fault with
  | zero => cases hfault
  | succ budget ih =>
      cases hentry : p.slots[slot]? with
      | none =>
          rw [p.unguarded_of_none ctx hentry] at hfault
          cases hfault
          rfl
      | some entry =>
          rw [p.unguarded_of_some ctx hentry] at hfault
          have hreading : Coupling.answersWithoutCycle.Rel
              (entry.code.eval ctx (p.unguarded ctx budget))
              (entry.code.eval ctx (p.unguarded ctx budget)) := by
            apply h.coupled_code _ ctx _ hentry
            · intro next _ fault hnext
              exact ih hnext
            · intro fault hfault fault' hthrow
              cases hthrow
              exact hfault.isCycle_eq_false
          exact hreading fault hfault

/-- Where the recursion has an answer at all, there is a budget that is just enough. -/
theorem exists_enough {budget slot : Nat} {r : Except Fault Value}
    (hr : p.unguarded ctx budget slot = some r) :
    ∃ enough, ∀ budget, (p.unguarded ctx budget slot).run =
      if enough ≤ budget then some r else none := by
  classical
  have hex : ∃ budget, p.unguarded ctx budget slot = some r := ⟨budget, hr⟩
  refine ⟨Nat.find hex, fun budget => ?_⟩
  split
  · rename_i hle
    exact h.unguarded_mono hle (Nat.find_spec hex)
  · rename_i hlt
    cases hanswer : p.unguarded ctx budget slot with
    | none => rfl
    | some r' =>
        have hmore := h.unguarded_mono (Nat.le_of_not_le hlt) hanswer
        cases hmore.symm.trans (Nat.find_spec hex)
        exact absurd hanswer (Nat.find_min hex (Nat.lt_of_not_le hlt))

theorem eval_recursion {slot : Nat} {entry : Slot} (hentry : p.slots[slot]? = some entry)
    (budget : Nat) :
    entry.code.eval ctx (p.recursion ctx) budget = p.unguarded ctx (budget + 1) slot := by
  rw [p.unguarded_of_some ctx hentry]
  exact h.coupled_code (Coupling.atBudget budget) ctx (fun _ _ => rfl) hentry fun next _ =>
    (rfl : p.recursion ctx next budget = p.unguarded ctx budget next)

/-- Inside a walk of slots that use up every budget, a slot has an answer on a budget that
is large enough, and the same one as without the walk; or else it is a cycle, if that
holds of all slots that use up every budget. -/
theorem endsOrCycles_resolve {walk : List Nat}
    (hwalk : ∀ outer ∈ walk, ∀ budget, p.unguarded ctx budget outer = none)
    (hcycle : ∀ slot, (∀ budget, p.unguarded ctx budget slot = none) →
      ∃ path, p.resolve ctx walk slot = .error (.cycle path)) (slot : Nat) :
    Coupling.endsOrCycles.Rel (p.recursion ctx slot) (p.resolve ctx walk slot) := by
  by_cases hends : ∃ budget r, p.unguarded ctx budget slot = some r
  · obtain ⟨budget, r, hr⟩ := hends
    rw [h.resolve_of_unguarded hr fun outer houter => hwalk outer houter budget]
    exact .inl (h.exists_enough hr)
  · have hnever : ∀ budget, p.unguarded ctx budget slot = none := fun budget =>
      Option.eq_none_iff_forall_ne_some.2 fun r hr => hends ⟨budget, r, hr⟩
    exact .inr ⟨hnever, hcycle slot hnever⟩

/-- A slot that uses up every budget is a cycle, inside a walk of such slots. -/
theorem exists_cycle_of_unguarded (walk : List Nat) :
    (∀ outer ∈ walk, ∀ budget, p.unguarded ctx budget outer = none) →
    ∀ slot, (∀ budget, p.unguarded ctx budget slot = none) →
      ∃ path, p.resolve ctx walk slot = .error (.cycle path) := by
  induction walk using walk_induction (List.range p.size) with
  | step walk ih =>
      intro hwalk slot hslot
      cases hentry : p.slots[slot]? with
      | none =>
          have hanswer := p.unguarded_of_none ctx hentry 0
          rw [hslot] at hanswer
          cases hanswer
      | some entry =>
          by_cases hmem : slot ∈ walk
          · exact ⟨_, p.resolve_of_mem ctx hentry hmem⟩
          have hsize : slot ∈ List.range p.size :=
            List.mem_range.2 (List.getElem?_eq_some_iff.1 hentry).1
          have hinside := List.forall_mem_cons.2 ⟨hslot, hwalk⟩
          have hask := h.endsOrCycles_resolve hinside (ih slot hsize hmem hinside)
          have hcode := h.coupled_code Coupling.endsOrCycles ctx
            (fun fault _ => .inl ⟨0, fun budget => by rw [if_pos (Nat.zero_le budget)]; rfl⟩)
            hentry (fun next _ => hask next)
          rw [p.resolve_of_not_mem ctx hentry hmem]
          refine (hcode.resolve_left ?_).2
          rintro ⟨enough, hends⟩
          have hanswer := hends enough
          rw [h.eval_recursion hentry, if_pos (Nat.le_refl enough)] at hanswer
          cases hanswer.symm.trans (hslot (enough + 1))

/-! ## Evaluation ends -/

/-- A budget larger than the number of slots outside of the walk is enough to evaluate a
slot with the guard, and no walk on the way comes through a slot twice. -/
theorem watched_completes {budget : Nat} {walk : List Nat}
    (hbudget : nodesLeft (List.range p.size) walk < budget) (hwalk : walk.Nodup) (slot : Nat) :
    (Coupling.completes List.Nodup).Rel (p.watched ctx budget walk slot)
      (p.resolve ctx walk slot) := by
  induction budget generalizing walk slot with
  | zero => cases hbudget
  | succ budget ih =>
      intro log hlog
      cases hentry : p.slots[slot]? with
      | none =>
          rw [Program.watched_of_none ctx hentry, p.resolve_of_none ctx hentry]
          exact ⟨log, rfl, hlog⟩
      | some entry =>
          by_cases hmem : slot ∈ walk
          · rw [Program.watched_of_mem ctx hentry hmem, p.resolve_of_mem ctx hentry hmem]
            exact ⟨log, rfl, hlog⟩
          · rw [Program.watched_of_not_mem ctx hentry hmem, p.resolve_of_not_mem ctx hentry hmem]
            have hsize : slot ∈ List.range p.size :=
              List.mem_range.2 (List.getElem?_eq_some_iff.1 hentry).1
            have hless := nodesLeft_cons_lt_of_lt_succ hbudget hsize hmem
            have hinside : (slot :: walk).Nodup := List.nodup_cons.2 ⟨hmem, hwalk⟩
            have hcode := h.coupled_code (Coupling.completes List.Nodup) ctx
              (fun fault _ log hlog => ⟨log, rfl, hlog⟩) hentry
              (fun next _ => ih hless hinside next)
            apply hcode
            intro visited hvisited
            rcases List.mem_append.1 hvisited with hearlier | hnow
            · exact hlog visited hearlier
            · rw [List.mem_singleton.1 hnow]
              exact hinside

end Schema.Compiled

/-- The guard is exact. Evaluating a name ends on a budget of one more than there are
slots, and is never inside a slot twice. It gives what the recursion without the guard
gives, if that gives anything, and a cycle if and only if the recursion uses up every
budget. -/
theorem Schema.evaluateBinding_cycle_iff {schema : Schema} {passes : List Pass}
    {registry : Registry} {p : Program} (hp : schema.compileWith passes registry = .ok p)
    {ctx : Context} (hctx : ctx.isMapping = true) {name : String} {slot : Nat}
    (hslot : p.slotOf? name = some slot) :
    (∃ walks, (p.watched ctx (p.size + 1) [] slot).run.run [] =
        some (p.evaluateBinding ctx name, walks) ∧ ∀ walk ∈ walks, walk.Nodup) ∧
    (∀ budget r, p.unguarded ctx budget slot = some r → p.evaluateBinding ctx name = r) ∧
    ((∃ path, p.evaluateBinding ctx name = .error (.cycle path)) ↔
      ∀ budget, p.unguarded ctx budget slot = none) := by
  have h := compiled_of_compileWith hp
  rw [Program.evaluateBinding_eq_resolve hctx hslot]
  have hanswer : ∀ budget r, p.unguarded ctx budget slot = some r → p.resolve ctx [] slot = r :=
    fun budget r hr => h.resolve_of_unguarded hr (List.forall_mem_nil _)
  refine ⟨?_, hanswer, ?_, ?_⟩
  · have hbudget : nodesLeft (List.range p.size) [] < p.size + 1 := by simp
    exact h.watched_completes hbudget .nil slot [] (List.forall_mem_nil _)
  · rintro ⟨path, hcycle⟩ budget
    cases hr : p.unguarded ctx budget slot with
    | none => rfl
    | some r =>
        obtain rfl := hcycle.symm.trans (hanswer budget r hr)
        cases h.isCycle_of_unguarded hr
  · exact h.exists_cycle_of_unguarded [] (List.forall_mem_nil _) slot

namespace Example

/-- A road that leads around itself, unless the bridge is open. -/
def detours : Schema where
  attributes :=
    [⟨.attribute, "route", some (.cascade
        [⟨.field "open", .literal (.string "bridge")⟩] (some (.binding "detour"))), none⟩,
      ⟨.attribute, "detour", some (.binding "route"), none⟩]
  traits := []
  functions := []

/-- A context for the road. -/
def bridge (isOpen : Bool) : Context := .ofMap (.ofList [("open", .bool isOpen)])

/-- Over the open bridge the circle of references is no cycle; over the closed one it
is, and no budget is enough to come to its end. -/
theorem evaluateBinding_cycle_iff_detours :
    ∃ p slot, detours.compileWith [.names, .shapes, .declarationOrder] .builtins = .ok p ∧
      p.slotOf? "detour" = some slot ∧
      p.evaluateBinding (bridge true) "detour" = .ok (.string "bridge") ∧
      p.evaluateBinding (bridge false) "detour" = .error (.cycle ["detour", "route", "detour"]) ∧
      ∀ budget, p.unguarded (bridge false) budget slot = none := by
  have hruns : ((detours.compileWith [.names, .shapes, .declarationOrder] .builtins).toOption.bind
      fun p => (p.slotOf? "detour").bind fun slot =>
        (p.unguarded (bridge true) 2 slot).run.bind fun r => r.toOption.bind fun v =>
          v.asString.bind fun text =>
            (fault? (p.evaluateBinding (bridge false) "detour")).map fun fault => (text, fault)) =
      some ("bridge", .cycle ["detour", "route", "detour"]) := by
    decide +kernel
  obtain ⟨p, hp, hruns⟩ := Option.bind_eq_some_iff.1 hruns
  obtain ⟨slot, hslot, hruns⟩ := Option.bind_eq_some_iff.1 hruns
  obtain ⟨r, hr, hruns⟩ := Option.bind_eq_some_iff.1 hruns
  obtain ⟨v, hv, hruns⟩ := Option.bind_eq_some_iff.1 hruns
  obtain ⟨text, htext, hruns⟩ := Option.bind_eq_some_iff.1 hruns
  obtain ⟨fault, hfault, hpair⟩ := Option.map_eq_some_iff.1 hruns
  cases hpair
  obtain rfl := Value.asString_eq_some_iff.1 htext
  rw [toOption_eq_some_iff] at hp hv
  rw [fault?_eq_some_iff] at hfault
  have hctx : ∀ isOpen, (bridge isOpen).isMapping = true := fun _ => rfl
  obtain ⟨-, hopen, -⟩ := Schema.evaluateBinding_cycle_iff hp (hctx true) hslot
  obtain ⟨-, -, hclosed⟩ := Schema.evaluateBinding_cycle_iff hp (hctx false) hslot
  exact ⟨p, slot, hp, hslot, (hopen 2 r hr).trans hv, hfault, hclosed.1 ⟨_, hfault⟩⟩

end Example

end Rulebook
