/-
# The history of a session does not show

What a session remembers is founded: every derivation can be made again from what was
remembered before it, and from that alone. So it can be made again from anything a
session may ever remember and inside any walk that came to it, and neither a value
nor a fault tells what was asked before. Nothing is assumed of the passes that
analyzed the schema, and references may go in circles.
-/

import Rulebook.Proofs.Dependence

namespace Rulebook

/-! ## Founded memories -/

namespace Memo

/-- What is remembered, as an answer to those who ask; no other slot is answered. -/
def answer (memo : Memo) (slot : Nat) : Except Fault Value :=
  match memo.entry? slot with
  | some d => .ok d.value
  | none => .error (.unresolvedBinding s!"#{slot}")

theorem answer_eq_ok_iff {memo : Memo} {slot : Nat} {v : Value} :
    memo.answer slot = .ok v ↔ ∃ d, memo.entry? slot = some d ∧ d.value = v := by
  rw [answer]
  cases memo.entry? slot <;> simp

theorem entry?_cons (d : Derivation) (older : Memo) (slot : Nat) :
    entry? (d :: older) slot = if d.slot = slot then some d else older.entry? slot := by
  unfold entry?
  rw [List.find?_cons]
  by_cases hslot : d.slot = slot <;> simp [hslot]

/-- No slot is remembered twice, and what is remembered of a slot is derived for it when
those who ask are answered from what was remembered before. -/
inductive Founded (p : Program) (ctx : Context) : Memo → Prop
  | nil : Founded p ctx []
  | cons {d : Derivation} {older : Memo} {entry : Slot} : Founded p ctx older →
      older.entry? d.slot = none → p.slots[d.slot]? = some entry →
      p.derive ctx older.answer entry = .ok (d.value, d.resolver) → Founded p ctx (d :: older)

/-- What is remembered while evaluation is inside a walk: it is founded, and holds none
of the slots that are still being evaluated. -/
structure FoundedOutside (p : Program) (ctx : Context) (walk : List Nat) (memo : Memo) :
    Prop where
  founded : memo.Founded p ctx
  apart : ∀ slot ∈ walk, memo.entry? slot = none

variable {p : Program} {ctx : Context} {memo older : Memo} {walk : List Nat} {slot : Nat}
  {d : Derivation}

/-- What is remembered is not forgotten when more is remembered. -/
theorem Founded.entry?_of_suffix (h : memo.Founded p ctx) (hsuffix : older <:+ memo)
    (hd : older.entry? slot = some d) : memo.entry? slot = some d := by
  induction h with
  | nil =>
      rw [List.suffix_nil.1 hsuffix] at hd
      exact hd
  | @cons newest before _ _ hnew _ _ ih =>
      rcases List.suffix_cons_iff.1 hsuffix with rfl | hsuffix
      · exact hd
      · have hbefore := ih hsuffix
        have hne : newest.slot ≠ slot := by
          rintro rfl
          rw [hnew] at hbefore
          cases hbefore
        rw [entry?_cons, if_neg hne, hbefore]

/-- Every slot is remembered for a derivation from what was remembered before. -/
theorem Founded.exists_derive (h : memo.Founded p ctx) (hd : memo.entry? slot = some d) :
    ∃ older entry, Founded p ctx older ∧ p.slots[slot]? = some entry ∧
      p.derive ctx older.answer entry = .ok (d.value, d.resolver) := by
  induction h with
  | nil => cases hd
  | @cons newest before entry hbefore _ hentry hderive ih =>
      rw [entry?_cons] at hd
      split at hd
      · rename_i hslot
        cases hd
        exact ⟨before, entry, hbefore, hslot ▸ hentry, hderive⟩
      · exact ih hd

namespace FoundedOutside

theorem cons (h : memo.FoundedOutside p ctx walk) (hnew : memo.entry? slot = none) :
    memo.FoundedOutside p ctx (slot :: walk) :=
  ⟨h.founded, List.forall_mem_cons.2 ⟨hnew, h.apart⟩⟩

theorem of_cons (h : memo.FoundedOutside p ctx (slot :: walk)) :
    memo.FoundedOutside p ctx walk :=
  ⟨h.founded, (List.forall_mem_cons.1 h.apart).2⟩

/-- A slot is remembered when evaluation leaves it, for a derivation from what is
remembered then. -/
theorem remember (h : memo.FoundedOutside p ctx (d.slot :: walk)) (hwalk : d.slot ∉ walk)
    {entry : Slot} (hentry : p.slots[d.slot]? = some entry)
    (hderive : p.derive ctx memo.answer entry = .ok (d.value, d.resolver)) :
    Memo.FoundedOutside p ctx walk (d :: memo) := by
  obtain ⟨hnew, hapart⟩ := List.forall_mem_cons.1 h.apart
  refine ⟨.cons h.founded hnew hentry hderive, fun outer houter => ?_⟩
  have hne : d.slot ≠ outer := fun heq => hwalk (heq ▸ houter)
  rw [entry?_cons, if_neg hne]
  exact hapart outer houter

end FoundedOutside

end Memo

/-! ## Deriving again -/

/-- Two computations give no two different values. -/
def Coupling.sameValue : Coupling (Except Fault) (Except Fault) where
  Rel x y := ∀ a b, x = .ok a → y = .ok b → a = b
  pure _ _ _ ha hb := (Except.ok.inj ha).symm.trans (Except.ok.inj hb)
  bind hx hf b c hb hc := by
    obtain ⟨a, ha, hb⟩ := bind_eq_ok_iff.1 hb
    obtain ⟨a', ha', hc⟩ := bind_eq_ok_iff.1 hc
    obtain rfl := hx a a' ha ha'
    exact hf a b c hb hc

/-- Evaluation only adds to what is remembered, and gives no value that is not given
when those who ask are answered from what is remembered in the end. -/
def Coupling.remembers (Inv : Memo → Prop) (final : Memo) :
    Coupling (ExceptT Fault (StateM Progress)) (Except Fault) where
  Rel x y := ∀ progress, Inv progress.memo → Inv (x.run progress).2.memo ∧
    progress.memo <:+ (x.run progress).2.memo ∧
    (Inv final → (x.run progress).2.memo <:+ final → ∀ a, (x.run progress).1 = .ok a → y = .ok a)
  pure a progress hinv := ⟨hinv, List.suffix_refl _, fun _ _ _ h => h⟩
  bind {_ _ x y f g} hx hf progress hinv := by
    obtain ⟨hinv', hsuffix, hvalue⟩ := hx progress hinv
    rw [run_bind]
    rcases hrun : x.run progress with ⟨fault | a, progress'⟩
    · rw [hrun] at hinv' hsuffix
      exact ⟨hinv', hsuffix, fun _ _ => nofun⟩
    · rw [hrun] at hinv' hsuffix hvalue
      obtain ⟨hinv'', hsuffix', hvalue'⟩ := hf a progress' hinv'
      refine ⟨hinv'', hsuffix.trans hsuffix', fun hfinal hend b hb => ?_⟩
      rw [hvalue hfinal (hsuffix'.trans hend) a rfl]
      exact hvalue' hfinal hend b hb

namespace Schema.Compiled

open Memo

variable {schema : Schema} {registry : Registry} {p : Program} {ctx : Context}
  (h : schema.Compiled registry p)

include h

/-- Founded memories agree on what both remember. -/
theorem value_unique {memo memo' : Memo} (hmemo : memo.Founded p ctx)
    (hmemo' : memo'.Founded p ctx) {slot : Nat} {d d' : Derivation}
    (hd : memo.entry? slot = some d) (hd' : memo'.entry? slot = some d') :
    d.value = d'.value := by
  induction hmemo generalizing memo' slot d d' with
  | nil => cases hd
  | @cons newest before entry _ _ hentry hderive ih =>
      rw [entry?_cons] at hd
      split at hd
      · rename_i hslot
        cases hd
        subst hslot
        obtain ⟨before', entry', hbefore', hentry', hderive'⟩ := hmemo'.exists_derive hd'
        cases hentry.symm.trans hentry'
        have hask : ∀ next, Coupling.sameValue.Rel (before.answer next) (before'.answer next) := by
          intro next v v' hv hv'
          obtain ⟨e, he, rfl⟩ := answer_eq_ok_iff.1 hv
          obtain ⟨e', he', rfl⟩ := answer_eq_ok_iff.1 hv'
          exact ih hbefore' he he'
        have hpair := h.coupled_derive _ ctx (fun _ _ _ _ => nofun) hentry
          (fun next _ => hask next) _ _ hderive hderive'
        exact congrArg Prod.fst hpair
      · exact ih hmemo' hd hd'

omit h in
/-- If to resolve the slots inside of a walk keeps what is remembered founded and adds to
it, then what they are asked for is remembered in the end. -/
theorem remembers_ask {walk : List Nat}
    (hkeeps : ∀ next memo, memo.FoundedOutside p ctx walk →
      (p.resolveWith ctx walk next memo).2.FoundedOutside p ctx walk ∧
        memo <:+ (p.resolveWith ctx walk next memo).2) (final : Memo) (next : Nat) :
    (Coupling.remembers (·.FoundedOutside p ctx walk) final).Rel
      (Progress.ask (p.resolveWith ctx walk) next) (final.answer next) := by
  intro progress hprogress
  obtain ⟨hvalue, hafter⟩ := Progress.run_ask (p.resolveWith ctx walk) next progress
  obtain ⟨hkept, hsuffix⟩ := hkeeps next progress.memo hprogress
  rw [hvalue, hafter]
  refine ⟨hkept, hsuffix, fun hfinal hend v hv => ?_⟩
  obtain ⟨d, hd, rfl⟩ := Program.entry?_of_resolveWith _ _ _ v hv
  exact answer_eq_ok_iff.2 ⟨d, hfinal.founded.entry?_of_suffix hend hd, rfl⟩

/-- Resolving a slot keeps what is remembered founded and adds to it. -/
theorem foundedOutside_resolveWith : ∀ walk slot memo, memo.FoundedOutside p ctx walk →
    (p.resolveWith ctx walk slot memo).2.FoundedOutside p ctx walk ∧
      memo <:+ (p.resolveWith ctx walk slot memo).2 := by
  apply Program.resolveWith_induction (P := fun walk _ memo r =>
    memo.FoundedOutside p ctx walk → r.2.FoundedOutside p ctx walk ∧ memo <:+ r.2)
  · intro walk slot memo d _ hmemo
    exact ⟨hmemo, List.suffix_refl _⟩
  · intro walk slot memo _ hmemo
    exact ⟨hmemo, List.suffix_refl _⟩
  · intro walk slot memo entry _ _ hmemo
    exact ⟨hmemo, List.suffix_refl _⟩
  -- What was asked for inside the slot is all remembered in the end, so the slot can be
  -- derived from what is remembered then.
  · intro walk slot memo entry hnew hentry hwalk ih hmemo
    rcases hrun : (p.derive ctx (Progress.ask (p.resolveWith ctx (slot :: walk))) entry).run
      ⟨memo, []⟩ with ⟨outcome, progress⟩
    obtain ⟨hkept, hsuffix, hvalue⟩ := h.coupled_derive _ ctx
      (fun fault _ progress hprogress => ⟨hprogress, List.suffix_refl _, fun _ _ => nofun⟩)
      hentry (fun next _ => remembers_ask ih progress.memo next) ⟨memo, []⟩ (hmemo.cons hnew)
    rw [hrun] at hkept hsuffix hvalue
    rcases outcome with fault | ⟨v, text⟩
    · exact ⟨hkept.of_cons, hsuffix⟩
    · have hderive := hvalue hkept (List.suffix_refl _) (v, text) rfl
      rw [Progress.finish_ok]
      exact ⟨hkept.remember hwalk hentry hderive, hsuffix.trans (List.suffix_cons _ _)⟩

/-- A derivation can be made again where all that it recalls is given again. -/
theorem resolveWith_of_derive {older memo : Memo} {walk : List Nat} {slot : Nat} {entry : Slot}
    (hmemo : memo.FoundedOutside p ctx walk) (hnew : memo.entry? slot = none)
    (hentry : p.slots[slot]? = some entry) (hwalk : slot ∉ walk)
    (hagain : ∀ next d memo, memo.FoundedOutside p ctx (slot :: walk) →
      older.entry? next = some d → (p.resolveWith ctx (slot :: walk) next memo).1 = .ok d.value)
    {v : Value} {text : String} (hderive : p.derive ctx older.answer entry = .ok (v, text)) :
    (p.resolveWith ctx walk slot memo).1 = .ok v := by
  have hask : ∀ next, (Coupling.attains (fun progress : Progress =>
        progress.memo.FoundedOutside p ctx (slot :: walk)) fun _ => False).Rel
      (Progress.ask (p.resolveWith ctx (slot :: walk)) next) (older.answer next) := by
    intro next
    apply Coupling.attains_ask
    intro memo hmemo
    refine ⟨(h.foundedOutside_resolveWith _ next memo hmemo).1, fun w hw => .inl ?_⟩
    obtain ⟨d, hd, rfl⟩ := answer_eq_ok_iff.1 hw
    exact hagain next d memo hmemo hd
  obtain ⟨-, hvalue⟩ := h.coupled_derive _ ctx
    (fun fault _ progress hprogress => ⟨hprogress, nofun⟩) hentry
    (fun next _ => hask next) ⟨memo, []⟩ (hmemo.cons hnew)
  have hresult := (hvalue _ hderive).resolve_right fun ⟨_, _, hfalse⟩ => hfalse
  rw [Program.resolveWith_of_not_mem hnew hentry hwalk, Progress.finish_fst, hresult]
  rfl

/-- What is remembered is given again inside any walk that holds nothing of it, whatever
else is remembered. -/
theorem resolveWith_eq_ok {memo memo' : Memo} (hmemo : memo.Founded p ctx) {walk : List Nat}
    (hapart : ∀ slot ∈ walk, memo.entry? slot = none)
    (hmemo' : memo'.FoundedOutside p ctx walk) {slot : Nat} {d : Derivation}
    (hd : memo.entry? slot = some d) :
    (p.resolveWith ctx walk slot memo').1 = .ok d.value := by
  induction hmemo generalizing memo' walk slot d with
  | nil => cases hd
  | @cons newest before entry hbefore hnew hentry hderive ih =>
      have hearlier : ∀ outer ∈ walk, newest.slot ≠ outer ∧ Memo.entry? before outer = none := by
        intro outer houter
        have hnone := hapart outer houter
        rw [entry?_cons] at hnone
        split at hnone
        · cases hnone
        · exact ⟨‹_›, hnone⟩
      by_cases hslot : newest.slot = slot
      · subst hslot
        obtain rfl : newest = d := by simpa [entry?_cons] using hd
        cases hentry' : memo'.entry? newest.slot with
        | some d' =>
            rw [Program.resolveWith_of_entry hentry',
              h.value_unique (.cons hbefore hnew hentry hderive) hmemo'.founded hd hentry']
        | none =>
            have hwalk : newest.slot ∉ walk := fun hmem => (hearlier _ hmem).1 rfl
            apply h.resolveWith_of_derive hmemo' hentry' hentry hwalk ?_ hderive
            intro next e memo'' hmemo'' he
            have hinside : ∀ outer ∈ newest.slot :: walk, Memo.entry? before outer = none :=
              List.forall_mem_cons.2 ⟨hnew, fun outer houter => (hearlier outer houter).2⟩
            exact ih hinside hmemo'' he
      · rw [entry?_cons, if_neg hslot] at hd
        exact ih (fun outer houter => (hearlier outer houter).2) hmemo' hd

/-! ## Two runs -/

/-- A slot comes to the same from two memories if all it asks for does. -/
theorem outcome_eq_of_inside {walk : List Nat} {slot : Nat} {entry : Slot} {memo memo' : Memo}
    (hentry : p.slots[slot]? = some entry) (hwalk : slot ∉ walk)
    (hmemo : memo.FoundedOutside p ctx walk) (hmemo' : memo'.FoundedOutside p ctx walk)
    (hnew : memo.entry? slot = none) (hnew' : memo'.entry? slot = none)
    (hinside : ∀ next memo memo', memo.FoundedOutside p ctx (slot :: walk) →
      memo'.FoundedOutside p ctx (slot :: walk) →
      (p.resolveWith ctx (slot :: walk) next memo).1 =
        (p.resolveWith ctx (slot :: walk) next memo').1) :
    (p.resolveWith ctx walk slot memo).1 = (p.resolveWith ctx walk slot memo').1 := by
  have hask : ∀ next, (Coupling.sameOutcome fun progress : Progress =>
        progress.memo.FoundedOutside p ctx (slot :: walk)).Rel
      (Progress.ask (p.resolveWith ctx (slot :: walk)) next)
      (Progress.ask (p.resolveWith ctx (slot :: walk)) next) := by
    intro next
    apply Coupling.sameOutcome_ask
    intro memo memo' hmemo hmemo'
    exact ⟨hinside next memo memo' hmemo hmemo',
      (h.foundedOutside_resolveWith _ next memo hmemo).1,
      (h.foundedOutside_resolveWith _ next memo' hmemo').1⟩
  obtain ⟨hsame, -⟩ := h.coupled_derive _ ctx
    (fun fault _ progress progress' hprogress hprogress' => ⟨rfl, hprogress, hprogress'⟩)
    hentry (fun next _ => hask next) ⟨memo, []⟩ ⟨memo', []⟩ (hmemo.cons hnew) (hmemo'.cons hnew')
  rw [Program.resolveWith_of_not_mem hnew hentry hwalk,
    Program.resolveWith_of_not_mem hnew' hentry hwalk, Progress.finish_fst, Progress.finish_fst,
    hsame]

/-- What a slot comes to does not depend on what is remembered. -/
theorem outcome_eq (walk : List Nat) : ∀ (slot : Nat) (memo memo' : Memo),
    memo.FoundedOutside p ctx walk → memo'.FoundedOutside p ctx walk →
    (p.resolveWith ctx walk slot memo).1 = (p.resolveWith ctx walk slot memo').1 := by
  induction walk using walk_induction (List.range p.size) with
  | step walk ih =>
      intro slot memo memo' hmemo hmemo'
      -- A slot that one of the two remembers is derived again from the other.
      cases hd : memo.entry? slot with
      | some d =>
          rw [Program.resolveWith_of_entry hd,
            h.resolveWith_eq_ok hmemo.founded hmemo.apart hmemo' hd]
      | none =>
        cases hd' : memo'.entry? slot with
        | some d' =>
            rw [Program.resolveWith_of_entry hd',
              h.resolveWith_eq_ok hmemo'.founded hmemo'.apart hmemo hd']
        | none =>
          cases hentry : p.slots[slot]? with
          | none =>
              rw [Program.resolveWith_of_none hd hentry, Program.resolveWith_of_none hd' hentry]
          | some entry =>
              by_cases hwalk : slot ∈ walk
              · rw [Program.resolveWith_of_mem hd hentry hwalk,
                  Program.resolveWith_of_mem hd' hentry hwalk]
              · have hsize : slot ∈ List.range p.size :=
                  List.mem_range.2 (List.getElem?_eq_some_iff.1 hentry).1
                exact h.outcome_eq_of_inside hentry hwalk hmemo hmemo' hd hd' (ih slot hsize hwalk)

/-! ## Runs -/

variable {start s : Session} (hopen : p.session ctx = .ok start) (hlater : start.Later s)

include hopen hlater

/-- What a session remembers is founded, whatever was called on it. -/
theorem founded_of_later :
    s.program = p ∧ s.context = ctx ∧ s.memo.FoundedOutside p ctx [] := by
  obtain ⟨-, rfl⟩ := Program.session_eq_ok_iff.1 hopen
  exact hlater.keeps (fun slot memo hmemo => (h.foundedOutside_resolveWith [] slot memo hmemo).1)
    ⟨.nil, fun _ hslot => absurd hslot List.not_mem_nil⟩

end Schema.Compiled

/-- A session has no history. Whatever was called on it before, successfully or not, to
resolve a name gives the value or the fault that it gives on a session that was just
opened, down to the path of a cycle; and so does asking for the traits that hold. -/
theorem Schema.resolve_eq_of_later {schema : Schema} {passes : List Pass} {registry : Registry}
    {p : Program} {ctx : Context} (hp : schema.compileWith passes registry = .ok p)
    {start s : Session} (hopen : p.session ctx = .ok start) (hlater : start.Later s) :
    (∀ name, (s.resolve name).1 = (start.resolve name).1) ∧
    s.satisfiedTraits.1 = start.satisfiedTraits.1 := by
  have h := compiled_of_compileWith hp
  obtain ⟨program, context, memo⟩ := s
  obtain ⟨rfl, rfl, hmemo⟩ := h.founded_of_later hopen hlater
  have hstart := (h.founded_of_later hopen .refl).2.2
  obtain ⟨-, rfl⟩ := Program.session_eq_ok_iff.1 hopen
  constructor
  · intro name
    cases hslot : program.slotOf? name with
    | none =>
        rw [Session.resolve_of_slotOf?_eq_none hslot,
          Session.resolve_of_slotOf?_eq_none (s := ⟨program, context, []⟩) hslot]
    | some slot =>
        rw [Session.resolve_of_slotOf? hslot,
          Session.resolve_of_slotOf? (s := ⟨program, context, []⟩) hslot]
        exact h.outcome_eq [] slot memo [] hmemo hstart
  · have hask : ∀ slot ∈ program.traitSlots,
        (Coupling.sameOutcome (·.FoundedOutside program context [])).Rel (α := Value)
          (program.resolveWith context [] slot) (program.resolveWith context [] slot) := by
      intro slot _ memo memo' hmemo hmemo'
      exact ⟨h.outcome_eq [] slot memo memo' hmemo hmemo',
        (h.foundedOutside_resolveWith [] slot memo hmemo).1,
        (h.foundedOutside_resolveWith [] slot memo' hmemo').1⟩
    exact (Coupling.satisfied _ hask memo [] hmemo hstart).1

namespace Example

/-- The tier of a membership is met again on the way to it, also after the adults were
asked for and the premium was not to be explained. -/
theorem resolve_eq_of_later_memberships :
    ∃ p start, memberships.compileWith Pass.standard .builtins = .ok p ∧
      p.session aged30 = .ok start ∧
      (start.resolve "tier").1 = .error (.cycle ["tier", "premium", "tier"]) ∧
      (((start.explain "premium").2.resolve "adult").2.resolve "tier").1 =
        .error (.cycle ["tier", "premium", "tier"]) := by
  have hruns : ((memberships.compileWith Pass.standard .builtins).toOption.bind fun p =>
      (p.session aged30).toOption.bind fun start => fault? (start.resolve "tier").1) =
        some (.cycle ["tier", "premium", "tier"]) := by
    decide +kernel
  obtain ⟨p, hp, hruns⟩ := Option.bind_eq_some_iff.1 hruns
  obtain ⟨start, hopen, hfault⟩ := Option.bind_eq_some_iff.1 hruns
  rw [toOption_eq_some_iff] at hp hopen
  rw [fault?_eq_some_iff] at hfault
  have hlater : start.Later ((start.explain "premium").2.resolve "adult").2 :=
    .tail (.single (.explain "premium")) (.resolve "adult")
  have hsame := (Schema.resolve_eq_of_later hp hopen hlater).1 "tier"
  exact ⟨p, start, hp, hopen, hfault, hsame.trans hfault⟩

end Example

end Rulebook
