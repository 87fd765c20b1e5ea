/-
# The desk between two calls

Whatever was called on a session, and however it ended, also several frames down: the
stack is empty again; the same slots have values and traces; what a slot consulted has a
value, is noted once, and never leads back to the slot; nothing that was there has changed;
and the name that was asked for has a value exactly if the call did not fail. Nothing is
assumed of the passes that analyzed the schema.
-/

import Rulebook.Proofs.Desk
import Rulebook.Proofs.Loops

namespace Rulebook

/-! ## Tidy desks -/

namespace Desk

/-- A slot consulted another one on the way to its value. -/
def Consulted (desk : Desk) (slot next : Nat) : Prop :=
  ∃ trace, desk.traces.lookup slot = some trace ∧ next ∈ trace.consulted

/-- No slot is being evaluated, and what lies on the desk can be told: the traces are those
of the values, they lead to values and never in a circle, and a tree leaves nothing out. -/
structure Tidy (p : Program) (desk : Desk) : Prop where
  frames_eq : desk.frames = []
  same_slots : ∀ slot, (desk.traces.lookup slot).isSome = (desk.values.lookup slot).isSome
  nodup : ∀ slot trace, desk.traces.lookup slot = some trace → trace.consulted.Nodup
  settled : ∀ slot next, desk.Consulted slot next → desk.isSettled next = true
  acyclic : ∀ slot, ¬ Relation.TransGen desk.Consulted slot slot
  told : ∀ slot trace, desk.traces.lookup slot = some trace →
    ∃ tree, desk.explanation p (desk.values.length + 1) slot = some tree ∧
      tree.children = trace.consulted.map p.slotName

/-- Values and traces that were there are there unchanged. -/
structure Keeps (before after : Desk) : Prop where
  values : ∀ slot v, before.values.lookup slot = some v → after.values.lookup slot = some v
  traces : ∀ slot trace, before.traces.lookup slot = some trace →
    after.traces.lookup slot = some trace

end Desk

/-! ## Age -/

namespace Memo

/-- How much was remembered when a slot was. -/
def age : Memo → Nat → Nat
  | [], _ => 0
  | d :: older, slot => if d.slot = slot then older.length + 1 else age older slot

theorem age_le_length (memo : Memo) (slot : Nat) : memo.age slot ≤ memo.length := by
  induction memo with
  | nil => exact Nat.le_refl 0
  | cons d older ih =>
      unfold age
      split
      · exact Nat.le_refl _
      · exact Nat.le_succ_of_le ih

/-- What was remembered before lies on the desk unchanged. -/
theorem Founded.keeps_desk {p : Program} {ctx : Context} {before memo : Memo}
    (hfounded : memo.Founded p ctx) (hsuffix : before <:+ memo) :
    (before.desk []).Keeps (memo.desk []) := by
  have hsame : ∀ {β : Type} (f : Derivation → β) slot b, (before.entry? slot).map f = some b →
      (memo.entry? slot).map f = some b := by
    intro β f slot b hb
    obtain ⟨d, hd, rfl⟩ := Option.map_eq_some_iff.1 hb
    rw [hfounded.entry?_of_suffix hsuffix hd, Option.map_some]
  constructor
  · intro slot v hv
    rw [Memo.lookup_values_desk] at hv ⊢
    exact hsame _ slot v hv
  · intro slot trace htrace
    rw [Memo.lookup_traces_desk] at htrace ⊢
    exact hsame _ slot trace htrace

end Memo

namespace Schema.Compiled

variable {schema : Schema} {registry : Registry} {p : Program} {ctx : Context}
  (h : schema.Compiled registry p)

include h

section Memory

variable {memo : Memo} {slot : Nat} {d : Derivation}

/-- What was consulted is remembered, and was noted once. -/
theorem consulted_of_entry? (hfounded : memo.Founded p ctx) (hrecorded : memo.Recorded p ctx)
    (hd : memo.entry? slot = some d) :
    d.consulted.Nodup ∧ ∀ next ∈ d.consulted, ∃ e, memo.entry? next = some e := by
  obtain ⟨-, older, hsuffix⟩ := Memo.exists_suffix_of_entry? hd
  obtain ⟨hnodup, hconsulted⟩ := h.consulted_of_recorded (hrecorded.of_suffix hsuffix)
  refine ⟨hnodup, fun next hnext => ?_⟩
  obtain ⟨e, he⟩ := hconsulted next hnext
  exact ⟨e, hfounded.entry?_of_suffix ((List.suffix_cons d older).trans hsuffix) he⟩

/-- What was consulted is older. -/
theorem age_lt_of_consulted (hfounded : memo.Founded p ctx) (hrecorded : memo.Recorded p ctx)
    (hd : memo.entry? slot = some d) {next : Nat} (hnext : next ∈ d.consulted) :
    memo.age next < memo.age slot := by
  induction hfounded generalizing slot d with
  | nil => cases hd
  | @cons newest older _ holder hnew _ _ ih =>
      have hbefore := hrecorded.of_suffix (List.suffix_cons newest older)
      -- What is asked for is remembered without the newest slot, so it is not that slot.
      have hne : ∀ {e : Derivation}, older.entry? next = some e → newest.slot ≠ next := by
        rintro e he rfl
        rw [hnew] at he
        cases he
      unfold Memo.age
      rw [Memo.entry?_cons] at hd
      by_cases hslot : newest.slot = slot
      · rw [if_pos hslot] at hd ⊢
        cases hd
        obtain ⟨-, hconsulted⟩ := h.consulted_of_recorded hrecorded
        obtain ⟨e, he⟩ := hconsulted next hnext
        rw [if_neg (hne he)]
        exact Nat.lt_succ_of_le (older.age_le_length next)
      · rw [if_neg hslot] at hd ⊢
        obtain ⟨-, hconsulted⟩ := h.consulted_of_entry? holder hbefore hd
        obtain ⟨e, he⟩ := hconsulted next hnext
        rw [if_neg (hne he)]
        exact ih hbefore hd hnext

/-- What is remembered lies tidy on the desk. -/
theorem tidy_desk (hfounded : memo.Founded p ctx) (hrecorded : memo.Recorded p ctx) :
    (memo.desk []).Tidy p := by
  have htrace : ∀ {slot trace}, (memo.desk []).traces.lookup slot = some trace →
      ∃ d, memo.entry? slot = some d ∧ trace = ⟨d.resolver, d.consulted⟩ := by
    intro slot trace hlookup
    rw [Memo.lookup_traces_desk, Option.map_eq_some_iff] at hlookup
    obtain ⟨d, hd, rfl⟩ := hlookup
    exact ⟨d, hd, rfl⟩
  refine ⟨rfl, fun slot => ?_, ?_, ?_, ?_, ?_⟩
  · rw [Memo.lookup_traces_desk, Memo.lookup_values_desk, Option.isSome_map, Option.isSome_map]
  · intro slot trace hlookup
    obtain ⟨d, hd, rfl⟩ := htrace hlookup
    exact (h.consulted_of_entry? hfounded hrecorded hd).1
  · rintro slot next ⟨trace, hlookup, hnext⟩
    obtain ⟨d, hd, rfl⟩ := htrace hlookup
    obtain ⟨e, he⟩ := (h.consulted_of_entry? hfounded hrecorded hd).2 next hnext
    rw [Memo.isSettled_desk, he]
    rfl
  · intro slot hcircle
    have holder : ∀ slot next, (memo.desk []).Consulted slot next →
        memo.age next < memo.age slot := by
      rintro slot next ⟨trace, hlookup, hnext⟩
      obtain ⟨d, hd, rfl⟩ := htrace hlookup
      exact h.age_lt_of_consulted hfounded hrecorded hd hnext
    exact Nat.lt_irrefl _ (lt_of_transGen holder hcircle)
  · intro slot trace hlookup
    obtain ⟨d, hd, rfl⟩ := htrace hlookup
    obtain ⟨entry, hentry⟩ := hrecorded.exists_slot hd
    obtain ⟨older, hsuffix, htold⟩ := Memo.exists_explanation hd hentry
    have hbudget : memo.length < (memo.desk []).values.length + 1 := by simp [Memo.desk]
    have htoldOnDesk := h.explanation_desk hfounded hrecorded [] (List.suffix_refl _) hbudget hd
    obtain ⟨-, hconsulted⟩ := h.consulted_of_recorded (hrecorded.of_suffix hsuffix)
    have holder := hrecorded.of_suffix ((List.suffix_cons d older).trans hsuffix)
    exact ⟨_, htoldOnDesk.trans htold, holder.children_eq hconsulted rfl⟩

/-- A slot that fails to resolve is not remembered. -/
theorem entry?_of_error {walk : List Nat} (hmemo : memo.FoundedOutside p ctx walk) {fault : Fault}
    (herror : (p.resolveWith ctx walk slot memo).1 = .error fault) :
    Memo.entry? (p.resolveWith ctx walk slot memo).2 slot = none := by
  cases hnew : memo.entry? slot with
  | some d =>
      rw [Program.resolveWith_of_entry hnew] at herror
      cases herror
  | none =>
    cases hentry : p.slots[slot]? with
    | none => rwa [Program.resolveWith_of_none hnew hentry]
    | some entry =>
        by_cases hwalk : slot ∈ walk
        · rwa [Program.resolveWith_of_mem hnew hentry hwalk]
        -- While the slot is being evaluated, nothing is remembered of it.
        · rw [Program.resolveWith_of_not_mem hnew hentry hwalk] at herror ⊢
          have hask : ∀ next, (Coupling.keeps (fun progress : Progress =>
                progress.memo.FoundedOutside p ctx (slot :: walk)) fun _ => True).Rel
              (Progress.ask (p.resolveWith ctx (slot :: walk)) next)
              (Progress.ask (p.resolveWith ctx (slot :: walk)) next) := by
            intro next
            apply Coupling.keeps_ask
            intro memo hmemo
            exact ⟨(h.foundedOutside_resolveWith _ next memo hmemo).1, fun _ _ => trivial⟩
          obtain ⟨hkept, -⟩ := h.coupled_derive _ ctx
            (fun _ _ => Coupling.keeps_throw trivial) hentry (fun next _ => hask next)
            ⟨memo, []⟩ (hmemo.cons hnew)
          rcases hrun : (p.derive ctx (Progress.ask (p.resolveWith ctx (slot :: walk))) entry).run
            ⟨memo, []⟩ with ⟨_ | ⟨v, text⟩, progress⟩
          · rw [hrun] at hkept
            simp only [hrun]
            exact hkept.apart slot List.mem_cons_self
          · simp only [hrun, Progress.finish_ok] at herror
            cases herror

end Memory

/-! ## After a call -/

variable {start s : Session} (hopen : p.session ctx = .ok start) (hlater : start.Later s)

include hopen hlater

/-- A call only adds to what is remembered. -/
theorem suffix_call (c : Call) : s.memo <:+ (s.call c).2.memo := by
  obtain ⟨rfl, rfl, hmemo⟩ := h.founded_of_later hopen hlater
  let Inv (memo : Memo) : Prop := memo.FoundedOutside s.program s.context [] ∧ s.memo <:+ memo
  have hkeeps : ∀ slot memo, Inv memo →
      Inv (s.program.resolveWith s.context [] slot memo).2 := by
    rintro slot memo ⟨hmemo, hsuffix⟩
    obtain ⟨hkept, hadded⟩ := h.foundedOutside_resolveWith [] slot memo hmemo
    exact ⟨hkept, hsuffix.trans hadded⟩
  exact ((s.step_call c).keeps (P := Inv) hkeeps ⟨hmemo, List.suffix_refl _⟩).2.2.2

/-- A name has a value after it was asked for exactly if it resolved. -/
theorem isResolved_resolve (name : String) :
    (s.resolve name).2.desk.isResolved p name = true ↔ ∃ v, (s.resolve name).1 = .ok v := by
  obtain ⟨rfl, rfl, hmemo⟩ := h.founded_of_later hopen hlater
  unfold Desk.isResolved Session.desk
  cases hslot : s.program.slotOf? name with
  | none => simp [Session.resolve_of_slotOf?_eq_none hslot]
  | some slot =>
      simp only [Session.resolve_of_slotOf? hslot, Memo.isSettled_desk]
      constructor
      · intro hsettled
        cases hvalue : (s.program.resolveWith s.context [] slot s.memo).1 with
        | ok v => exact ⟨v, rfl⟩
        | error fault =>
            rw [h.entry?_of_error hmemo hvalue] at hsettled
            cases hsettled
      · rintro ⟨v, hv⟩
        obtain ⟨d, hd, -⟩ := Program.entry?_of_resolveWith [] slot s.memo v hv
        rw [hd]
        rfl

/-- A name is explained exactly if it resolves. -/
theorem explain_ok_iff (name : String) :
    (∃ tree, (s.explain name).1 = .ok tree) ↔ ∃ v, (s.resolve name).1 = .ok v := by
  constructor
  · rintro ⟨tree, htree⟩
    cases hvalue : (s.resolve name).1 with
    | ok v => exact ⟨v, rfl⟩
    | error fault =>
        rw [Session.explain_of_error hvalue] at htree
        cases htree
  · rintro ⟨v, hv⟩
    have hafter := h.recorded_of_later hopen (hlater.tail (.resolve name))
    obtain ⟨rfl, rfl, -⟩ := h.founded_of_later hopen hlater
    cases hslot : s.program.slotOf? name with
    | none =>
        rw [Session.resolve_of_slotOf?_eq_none hslot] at hv
        cases hv
    | some slot =>
        obtain ⟨d, tree, -, -, htree⟩ := Session.exists_told_of_ok hafter hslot hv
        exact ⟨tree, htree⟩

end Schema.Compiled

/-- The name that a call asks for. -/
def Call.name? : Call → Option String
  | .resolve name => some name
  | .satisfiedTraits => none
  | .explain name => some name

/-- Every call leaves the desk tidy. Over a program from any passes and a mapping, whatever
was called before: a call ends within its budget, and however it ends the desk is tidy then,
and keeps all that lay on it; the name that is asked for has a value then exactly if the
call did not fail. The outcome is that of the call on a session with the same history, and
the desk lays out what that session remembers, and tells the same names to be resolved. -/
theorem Schema.tidy_of_call {schema : Schema} {passes : List Pass} {registry : Registry}
    {p : Program} {ctx : Context} (hp : schema.compileWith passes registry = .ok p)
    {start : Session} (hopen : p.session ctx = .ok start) {desk : Desk}
    (hreached : desk.Reached p ctx) (c : Call) :
    ∃ outcome after, desk.call p ctx c = some (outcome, after) ∧
      after.Tidy p ∧ desk.Keeps after ∧
      (∀ name, c.name? = some name →
        (after.isResolved p name = true ↔ ∃ answer, outcome = .ok answer)) ∧
      ∃ s, start.Later s ∧ s.desk = desk ∧ (s.call c).1 = outcome ∧ (s.call c).2.desk = after ∧
        ∀ name, (s.call c).2.isResolved name = after.isResolved p name := by
  have h := compiled_of_compileWith hp
  obtain ⟨s, hlater, rfl⟩ := h.exists_later_of_reached hopen hreached
  have hafter := hlater.tail (s.step_call c)
  obtain ⟨hprogram, -, hmemo⟩ := h.founded_of_later hopen hafter
  have hrecorded := h.recorded_of_later hopen hafter
  have hsuffix := h.suffix_call hopen hlater c
  have hsame : ∀ name, (s.call c).2.isResolved name = (s.call c).2.desk.isResolved p name :=
    fun name => hprogram ▸ ((s.call c).2.isResolved_desk name).symm
  refine ⟨_, _, h.desk_call hopen hlater c, h.tidy_desk hmemo.founded hrecorded,
    hmemo.founded.keeps_desk hsuffix, fun name hname => ?_, s, hlater, rfl, rfl, rfl, hsame⟩
  cases c with
  | resolve name' =>
      cases hname
      exact (h.isResolved_resolve hopen hlater name).trans exists_map_eq_ok_iff.symm
  | satisfiedTraits => cases hname
  | explain name' =>
      cases hname
      show (s.explain name).2.desk.isResolved p name = true ↔
        ∃ answer, (s.explain name).1.map Answer.tree = .ok answer
      rw [exists_map_eq_ok_iff, h.explain_ok_iff hopen hlater, Session.explain_snd]
      exact h.isResolved_resolve hopen hlater name

namespace Example

/-- The tier of a membership is met again on the way to it, two frames down. The desk is
tidy after that and keeps what was found before the circle, and explaining the adult adds
to it. -/
theorem tidy_of_call_memberships :
    ∃ p start failed answer explained,
      memberships.compileWith Pass.standard .builtins = .ok p ∧ p.session aged30 = .ok start ∧
      (∅ : Desk).call p aged30 (.resolve "tier") =
        some (.error (.cycle ["tier", "premium", "tier"]), failed) ∧
      failed.Tidy p ∧ ¬ failed.isResolved p "tier" = true ∧
      failed.isResolved p "adult" = true ∧
      failed.call p aged30 (.explain "adult") = some (.ok answer, explained) ∧
      explained.Tidy p ∧ failed.Keeps explained ∧ explained.isResolved p "adult" = true := by
  have hruns : ((memberships.compileWith Pass.standard .builtins).toOption.bind fun p =>
      (p.session aged30).toOption.bind fun _ =>
        ((∅ : Desk).call p aged30 (.resolve "tier")).bind fun run =>
          (fault? run.1).bind fun fault =>
            (run.2.call p aged30 (.explain "adult")).bind fun run' =>
              run'.1.toOption.map fun _ => (fault, run.2.isResolved p "adult")) =
      some (.cycle ["tier", "premium", "tier"], true) := by
    decide +kernel
  obtain ⟨p, hp, hruns⟩ := Option.bind_eq_some_iff.1 hruns
  obtain ⟨start, hopen, hruns⟩ := Option.bind_eq_some_iff.1 hruns
  obtain ⟨⟨outcome, failed⟩, hfirst, hruns⟩ := Option.bind_eq_some_iff.1 hruns
  obtain ⟨fault, hfault, hruns⟩ := Option.bind_eq_some_iff.1 hruns
  obtain ⟨⟨outcome', explained⟩, hsecond, hruns⟩ := Option.bind_eq_some_iff.1 hruns
  obtain ⟨answer, hanswer, hpair⟩ := Option.map_eq_some_iff.1 hruns
  obtain ⟨rfl, hadult⟩ := Prod.mk.inj hpair
  rw [toOption_eq_some_iff] at hp hopen hanswer
  rw [fault?_eq_some_iff] at hfault
  cases hfault
  cases hanswer
  obtain ⟨_, _, hcall, htidy, -, hresolved, -⟩ :=
    Schema.tidy_of_call hp hopen .start (.resolve "tier")
  rw [hfirst] at hcall
  cases hcall
  obtain ⟨_, _, hcall, htidy', hkeeps, hnow, -⟩ :=
    Schema.tidy_of_call hp hopen (.call _ .start hfirst) (.explain "adult")
  rw [hsecond] at hcall
  cases hcall
  exact ⟨p, start, failed, answer, explained, hp, hopen, hfirst, htidy,
    fun htrue => ((hresolved "tier" rfl).1 htrue).elim nofun, hadult, hsecond, htidy', hkeeps,
    (hnow "adult" rfl).2 ⟨answer, rfl⟩⟩

end Example

end Rulebook
