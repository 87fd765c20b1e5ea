/-
# What a derivation consults

A session notes which slots a derivation asked for, before it knows whether they have a
value. The note is kept only if the derivation comes to an end, and then it is exact:
derive the slot again, answer from what was remembered before it, and the same slots are
asked for, each taken down at its first use. So all that is consulted is remembered, and
remembered earlier. Nothing is assumed of the passes that analyzed the schema.
-/

import Rulebook.Proofs.History

namespace Rulebook

/-! ## Asking on the record -/

section Record

variable {α : Type} [DecidableEq α]

/-- Take down an item at its first use. -/
def firstUse (log : List α) (x : α) : List α := if x ∈ log then log else log ++ [x]

theorem firstUse_of_mem {log : List α} {x : α} (h : x ∈ log) : firstUse log x = log := if_pos h

theorem firstUse_of_not_mem {log : List α} {x : α} (h : x ∉ log) :
    firstUse log x = log ++ [x] := if_neg h

@[simp] theorem mem_firstUse {log : List α} {x y : α} :
    y ∈ firstUse log x ↔ y ∈ log ∨ y = x := by
  by_cases h : x ∈ log
  · rw [firstUse_of_mem h]
    exact ⟨.inl, fun hy => hy.elim id fun heq => heq ▸ h⟩
  · simp [firstUse_of_not_mem h]

theorem nodup_firstUse {log : List α} (h : log.Nodup) (x : α) : (firstUse log x).Nodup := by
  by_cases hx : x ∈ log
  · rwa [firstUse_of_mem hx]
  · rw [firstUse_of_not_mem hx, ← List.concat_eq_append]
    exact h.concat hx

/-- Answer as told, and take down what is asked for. -/
def onRecord (answer : α → Except Fault Value) (x : α) : ExceptT Fault (StateM (List α)) Value :=
  fun log => (answer x, firstUse log x)

end Record

namespace Progress

theorem note_consulted (progress : Progress) (slot : Nat) :
    (progress.note slot).consulted = firstUse progress.consulted slot := by
  rw [note, firstUse]
  split <;> rfl

theorem run_ask_consulted (lookUp : Nat → Memo → Except Fault Value × Memo) (slot : Nat)
    (progress : Progress) :
    ((ask lookUp slot).run progress).2.consulted = firstUse progress.consulted slot :=
  note_consulted progress slot

end Progress

namespace Coupling

/-- What holds of the state before a computation holds after it if it comes to a value. -/
def keepsOnSuccess {σ : Type} (Inv : σ → Prop) :
    Coupling (ExceptT Fault (StateM σ)) (ExceptT Fault (StateM σ)) where
  Rel x _ := ∀ s a, Inv s → (x.run s).1 = .ok a → Inv (x.run s).2
  pure _ _ _ hs _ := hs
  bind {_ _ x y f g} hx hf s b hs hb := by
    rw [run_bind] at hb ⊢
    rcases hrun : x.run s with ⟨fault | a, s'⟩
    · rw [hrun] at hb
      cases hb
    · rw [hrun] at hb
      have hs' := hx s a hs (by rw [hrun])
      rw [hrun] at hs'
      exact hf a s' b hs' hb

/-- Evaluation only adds to what is remembered, and what it comes to and consults on the
way it does again when those who ask are answered from what is remembered in the end. -/
def retraces (Inv : Memo → Prop) (final : Memo) :
    Coupling (ExceptT Fault (StateM Progress)) (ExceptT Fault (StateM (List Nat))) where
  Rel x y := ∀ progress, Inv progress.memo → Inv (x.run progress).2.memo ∧
    progress.memo <:+ (x.run progress).2.memo ∧
    (Inv final → (x.run progress).2.memo <:+ final → ∀ a, (x.run progress).1 = .ok a →
      y.run progress.consulted = (.ok a, (x.run progress).2.consulted))
  pure a progress hinv := ⟨hinv, List.suffix_refl _, fun _ _ _ h => by cases h; rfl⟩
  bind {_ _ x y f g} hx hf progress hinv := by
    obtain ⟨hinv', hsuffix, hvalue⟩ := hx progress hinv
    rw [run_bind]
    rcases hrun : x.run progress with ⟨fault | a, progress'⟩
    · rw [hrun] at hinv' hsuffix
      exact ⟨hinv', hsuffix, fun _ _ => nofun⟩
    · rw [hrun] at hinv' hsuffix hvalue
      obtain ⟨hinv'', hsuffix', hvalue'⟩ := hf a progress' hinv'
      refine ⟨hinv'', hsuffix.trans hsuffix', fun hfinal hend b hb => ?_⟩
      rw [run_bind, hvalue hfinal (hsuffix'.trans hend) a rfl]
      exact hvalue' hfinal hend b hb

end Coupling

/-! ## Recorded memories -/

namespace Memo

/-- No slot is remembered twice, and what is remembered of a slot is derived for it, and
consulted on the way, when those who ask are answered from what was remembered before. -/
inductive Recorded (p : Program) (ctx : Context) : Memo → Prop
  | nil : Recorded p ctx []
  | cons {d : Derivation} {older : Memo} {entry : Slot} : Recorded p ctx older →
      older.entry? d.slot = none → p.slots[d.slot]? = some entry →
      (p.derive ctx (onRecord older.answer) entry).run [] =
        (.ok (d.value, d.resolver), d.consulted) →
      Recorded p ctx (d :: older)

variable {p : Program} {ctx : Context} {memo older : Memo} {slot : Nat} {d : Derivation}

theorem Recorded.of_suffix (h : memo.Recorded p ctx) (hsuffix : older <:+ memo) :
    older.Recorded p ctx := by
  induction h with
  | nil =>
      rw [List.suffix_nil.1 hsuffix]
      exact .nil
  | cons hbefore hnew hentry hderive ih =>
      rcases List.suffix_cons_iff.1 hsuffix with rfl | hsuffix
      · exact .cons hbefore hnew hentry hderive
      · exact ih hsuffix

/-- What is remembered of a slot was remembered after all that it was derived from. -/
theorem exists_suffix_of_entry? (hd : memo.entry? slot = some d) :
    d.slot = slot ∧ ∃ older, d :: older <:+ memo := by
  refine ⟨by simpa using List.find?_some hd, ?_⟩
  obtain ⟨newer, older, rfl⟩ := List.append_of_mem (List.mem_of_find?_eq_some hd)
  exact ⟨older, newer, rfl⟩

end Memo

namespace Schema.Compiled

open Memo

variable {schema : Schema} {registry : Registry} {p : Program} {ctx : Context}
  (h : schema.Compiled registry p)

include h

/-- A derivation consults each slot once, and slots that were remembered before. -/
theorem consulted_of_recorded {d : Derivation} {older : Memo}
    (hrecorded : Memo.Recorded p ctx (d :: older)) :
    d.consulted.Nodup ∧ ∀ next ∈ d.consulted, ∃ e, older.entry? next = some e := by
  cases hrecorded with
  | @cons _ _ entry _ _ hentry hderive =>
      let Inv (log : List Nat) : Prop :=
        log.Nodup ∧ ∀ next ∈ log, ∃ e, older.entry? next = some e
      have hask : ∀ next, (Coupling.keepsOnSuccess Inv).Rel
          (onRecord older.answer next) (onRecord older.answer next) := by
        rintro next log v ⟨hnodup, hlog⟩ hv
        obtain ⟨e, he, -⟩ := answer_eq_ok_iff.1 hv
        refine ⟨nodup_firstUse hnodup next, fun slot hslot => ?_⟩
        rcases mem_firstUse.1 hslot with hslot | rfl
        · exact hlog slot hslot
        · exact ⟨e, he⟩
      have hkept := h.coupled_derive (Coupling.keepsOnSuccess Inv) ctx
        (fun _ _ _ _ _ hthrow => by cases hthrow) hentry (fun next _ => hask next) []
        (d.value, d.resolver) ⟨.nil, List.forall_mem_nil _⟩
      rw [hderive] at hkept
      exact hkept rfl

/-- What is remembered on the record is founded. -/
theorem founded_of_recorded {memo : Memo} (hmemo : memo.Recorded p ctx) : memo.Founded p ctx := by
  induction hmemo with
  | nil => exact .nil
  | @cons d older entry _ hnew hentry hderive ih =>
      have hask : ∀ next, (Coupling.recalls fun _ : List Nat => True).Rel
          (onRecord older.answer next) (older.answer next) := fun _ _ _ => ⟨trivial, fun _ hv => hv⟩
      obtain ⟨-, hvalue⟩ := h.coupled_derive _ ctx (fun _ _ _ _ => ⟨trivial, nofun⟩) hentry
        (fun next _ => hask next) [] trivial
      exact .cons ih hnew hentry (hvalue _ (by rw [hderive]))

omit h in
/-- If to resolve the slots inside of a walk keeps what is remembered as it should be and
adds to it, then what they are asked for is asked for again in the end. -/
theorem retraces_ask {Inv : Memo → Prop} (hfounded : ∀ memo, Inv memo → memo.Founded p ctx)
    {walk : List Nat}
    (hkeeps : ∀ next memo, Inv memo → Inv (p.resolveWith ctx walk next memo).2 ∧
      memo <:+ (p.resolveWith ctx walk next memo).2) (final : Memo) (next : Nat) :
    (Coupling.retraces Inv final).Rel (Progress.ask (p.resolveWith ctx walk) next)
      (onRecord final.answer next) := by
  intro progress hprogress
  obtain ⟨hvalue, hafter⟩ := Progress.run_ask (p.resolveWith ctx walk) next progress
  obtain ⟨hkept, hsuffix⟩ := hkeeps next progress.memo hprogress
  rw [hvalue, hafter, Progress.run_ask_consulted]
  refine ⟨hkept, hsuffix, fun hfinal hend v hv => ?_⟩
  obtain ⟨d, hd, rfl⟩ := Program.entry?_of_resolveWith _ _ _ v hv
  have hlast := (hfounded final hfinal).entry?_of_suffix hend hd
  exact congrArg (·, _) (answer_eq_ok_iff.2 ⟨d, hlast, rfl⟩)

/-- Resolving a slot keeps what is remembered recorded. -/
theorem recorded_resolveWith : ∀ walk slot memo, memo.FoundedOutside p ctx walk →
    memo.Recorded p ctx → (p.resolveWith ctx walk slot memo).2.Recorded p ctx := by
  apply Program.resolveWith_induction (P := fun walk _ memo r => memo.FoundedOutside p ctx walk →
    memo.Recorded p ctx → r.2.Recorded p ctx)
  · intro walk slot memo d _ _ hrecorded
    exact hrecorded
  · intro walk slot memo _ _ hrecorded
    exact hrecorded
  · intro walk slot memo entry _ _ _ hrecorded
    exact hrecorded
  -- The derivation that comes to an end is retraced in what is remembered then.
  · intro walk slot memo entry hnew hentry hwalk ih hmemo hrecorded
    let Inv (memo : Memo) : Prop :=
      memo.FoundedOutside p ctx (slot :: walk) ∧ memo.Recorded p ctx
    have hkeeps : ∀ next memo, Inv memo →
        Inv (p.resolveWith ctx (slot :: walk) next memo).2 ∧
          memo <:+ (p.resolveWith ctx (slot :: walk) next memo).2 := by
      rintro next memo ⟨hmemo, hrecorded⟩
      obtain ⟨hkept, hsuffix⟩ := h.foundedOutside_resolveWith _ next memo hmemo
      exact ⟨⟨hkept, ih next memo hmemo hrecorded⟩, hsuffix⟩
    rcases hrun : (p.derive ctx (Progress.ask (p.resolveWith ctx (slot :: walk))) entry).run
      ⟨memo, []⟩ with ⟨outcome, progress⟩
    obtain ⟨hkept, -, hvalue⟩ := h.coupled_derive _ ctx
      (fun fault _ progress hprogress => ⟨hprogress, List.suffix_refl _, fun _ _ _ => nofun⟩)
      hentry (fun next _ => retraces_ask (fun _ hinv => hinv.1.founded) hkeeps progress.memo next)
      ⟨memo, []⟩ ⟨hmemo.cons hnew, hrecorded⟩
    rw [hrun] at hkept hvalue
    rcases outcome with fault | ⟨v, text⟩
    · exact hkept.2
    · have hapart := hkept.1.apart slot List.mem_cons_self
      rw [Progress.finish_ok]
      exact .cons hkept.2 hapart hentry (hvalue hkept (List.suffix_refl _) (v, text) rfl)

/-- What a session remembers is recorded, whatever was called on it. -/
theorem recorded_of_later {start s : Session} (hopen : p.session ctx = .ok start)
    (hlater : start.Later s) : s.memo.Recorded p ctx := by
  obtain ⟨-, rfl⟩ := Program.session_eq_ok_iff.1 hopen
  let Inv (memo : Memo) : Prop := memo.FoundedOutside p ctx [] ∧ memo.Recorded p ctx
  have hkeeps : ∀ slot memo, Inv memo → Inv (p.resolveWith ctx [] slot memo).2 := by
    rintro slot memo ⟨hmemo, hrecorded⟩
    exact ⟨(h.foundedOutside_resolveWith [] slot memo hmemo).1,
      h.recorded_resolveWith [] slot memo hmemo hrecorded⟩
  have hnil : Inv [] := ⟨⟨.nil, List.forall_mem_nil _⟩, .nil⟩
  exact (hlater.keeps (P := Inv) hkeeps hnil).2.2.2

end Schema.Compiled

/-! ## What is told of it -/

/-- The names of the nodes right below a node. -/
def Explanation.children (node : Explanation) : List String := node.dependencies.map (·.name)

namespace Memo

variable {p : Program} {ctx : Context} {memo : Memo} {slot : Nat} {d : Derivation}

/-- Only slots are remembered. -/
theorem Recorded.exists_slot (h : memo.Recorded p ctx) (hd : memo.entry? slot = some d) :
    ∃ entry, p.slots[slot]? = some entry := by
  obtain ⟨rfl, older, hsuffix⟩ := exists_suffix_of_entry? hd
  cases h.of_suffix hsuffix with
  | cons _ _ hentry _ => exact ⟨_, hentry⟩

/-- Only what is remembered is told. -/
theorem exists_entry?_of_told {tree : Explanation} (h : memo.explanation? p slot = some tree) :
    ∃ d, memo.entry? slot = some d := by
  induction memo with
  | nil => cases h
  | cons newest before ih =>
      rw [explanation?] at h
      rw [entry?_cons]
      by_cases hslot : newest.slot = slot
      · exact ⟨newest, if_pos hslot⟩
      · rw [if_neg hslot] at h ⊢
        exact ih h

/-- All that is remembered is told, under its name and kind and with its value. -/
theorem Recorded.exists_told (h : memo.Recorded p ctx) (hd : memo.entry? slot = some d) :
    ∃ tree, memo.explanation? p slot = some tree ∧ tree.name = p.slotName slot ∧
      (tree.kind = .trait ↔ slot ∈ p.traitSlots) ∧ tree.value = d.value := by
  obtain ⟨entry, hentry⟩ := h.exists_slot hd
  obtain ⟨older, -, htree⟩ := exists_explanation hd hentry
  refine ⟨_, htree, (Program.slotName_eq hentry).symm, ?_, rfl⟩
  rw [Program.mem_traitSlots]
  simp [hentry]

variable {slots : List Nat} (h : memo.Recorded p ctx)
  (hslots : ∀ slot ∈ slots, ∃ d, memo.entry? slot = some d)
  {node : Explanation} (hnode : node.dependencies = slots.filterMap (memo.explanation? p))

include h hslots hnode

/-- None of the slots that a node is told of is dropped. -/
theorem Recorded.children_eq : node.children = slots.map p.slotName := by
  rw [Explanation.children, hnode]
  clear hnode
  induction slots with
  | nil => rfl
  | cons slot rest ih =>
      obtain ⟨⟨d, hd⟩, hrest⟩ := List.forall_mem_cons.1 hslots
      obtain ⟨tree, htree, hname, -⟩ := h.exists_told hd
      rw [List.filterMap_cons_some htree, List.map_cons, List.map_cons, hname, ih hrest]

end Memo

end Rulebook
