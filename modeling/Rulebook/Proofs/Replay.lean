/-
# Explanations can be replayed

Every node of an explanation tells a derivation in full. Answer those who ask from the
nodes right below it, and from nothing else: then its expression, or the result that its
table picks for the traits that are true below it, comes to its value again. What is asked
for on the way stands below the node, in the order of first use; before it, where there is
a table, all traits in execution order; and nothing else. That the replay agrees with plain
evaluation is not claimed, and where traits are lists it need not.
-/

import Rulebook.Proofs.Consultation
import Rulebook.Proofs.Picking
import Rulebook.Proofs.TableCycles

namespace Rulebook

/-! ## Records -/

section Record

variable {α β : Type} [DecidableEq α] [DecidableEq β]

theorem map_firstUse {f : α → β} {log : List α} {x : α} (hf : ∀ y ∈ log, f y = f x → y = x) :
    (firstUse log x).map f = firstUse (log.map f) (f x) := by
  by_cases hx : x ∈ log
  · rw [firstUse_of_mem hx, firstUse_of_mem (List.mem_map_of_mem hx)]
  · have hfx : f x ∉ log.map f := by
      intro hmem
      obtain ⟨y, hy, heq⟩ := List.mem_map.1 hmem
      exact hx (hf y hy heq ▸ hy)
    rw [firstUse_of_not_mem hx, firstUse_of_not_mem hfx, List.map_append]
    rfl

/-- What was taken down first is not taken down again. -/
theorem firstUse_append (first log : List α) (x : α) :
    firstUse (first ++ log.filter (· ∉ first)) x =
      first ++ (firstUse log x).filter (· ∉ first) := by
  by_cases hx : x ∈ log
  · rw [firstUse_of_mem hx, firstUse_of_mem]
    by_cases hfirst : x ∈ first <;> simp [hx, hfirst]
  · rw [firstUse_of_not_mem hx]
    by_cases hfirst : x ∈ first
    · rw [firstUse_of_mem (List.mem_append_left _ hfirst)]
      simp [hfirst]
    · rw [firstUse_of_not_mem (by simp [hx, hfirst])]
      simp [hfirst]

end Record

namespace Coupling

variable {σ : Type}

/-- What comes to a value in two parts does so in each of them. -/
theorem exists_of_run_bind {α β : Type} {x : ExceptT Fault (StateM σ) α}
    {f : α → ExceptT Fault (StateM σ) β} {s t : σ} {b : β} (h : (x >>= f).run s = (.ok b, t)) :
    ∃ a s', x.run s = (.ok a, s') ∧ (f a).run s' = (.ok b, t) := by
  rw [run_bind] at h
  rcases hrun : x.run s with ⟨fault | a, s'⟩
  · rw [hrun] at h
    cases h
  · rw [hrun] at h
    exact ⟨a, s', rfl, h⟩

variable {α β : Type} [DecidableEq α] [DecidableEq β]

/-- What comes to a value on the record does so on the record of other items, as long as
nothing is taken down that is not known by another item. -/
def renames (rename : α → β) (known : List α) :
    Coupling (ExceptT Fault (StateM (List α))) (ExceptT Fault (StateM (List β))) where
  Rel x y := ∀ log a, (x.run log).1 = .ok a → log ⊆ (x.run log).2 ∧
    ((x.run log).2 ⊆ known → y.run (log.map rename) = (.ok a, (x.run log).2.map rename))
  pure a log b h := by
    cases h
    exact ⟨List.Subset.refl _, fun _ => rfl⟩
  bind {_ _ x y f g} hx hf log b h := by
    rcases hrun : (x >>= f).run log with ⟨outcome, log''⟩
    obtain rfl : outcome = .ok b := by rwa [hrun] at h
    obtain ⟨a, log', hfirst, hrest⟩ := exists_of_run_bind hrun
    obtain ⟨hsubset, hrename⟩ := hx log a (by rw [hfirst])
    obtain ⟨hsubset', hrename'⟩ := hf a log' b (by rw [hrest])
    rw [hfirst] at hsubset hrename
    rw [hrest] at hsubset' hrename'
    refine ⟨List.Subset.trans hsubset hsubset', fun hknown => ?_⟩
    rw [run_bind, hrename (List.Subset.trans hsubset' hknown)]
    exact hrename' hknown

theorem renames_ask {rename : α → β} {known : List α}
    (hrename : ∀ x ∈ known, ∀ y ∈ known, rename x = rename y → x = y)
    {answer : α → Except Fault Value} {answer' : β → Except Fault Value} {x : α}
    (hanswer : ∀ v, answer x = .ok v → x ∈ known → answer' (rename x) = .ok v) :
    (renames rename known).Rel (onRecord answer x) (onRecord answer' (rename x)) := by
  intro log v hv
  refine ⟨fun y hy => mem_firstUse.2 (.inl hy), fun hknown => ?_⟩
  have hx : x ∈ known := hknown (mem_firstUse.2 (.inr rfl))
  have hlog : (firstUse log x).map rename = firstUse (log.map rename) (rename x) :=
    map_firstUse fun y hy heq => hrename y (hknown (mem_firstUse.2 (.inl hy))) x hx heq
  show (answer' (rename x), firstUse (log.map rename) (rename x)) = _
  rw [hanswer v hv hx, ← hlog]
  rfl

/-- What is taken down after some items is what is taken down without them, but for the
items themselves. -/
def appends (first : List α) :
    Coupling (ExceptT Fault (StateM (List α))) (ExceptT Fault (StateM (List α))) where
  Rel x y := ∀ log, x.run (first ++ log.filter (· ∉ first)) =
    ((y.run log).1, first ++ (y.run log).2.filter (· ∉ first))
  pure _ _ := rfl
  bind {_ _ x y f g} hx hf log := by
    rw [run_bind, run_bind, hx log]
    rcases y.run log with ⟨fault | a, log'⟩
    · rfl
    · exact hf a log'

theorem appends_throw {first : List α} {γ : Type} (fault : Fault) :
    (appends first).Rel (throw fault : ExceptT Fault (StateM (List α)) γ) (throw fault) :=
  fun _ => rfl

theorem appends_ask {first : List α} (answer : α → Except Fault Value) (x : α) :
    (appends first).Rel (onRecord answer x) (onRecord answer x) := by
  intro log
  show (answer x, firstUse _ x) = _
  rw [firstUse_append]
  rfl

/-- To ask for one item after the other takes them down in their order. -/
theorem foldlM_onRecord {γ : Type} {answer : α → Except Fault Value} {f : γ → α → Value → γ}
    {items log log' : List α} {start last : γ} (hnodup : (log ++ items).Nodup)
    (h : (items.foldlM (fun b x => do return f b x (← onRecord answer x)) start).run log =
      (.ok last, log')) : log' = log ++ items := by
  induction items generalizing log start with
  | nil =>
      cases h
      rw [List.append_nil]
  | cons x rest ih =>
      have hx : x ∉ log := fun hmem => (List.nodup_append.1 hnodup).2.2 x hmem x (by simp) rfl
      rw [List.foldlM_cons] at h
      obtain ⟨next, log₁, hstep, hrest⟩ := exists_of_run_bind h
      obtain ⟨v, log₂, hask, hreturn⟩ := exists_of_run_bind hstep
      cases hreturn
      obtain rfl : firstUse log x = log₁ := congrArg Prod.snd hask
      rw [firstUse_of_not_mem hx] at hrest
      rw [ih (by simpa using hnodup) hrest, List.append_assoc]
      rfl

end Coupling

/-! ## Derivations on the record -/

namespace Program

variable {p : Program} {ctx : Context} {answer : Nat → Except Fault Value}

/-- The traits are asked for on the record as they are off it, each once and in execution
order. -/
theorem satisfied_of_onRecord {satisfied : NameSet} {log : List Nat}
    (h : (p.satisfied (onRecord answer)).run [] = (.ok satisfied, log)) :
    p.satisfied answer = .ok satisfied ∧ log = p.traitSlots := by
  constructor
  · have hask : ∀ slot, (Coupling.recalls fun _ : List Nat => True).Rel
        (onRecord answer slot) (answer slot) := fun _ _ _ => ⟨trivial, fun _ hv => hv⟩
    have hplain := Coupling.satisfied _ (p := p) (fun slot _ => hask slot) [] trivial
    exact hplain.2 satisfied (by rw [h])
  · have hnodup : ([] ++ p.traitSlots).Nodup := List.nodup_range.filter _
    let collect (names : NameSet) (slot : Nat) (v : Value) : NameSet :=
      if v.isTruthy then names.add (p.slotName slot) else names
    exact Coupling.foldlM_onRecord (f := collect) hnodup h

variable {entry : Slot} {v : Value} {text : String} {log : List Nat}
  (hderive : (p.derive ctx (onRecord answer) entry).run [] = (.ok (v, text), log))

include hderive

/-- Without a table it is the code that gives the value. -/
theorem eval_of_derive (htable : entry.table = none) :
    (entry.code.eval ctx (onRecord answer)).run [] = (.ok v, log) := by
  simp only [derive, htable] at hderive
  obtain ⟨w, log', heval, hreturn⟩ := Coupling.exists_of_run_bind hderive
  obtain ⟨hpair, rfl⟩ := Prod.mk.inj hreturn
  obtain ⟨rfl, -⟩ := Prod.mk.inj (Except.ok.inj hpair)
  exact heval

/-- With a table the traits are asked for, and then the picked row gives the value. -/
theorem exists_row_of_derive {table : DecisionTable Branch} (htable : entry.table = some table) :
    ∃ satisfied row, p.satisfied answer = .ok satisfied ∧ table.pickRow satisfied = .ok row ∧
      row.resolver.description = text ∧
      (row.resolver.code.eval ctx (onRecord answer)).run p.traitSlots = (.ok v, log) := by
  simp only [derive, htable] at hderive
  obtain ⟨satisfied, log', hsatisfied, hderive⟩ := Coupling.exists_of_run_bind hderive
  obtain ⟨hplain, rfl⟩ := satisfied_of_onRecord hsatisfied
  obtain ⟨row, log', hpick, hderive⟩ := Coupling.exists_of_run_bind hderive
  obtain ⟨w, log'', heval, hreturn⟩ := Coupling.exists_of_run_bind hderive
  obtain ⟨hpair, rfl⟩ := Prod.mk.inj hreturn
  obtain ⟨rfl, htext⟩ := Prod.mk.inj (Except.ok.inj hpair)
  cases hrow : table.pickRow satisfied with
  | error fault =>
      rw [hrow] at hpick
      cases hpick
  | ok row' =>
      rw [hrow] at hpick
      cases hpick
      exact ⟨satisfied, row, hplain, hrow, htext, heval⟩

end Program

/-! ## Picking by the members of a set -/

/-- Which row is picked depends on what is in the set of traits only. -/
theorem DecisionTable.pick_congr {R : Type} (t : DecisionTable R) {satisfied satisfied' : NameSet}
    (h : ∀ name, name ∈ satisfied ↔ name ∈ satisfied') :
    t.picked satisfied = t.picked satisfied' ∧
      ∀ row, t.pickRow satisfied = .ok row ↔ t.pickRow satisfied' = .ok row := by
  have hpicked : t.picked satisfied = t.picked satisfied' := picked_congr fun name _ => h name
  refine ⟨hpicked, fun row => ?_⟩
  rw [pickRow_eq_ok_iff, pickRow_eq_ok_iff, hpicked]

/-! ## Replaying a node -/

namespace Explanation

variable (node : Explanation)

/-- The nodes right below a node as answers to those who ask; no other name is answered. -/
def answer (name : String) : Except Fault Value :=
  match node.dependencies.find? (·.name = name) with
  | some child => .ok child.value
  | none => .error (.unresolvedBinding name)

/-- The traits right below a node whose values are true. -/
def trueTraits : NameSet :=
  .ofNames ((node.dependencies.filter fun child =>
    child.kind = .trait ∧ child.value.isTruthy = true).map (·.name))

/-- What an expression comes to when the nodes right below a node answer, and the names
that are asked for on the way, each once, in the order of first use. -/
def replay (registry : Registry) (ctx : Context) (e : Expr) : Except Fault Value × List String :=
  (e.meaning registry ctx (onRecord node.answer)).run []

end Explanation

/-! ## What stands below a node -/

namespace Memo

variable {p : Program} {ctx : Context} {memo : Memo} {slot : Nat} {slots : List Nat}
  (h : memo.Recorded p ctx) (hslots : ∀ slot ∈ slots, ∃ d, memo.entry? slot = some d)

include h hslots

/-- Where no two slots have the same name, the first node of the name of a slot tells of
that slot. -/
theorem Recorded.exists_child
    (hnames : ∀ i ∈ slots, ∀ j ∈ slots, p.slotName i = p.slotName j → i = j)
    (hslot : slot ∈ slots) {d : Derivation} (hd : memo.entry? slot = some d) :
    ∃ child, (slots.filterMap (memo.explanation? p)).find? (·.name = p.slotName slot) =
      some child ∧ child.value = d.value := by
  induction slots with
  | nil => cases hslot
  | cons first rest ih =>
      obtain ⟨⟨d', hd'⟩, hrest⟩ := List.forall_mem_cons.1 hslots
      obtain ⟨tree, htree, hname, -, hvalue⟩ := h.exists_told hd'
      rw [List.filterMap_cons_some htree]
      by_cases heq : first = slot
      · subst heq
        cases hd.symm.trans hd'
        exact ⟨tree, List.find?_cons_of_pos (by simp [hname]), hvalue⟩
      · have hne : p.slotName first ≠ p.slotName slot := fun hnameEq =>
          heq (hnames first List.mem_cons_self slot hslot hnameEq)
        rw [List.find?_cons_of_neg (by simpa [hname] using hne)]
        have hmem : slot ∈ rest := (List.mem_cons.1 hslot).resolve_left (Ne.symm heq)
        exact ih hrest (fun i hi j hj => hnames i (List.mem_cons_of_mem _ hi) j
          (List.mem_cons_of_mem _ hj)) hmem

variable {node : Explanation} (hnode : node.dependencies = slots.filterMap (memo.explanation? p))

include hnode

/-- The nodes below a node answer for a slot with what was remembered of it. -/
theorem Recorded.answer_eq (hnames : ∀ i ∈ slots, ∀ j ∈ slots, p.slotName i = p.slotName j → i = j)
    (hslot : slot ∈ slots) : node.answer (p.slotName slot) = memo.answer slot := by
  obtain ⟨d, hd⟩ := hslots slot hslot
  obtain ⟨child, hchild, hvalue⟩ := h.exists_child hslots hnames hslot hd
  have hanswer : memo.answer slot = .ok d.value := answer_eq_ok_iff.2 ⟨d, hd, rfl⟩
  rw [Explanation.answer, hnode, hchild, hanswer]
  exact congrArg Except.ok hvalue

/-- The true traits below a node are those of its slots that hold one and were remembered
as true. -/
theorem Recorded.mem_trueTraits {name : String} :
    name ∈ node.trueTraits ↔ ∃ slot ∈ slots, slot ∈ p.traitSlots ∧ p.slotName slot = name ∧
      ∃ v, memo.answer slot = .ok v ∧ v.isTruthy = true := by
  rw [Explanation.trueTraits, NameSet.mem_ofNames, hnode, List.mem_map]
  constructor
  · rintro ⟨child, hchild, rfl⟩
    simp only [List.mem_filter, List.mem_filterMap, decide_eq_true_eq] at hchild
    obtain ⟨⟨slot, hslot, htold⟩, hkind, htrue⟩ := hchild
    obtain ⟨d, hd⟩ := hslots slot hslot
    obtain ⟨tree, htree, hname, htrait, hvalue⟩ := h.exists_told hd
    cases htold.symm.trans htree
    exact ⟨slot, hslot, htrait.1 hkind, hname.symm, d.value, answer_eq_ok_iff.2 ⟨d, hd, rfl⟩,
      hvalue ▸ htrue⟩
  · rintro ⟨slot, hslot, htraitSlot, rfl, v, hv, htrue⟩
    obtain ⟨d, hd, rfl⟩ := answer_eq_ok_iff.1 hv
    obtain ⟨tree, htree, hname, htrait, hvalue⟩ := h.exists_told hd
    refine ⟨tree, ?_, hname⟩
    simp only [List.mem_filter, List.mem_filterMap, decide_eq_true_eq]
    exact ⟨⟨slot, hslot, htree⟩, htrait.2 htraitSlot, hvalue ▸ htrue⟩

end Memo

/-! ## Accepted programs -/

namespace Schema.Accepted

variable {schema : Schema} {registry : Registry} {p : Program} {ctx : Context}
  (h : schema.Accepted registry p)

include h

/-- No two slots that are remembered have the same name. -/
theorem slotName_inj_of_remembered {memo : Memo} (hmemo : memo.Recorded p ctx) {slots : List Nat}
    (hslots : ∀ slot ∈ slots, ∃ d, memo.entry? slot = some d) :
    ∀ i ∈ slots, ∀ j ∈ slots, p.slotName i = p.slotName j → i = j := by
  intro i hi j hj
  obtain ⟨d, hd⟩ := hslots i hi
  obtain ⟨d', hd'⟩ := hslots j hj
  obtain ⟨entry, hentry⟩ := hmemo.exists_slot hd
  obtain ⟨entry', hentry'⟩ := hmemo.exists_slot hd'
  exact Program.slotName_inj h.executionOrder_nodup (List.getElem?_eq_some_iff.1 hentry).1
    (List.getElem?_eq_some_iff.1 hentry').1

/-- All traits in execution order are the names of the slots that hold one. -/
theorem filter_isTrait_executionOrder :
    p.executionOrder.filter schema.isTrait = p.traitSlots.map p.slotName := by
  have horder : p.executionOrder = (List.range p.size).map p.slotName := by
    apply List.ext_getElem
    · simp [Program.executionOrder, Program.size]
    · intro i hi _
      have hslot : i < p.slots.length := by simpa [Program.executionOrder] using hi
      have hname := Program.slotName_eq (List.getElem?_eq_getElem hslot)
      simp [Program.executionOrder, hname]
  rw [horder, List.filter_map]
  congr 1
  apply List.filter_congr
  intro slot hslot
  have hentry := List.getElem?_eq_getElem (List.mem_range.1 hslot)
  rw [Function.comp_apply, Bool.eq_iff_iff, h.compiled.isTrait_slotName hentry,
    Program.mem_traitSlots, hentry]
  simp

/-- What code asks for after some slots were asked for is what it asks for by itself. -/
theorem exists_asked {answer : Nat → Except Fault Value} {first log : List Nat} {e : Expr}
    {v : Value} (hrun : ((Code.ofExpr registry p.analysis.order e).eval ctx
      (onRecord answer)).run first = (.ok v, log)) :
    ∃ asked, ((Code.ofExpr registry p.analysis.order e).eval ctx (onRecord answer)).run [] =
      (.ok v, asked) ∧ log = first ++ asked.filter (· ∉ first) := by
  have hafter := h.compiled.coupled_ofExpr (Coupling.appends first) ctx (e := e)
    (fun fault _ => Coupling.appends_throw fault)
    (fun _ next _ _ => Coupling.appends_ask answer next) []
  rw [List.filter_nil, List.append_nil, hrun] at hafter
  obtain ⟨hvalue, hlog⟩ := Prod.mk.inj hafter
  exact ⟨_, Prod.ext hvalue.symm rfl, hlog⟩

/-- Code that comes to a value from what is remembered has its expression come to it from
the nodes that tell of what it asks for. -/
theorem replay_of_eval {memo : Memo} (hmemo : memo.Recorded p ctx) {slots : List Nat}
    (hslots : ∀ slot ∈ slots, ∃ d, memo.entry? slot = some d) {node : Explanation}
    (hnode : node.dependencies = slots.filterMap (memo.explanation? p)) {e : Expr}
    (hnames : ∀ target, .binding target ∈ e.nodes → target ∈ schema.names)
    {v : Value} {asked : List Nat} (hasked : asked ⊆ slots)
    (hrun : ((Code.ofExpr registry p.analysis.order e).eval ctx (onRecord memo.answer)).run [] =
      (.ok v, asked)) :
    node.replay registry ctx e = (.ok v, asked.map p.slotName) := by
  have hinj := h.slotName_inj_of_remembered hmemo hslots
  have hask : ∀ target, .binding target ∈ e.nodes →
      (Coupling.renames p.slotName slots).Rel
        (Code.bySlot p.analysis.order (onRecord memo.answer) target)
        (onRecord node.answer target) := by
    intro target htarget
    obtain ⟨slot, hslot⟩ := h.exists_slotOf? (hnames target htarget)
    obtain rfl := Program.slotName_of_slotOf? hslot
    rw [Program.slotOf?, h.executionOrder_eq] at hslot
    rw [Code.bySlot_of_some hslot]
    apply Coupling.renames_ask hinj
    intro v hv hmem
    rw [hmemo.answer_eq hslots hnode hinj hmem, hv]
  rw [Code.eval_ofExpr] at hrun
  obtain ⟨-, hrename⟩ := (Coupling.renames p.slotName slots).meaning_of_ask
    (fun fault _ log a ha => by cases ha) hask [] v (by rw [hrun])
  rw [hrun] at hrename
  exact hrename hasked

/-- The slots that are consulted where there is a table are those of the traits, and after
them those of no trait that are asked for. -/
theorem map_slotName_consulted {consulted asked : List Nat}
    (hslots : ∀ slot ∈ consulted, ∃ entry, p.slots[slot]? = some entry)
    (hconsulted : consulted = p.traitSlots ++ asked.filter (· ∉ p.traitSlots)) :
    asked ⊆ consulted ∧ consulted.map p.slotName = p.executionOrder.filter schema.isTrait ++
      (asked.map p.slotName).filter fun name => !schema.isTrait name := by
  have hasked : asked ⊆ consulted := by
    intro slot hslot
    rw [hconsulted]
    by_cases htrait : slot ∈ p.traitSlots <;> simp [htrait, hslot]
  have hfilter : asked.filter (· ∉ p.traitSlots) =
      asked.filter ((fun name => !schema.isTrait name) ∘ p.slotName) := by
    apply List.filter_congr
    intro slot hslot
    obtain ⟨entry, hentry⟩ := hslots slot (hasked hslot)
    rw [Function.comp_apply, Bool.eq_iff_iff, decide_eq_true_iff, Bool.not_eq_true',
      ← h.compiled.isTrait_slotName hentry, Bool.not_eq_true]
  refine ⟨hasked, ?_⟩
  rw [hconsulted, List.map_append, h.filter_isTrait_executionOrder, List.filter_map, hfilter]

variable {d : Derivation} {older : Memo} (hrecorded : Memo.Recorded p ctx (d :: older))
  {entry : Slot} (hentry : p.slots[d.slot]? = some entry) {node : Explanation}
  (hnode : node = ⟨entry.name, entry.kind, d.value, d.resolver,
    d.consulted.filterMap (older.explanation? p)⟩)

include hrecorded hentry hnode

/-- A node without a table is replayed by its expression. -/
theorem replay_of_recorded (htable : entry.table = none) {e : Expr}
    (he : schema.Declares entry.name e) :
    node.replay registry ctx e = (.ok node.value, node.children) := by
  obtain ⟨-, hslots⟩ := h.compiled.consulted_of_recorded hrecorded
  cases hrecorded with
  | cons holder _ hentry' hderive =>
      cases hentry'.symm.trans hentry
      have heval := Program.eval_of_derive hderive htable
      obtain ⟨d', hd', e', hexpression, -, rfl⟩ := h.exists_slotFor hentry
      obtain rfl := h.expression_unique he ⟨d', hd', rfl, hexpression⟩
      have hdependencies := congrArg Explanation.dependencies hnode
      rw [holder.children_eq hslots hdependencies, hnode]
      exact h.replay_of_eval holder hslots rfl (fun target htarget =>
        h.declared _ target ⟨_, he, htarget⟩) (List.Subset.refl _) heval

/-- A node with a table is replayed by the result of the row that is picked for the traits
that are true below it. -/
theorem replay_of_recorded_of_table {table : DecisionTable Branch}
    (htable : entry.table = some table) {cases : List Case} {otherwise : Option Expr}
    (he : schema.Declares entry.name (.cascade cases otherwise))
    (hrows : schema.TableOf registry p.analysis.order cases otherwise table) :
    ∃ row asked, table.pickRow node.trueTraits = .ok row ∧
      row.resolver.description = node.resolver ∧
      node.replay registry ctx (resultAt cases otherwise (table.picked node.trueTraits)) =
        (.ok node.value, asked) ∧
      node.children = p.executionOrder.filter schema.isTrait ++
        asked.filter fun name => !schema.isTrait name := by
  obtain ⟨-, hslots⟩ := h.compiled.consulted_of_recorded hrecorded
  cases hrecorded with
  | cons holder _ hentry' hderive =>
      cases hentry'.symm.trans hentry
      obtain ⟨satisfied, row, hsatisfied, hpick, htext, heval⟩ :=
        Program.exists_row_of_derive hderive htable
      rw [hrows.code_of_pickRow hpick] at heval
      obtain ⟨asked, heval, hconsulted⟩ := h.exists_asked heval
      have hdependencies := congrArg Explanation.dependencies hnode
      -- All traits were consulted, so the true ones among the nodes are all that are true.
      have htrue : ∀ name, name ∈ satisfied ↔ name ∈ node.trueTraits := by
        intro name
        rw [(Program.of_satisfied hsatisfied).2 name, holder.mem_trueTraits hslots hdependencies]
        constructor
        · rintro ⟨slot, hslot, hname, hvalue⟩
          have hmem : slot ∈ d.consulted := hconsulted ▸ List.mem_append_left _ hslot
          exact ⟨slot, hmem, hslot, hname, hvalue⟩
        · rintro ⟨slot, -, hslot, hname, hvalue⟩
          exact ⟨slot, hslot, hname, hvalue⟩
      obtain ⟨hpicked, hpickRow⟩ := table.pick_congr htrue
      have hentries : ∀ slot ∈ d.consulted, ∃ entry, p.slots[slot]? = some entry :=
        fun slot hslot => (hslots slot hslot).elim fun _ hd => holder.exists_slot hd
      obtain ⟨hasked, hnames⟩ := h.map_slotName_consulted hentries hconsulted
      have hdeclared : ∀ target,
          .binding target ∈ (resultAt cases otherwise (table.picked satisfied)).nodes →
          target ∈ schema.names := fun target htarget => h.declared _ target
        ⟨_, he, (mem_nodes_of_mem_nodes_resultAt htarget).resolve_right nofun⟩
      have hreplay := h.replay_of_eval holder hslots hdependencies hdeclared hasked heval
      refine ⟨row, asked.map p.slotName, (hpickRow row).1 hpick, ?_, ?_, ?_⟩
      · rw [hnode, htext]
      · rw [← hpicked, hreplay, hnode]
      · rw [holder.children_eq hslots hdependencies, hnames]

end Schema.Accepted

/-- Explanations can be replayed. Whatever was called on a session before, at every node of
a tree that it tells: without a table, the declared expression comes to the value of the
node when the nodes below it answer for their names and no other name is answered, and
these nodes are what is asked for, in the order of first use. With a table, the traits of
the schema stand below the node in execution order; the row that is picked for those that
are true has the text of the node; its result comes to the value of the node when the nodes
below it answer; and what follows the traits is what that asks for and is no trait, in the
order of first use. -/
theorem Schema.replay_of_explain {schema : Schema} {registry : Registry} {p : Program}
    {ctx : Context} (hp : schema.compile registry = .ok p) {start s : Session}
    (hopen : p.session ctx = .ok start) (hlater : start.Later s) {name : String}
    {tree node : Explanation} (htree : (s.explain name).1 = .ok tree) (hnode : tree.Has node) :
    ∃ entry e, p.find? node.name = some entry ∧ schema.Declares node.name e ∧
      (entry.table = none →
        node.replay registry ctx e = (.ok node.value, node.children)) ∧
      ∀ table, entry.table = some table → ∃ cases otherwise row asked,
        e = .cascade cases otherwise ∧
        schema.TableOf registry p.analysis.order cases otherwise table ∧
        table.pickRow node.trueTraits = .ok row ∧
        row.resolver.description = node.resolver ∧
        row.resolver.code = .ofExpr registry p.analysis.order
          (resultAt cases otherwise (table.picked node.trueTraits)) ∧
        node.replay registry ctx (resultAt cases otherwise (table.picked node.trueTraits)) =
          (.ok node.value, asked) ∧
        node.children = p.executionOrder.filter schema.isTrait ++
          asked.filter fun name => !schema.isTrait name := by
  have h := accepted_of_compile hp
  obtain ⟨slot, -, htold⟩ := Session.explanation?_of_explain htree
  have hafter := hlater.tail (.resolve name)
  obtain ⟨hprogram, -, -⟩ := h.compiled.founded_of_later hopen hafter
  have hrecorded := h.compiled.recorded_of_later hopen hafter
  rw [hprogram] at htold
  obtain ⟨d, older, entry, hsuffix, hentry, hnode⟩ := Memo.exists_derivation_of_has htold hnode
  have hd := hrecorded.of_suffix hsuffix
  have hname : node.name = entry.name := congrArg Explanation.name hnode
  have hfind : p.find? node.name = some entry := by
    rw [hname, Program.find?_name h.executionOrder_nodup hentry]
  obtain ⟨declaration, hdeclaration, e, hexpression, -, hslotFor⟩ := h.exists_slotFor hentry
  have he : schema.Declares entry.name e :=
    ⟨declaration, hdeclaration, by rw [hslotFor]; rfl, hexpression⟩
  refine ⟨entry, e, hfind, hname ▸ he, fun htable => ?_, fun table htable => ?_⟩
  · exact h.replay_of_recorded hd hentry hnode htable he
  · obtain ⟨cases, otherwise, he', hrows⟩ := h.tableOf_of_find? (hname ▸ hfind) htable
    obtain rfl := h.expression_unique he he'
    obtain ⟨row, asked, hpick, htext, hreplay, hchildren⟩ :=
      h.replay_of_recorded_of_table hd hentry hnode htable he hrows
    exact ⟨cases, otherwise, row, asked, rfl, hrows, hpick, htext, hrows.code_of_pickRow hpick,
      hreplay, hchildren⟩

namespace Example

/-- A context in which no trait of the small rulebook is true. -/
def silverOverseas : Context :=
  .ofMap (.ofList [("tier", .string "silver"), ("region", .string "us")])

/-- Without gold the offer comes from the fallback, which stands below it after both
traits; the fallback asks for nothing. -/
theorem replay_of_explain_offers :
    ∃ p start tree fallback, offers.compile .builtins = .ok p ∧
      p.session silverOverseas = .ok start ∧ (start.explain "offer").1 = .ok tree ∧
      tree.children = ["eu", "gold", "fallback"] ∧ tree.Has fallback ∧
      (∃ result asked, tree.replay .builtins silverOverseas result = (.ok tree.value, asked) ∧
        ["eu", "gold", "fallback"] = p.executionOrder.filter offers.isTrait ++
          asked.filter fun name => !offers.isTrait name) ∧
      ∃ e, offers.Declares "fallback" e ∧
        fallback.replay .builtins silverOverseas e = (.ok (.string "none in us"), []) := by
  have hruns : ((offers.compile .builtins).toOption.bind fun p =>
      (p.session silverOverseas).toOption.bind fun start =>
        (start.explain "offer").1.toOption.bind fun tree =>
          tree.dependencies[2]?.bind fun fallback => fallback.value.asString.map fun text =>
            ((tree.name, tree.children), fallback.name, fallback.children, text)) =
      some (("offer", ["eu", "gold", "fallback"]), "fallback", [], "none in us") := by
    decide +kernel
  obtain ⟨p, hp, hruns⟩ := Option.bind_eq_some_iff.1 hruns
  obtain ⟨start, hopen, hruns⟩ := Option.bind_eq_some_iff.1 hruns
  obtain ⟨tree, htree, hruns⟩ := Option.bind_eq_some_iff.1 hruns
  obtain ⟨fallback, hmem, hruns⟩ := Option.bind_eq_some_iff.1 hruns
  obtain ⟨text, htext, hnames⟩ := Option.map_eq_some_iff.1 hruns
  simp only [Prod.mk.injEq] at hnames
  obtain ⟨⟨hname, hchildren⟩, hfallback, hnone, rfl⟩ := hnames
  rw [toOption_eq_some_iff] at hp hopen htree
  have h := Schema.accepted_of_compile hp
  have hhas : tree.Has fallback := .within (List.mem_of_getElem? hmem) (.root fallback)
  obtain ⟨entry, e, hfind, -, -, hrow⟩ :=
    Schema.replay_of_explain hp hopen .refl htree (.root tree)
  rw [hname, h.find?_eq_slotFor List.mem_cons_self rfl] at hfind
  obtain rfl := Option.some.inj hfind
  obtain ⟨_, _, row, asked, -, -, -, -, -, hreplay, hbelow⟩ := hrow _ rfl
  obtain ⟨entry', e', hfind', he', hcode, -⟩ :=
    Schema.replay_of_explain hp hopen .refl htree hhas
  rw [hfallback, h.find?_eq_slotFor (List.mem_cons_of_mem _ List.mem_cons_self) rfl] at hfind'
  obtain rfl := Option.some.inj hfind'
  have hreplay' := hcode rfl
  rw [Value.asString_eq_some_iff.1 htext, hnone] at hreplay'
  exact ⟨p, start, tree, fallback, hp, hopen, htree, hchildren, hhas,
    ⟨_, asked, hreplay, hchildren ▸ hbelow⟩, e', hfallback ▸ he', hreplay'⟩

end Example

end Rulebook
