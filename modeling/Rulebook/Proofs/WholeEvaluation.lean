/-
# Whole evaluation

Evaluation of all names, or of all names of a kind, is evaluation of one name
after the other. Here this is said from both ends: what a whole evaluation gives
under a name is the value of the name, and what it stops with is the fault of one.
-/

import Rulebook.Proofs.PlainEvaluation
import Rulebook.Proofs.Traversal

namespace Rulebook

namespace Program

variable {p : Program} {ctx : Context} {select : Kind → Bool}

theorem mem_selected {entry : Slot} {slot : Nat} :
    (entry, slot) ∈ p.slots.zipIdx.filter (fun (entry, _) => select entry.kind) ↔
      p.slots[slot]? = some entry ∧ select entry.kind = true := by
  rw [List.mem_filter, List.mem_zipIdx_iff_getElem?]

/-- A pair of a slot and its value. -/
theorem evaluateWhere_step {entry : Slot} {slot : Nat} {result : Slot × Value} :
    (do return (entry, ← p.resolve ctx [] slot) : Except Fault (Slot × Value)) = .ok result ↔
      ∃ value, p.resolve ctx [] slot = .ok value ∧ result = (entry, value) := by
  cases p.resolve ctx [] slot with
  | error fault => simp [bind, Except.bind]
  | ok value => simp [bind, Except.bind, pure, Except.pure, eq_comm]

/-- A whole evaluation stops with the fault of one of its slots. -/
theorem exists_error_of_evaluateWhere {fault : Fault}
    (h : p.evaluateWhere ctx select = .error fault) :
    ∃ slot entry, p.slots[slot]? = some entry ∧ select entry.kind = true ∧
      p.resolve ctx [] slot = .error fault := by
  obtain ⟨⟨entry, slot⟩, hmem, hstep⟩ := exists_error_of_mapM h
  obtain ⟨hentry, hkind⟩ := mem_selected.1 hmem
  refine ⟨slot, entry, hentry, hkind, ?_⟩
  cases hresolve : p.resolve ctx [] slot with
  | error fault' =>
      simp only [hresolve, bind, Except.bind] at hstep
      cases hstep
      rfl
  | ok value => simp [hresolve, bind, Except.bind, pure, Except.pure] at hstep

/-- A whole evaluation that succeeds gives each of its slots its value, and nothing
else. -/
theorem mem_evaluateWhere {values : List (Slot × Value)}
    (h : p.evaluateWhere ctx select = .ok values) {slot : Nat} {entry : Slot}
    (hentry : p.slots[slot]? = some entry) (hkind : select entry.kind = true) :
    ∃ value, p.resolve ctx [] slot = .ok value ∧ (entry, value) ∈ values := by
  obtain ⟨result, hresult, hstep⟩ :=
    exists_mem_of_mapM_eq_ok h (mem_selected.2 ⟨hentry, hkind⟩)
  obtain ⟨value, hvalue, rfl⟩ := evaluateWhere_step.1 hstep
  exact ⟨value, hvalue, hresult⟩

theorem exists_slot_of_mem_evaluateWhere {values : List (Slot × Value)}
    (h : p.evaluateWhere ctx select = .ok values) {entry : Slot} {value : Value}
    (hmem : (entry, value) ∈ values) :
    ∃ slot, p.slots[slot]? = some entry ∧ select entry.kind = true ∧
      p.resolve ctx [] slot = .ok value := by
  obtain ⟨⟨entry', slot⟩, hselected, hstep⟩ := exists_of_mem_mapM h hmem
  obtain ⟨value', hvalue, heq⟩ := evaluateWhere_step.1 hstep
  cases heq
  obtain ⟨hentry, hkind⟩ := mem_selected.1 hselected
  exact ⟨slot, hentry, hkind, hvalue⟩

theorem evaluateKind_of_isMapping (hctx : ctx.isMapping = true) (kind : Kind) :
    p.evaluateKind ctx kind = (p.evaluateWhere ctx (· = kind)).map fun values =>
      NameMap.ofList (values.map fun (entry, value) => (entry.name, value)) := by
  rw [evaluateKind, Context.check_eq_ok_iff.2 hctx]
  cases p.evaluateWhere ctx (· = kind) <;> rfl

theorem evaluate_of_isMapping (hctx : ctx.isMapping = true) :
    p.evaluate ctx = (p.evaluateWhere ctx fun _ => true).map fun values =>
      values.foldl (fun e (entry, value) => e.insert entry.kind entry.name value) ∅ := by
  rw [evaluate, Context.check_eq_ok_iff.2 hctx]
  cases p.evaluateWhere ctx fun _ => true <;> rfl

/-- The names of a kind have their values over a mapping, if no slot is at fault. -/
theorem exists_of_evaluateKind {kind : Kind} {values : NameMap Value}
    (h : p.evaluateKind ctx kind = .ok values) :
    ctx.isMapping = true ∧ ∃ results, p.evaluateWhere ctx (· = kind) = .ok results ∧
      values = NameMap.ofList (results.map fun (entry, value) => (entry.name, value)) := by
  by_cases hctx : ctx.isMapping = true
  · rw [evaluateKind_of_isMapping hctx] at h
    cases hwhere : p.evaluateWhere ctx (· = kind) with
    | error fault =>
        rw [hwhere] at h
        cases h
    | ok results =>
        rw [hwhere] at h
        cases h
        exact ⟨hctx, results, rfl, rfl⟩
  · simp [evaluateKind, Context.check, hctx, bind, Except.bind] at h

end Program

namespace Schema

variable {schema : Schema} {registry : Registry} {p : Program} {ctx : Context}

namespace Accepted

variable (h : schema.Accepted registry p)

include h

theorem declaresKind_slot {slot : Nat} {entry : Slot} (hentry : p.slots[slot]? = some entry) :
    schema.DeclaresKind entry.kind entry.name := by
  obtain ⟨d, hd, e, -, -, rfl⟩ := h.exists_slotFor hentry
  exact ⟨d, hd, rfl, rfl⟩

/-- Every declaration has a slot of its name and kind. -/
theorem exists_slot_of_declaresKind {kind : Kind} {name : String}
    (hkind : schema.DeclaresKind kind name) :
    ∃ slot entry, p.slots[slot]? = some entry ∧ entry.name = name ∧ entry.kind = kind ∧
      p.slotOf? name = some slot := by
  obtain ⟨d, hd, rfl, rfl⟩ := hkind
  obtain ⟨e, he⟩ := h.expression d hd
  obtain ⟨slot, hslot, hentry⟩ := h.exists_slot hd he
  exact ⟨slot, _, hentry, rfl, rfl, hslot⟩

/-- What the evaluation of a kind gives under a name is the value of the name. -/
theorem find?_evaluateKind {kind : Kind} {values : NameMap Value}
    (hvalues : p.evaluateKind ctx kind = .ok values) {name : String} {value : Value} :
    values.find? name = some value ↔
      schema.DeclaresKind kind name ∧ p.evaluateBinding ctx name = .ok value := by
  obtain ⟨hctx, results, hwhere, rfl⟩ := Program.exists_of_evaluateKind hvalues
  have hmem : ∀ n v, (n, v) ∈ results.map (fun (entry, value) => (entry.name, value)) ↔
      schema.DeclaresKind kind n ∧ p.evaluateBinding ctx n = .ok v := by
    intro n v
    constructor
    · intro hresult
      obtain ⟨⟨entry, v⟩, hresult, heq⟩ := List.mem_map.1 hresult
      cases heq
      obtain ⟨slot, hentry, hkind, hresolve⟩ :=
        Program.exists_slot_of_mem_evaluateWhere hwhere hresult
      obtain rfl : entry.kind = kind := by simpa using hkind
      rw [h.evaluateBinding_slot hctx hentry]
      exact ⟨h.declaresKind_slot hentry, hresolve⟩
    · rintro ⟨hdeclared, hvalue⟩
      obtain ⟨slot, entry, hentry, rfl, hkind, -⟩ := h.exists_slot_of_declaresKind hdeclared
      obtain ⟨w, hw, hresult⟩ := Program.mem_evaluateWhere hwhere hentry (by simpa using hkind)
      rw [h.evaluateBinding_slot hctx hentry] at hvalue
      cases hvalue.symm.trans hw
      exact List.mem_map.2 ⟨(entry, v), hresult, rfl⟩
  rw [NameMap.find?_ofList_eq_some_iff, hmem]
  intro v w hv hw
  exact Except.ok.inj (((hmem name v).1 hv).2.symm.trans ((hmem name w).1 hw).2)

/-- Once the evaluation of a kind succeeds, every name of the kind has a value. -/
theorem exists_value_of_evaluateKind {kind : Kind} {values : NameMap Value}
    (hvalues : p.evaluateKind ctx kind = .ok values) {name : String}
    (hkind : schema.DeclaresKind kind name) : ∃ value, p.evaluateBinding ctx name = .ok value := by
  obtain ⟨hctx, results, hwhere, -⟩ := Program.exists_of_evaluateKind hvalues
  obtain ⟨slot, entry, hentry, rfl, hkind, -⟩ := h.exists_slot_of_declaresKind hkind
  obtain ⟨value, hvalue, -⟩ := Program.mem_evaluateWhere hwhere hentry (by simpa using hkind)
  exact ⟨value, (h.evaluateBinding_slot hctx hentry).trans hvalue⟩

/-- The evaluation of a kind succeeds if every name of the kind has a value. -/
theorem exists_evaluateKind (hctx : ctx.isMapping = true) {kind : Kind}
    (hvalues : ∀ name, schema.DeclaresKind kind name →
      ∃ value, p.evaluateBinding ctx name = .ok value) :
    ∃ values, p.evaluateKind ctx kind = .ok values := by
  rw [Program.evaluateKind_of_isMapping hctx]
  cases hwhere : p.evaluateWhere ctx (· = kind) with
  | ok results => exact ⟨_, rfl⟩
  | error fault =>
      obtain ⟨slot, entry, hentry, hkind, hfault⟩ := Program.exists_error_of_evaluateWhere hwhere
      obtain rfl : entry.kind = kind := by simpa using hkind
      obtain ⟨value, hvalue⟩ := hvalues entry.name (h.declaresKind_slot hentry)
      rw [h.evaluateBinding_slot hctx hentry, hfault] at hvalue
      cases hvalue

end Accepted

end Schema

end Rulebook
