/-
# Decision tables of cascades

A table answers for a cascade by the traits that are true, without evaluating a
condition. A row fits whenever the condition of its case is true; it also fits where
the condition is a conjunction that looks into the list value of its one trait and
finds something false. Nothing else keeps the picked row from being that of the
first true case.
-/

import Rulebook.Proofs.Conditions
import Rulebook.Proofs.WholeEvaluation

namespace Rulebook

/-! ## The picked row -/

namespace DecisionTable

variable {R : Type} {t : DecisionTable R} {satisfied : NameSet}

/-- The place of the first row that fits, or the number of rows if none does. -/
def picked (t : DecisionTable R) (satisfied : NameSet) : Nat :=
  t.rows.findIdx fun row => row.required.subset satisfied

theorem pickRow_eq_ok_iff {row : Row R} :
    t.pickRow satisfied = .ok row ↔ t.rows[t.picked satisfied]? = some row := by
  rw [pickRow, picked, ← List.find?_eq_getElem?_findIdx]
  cases t.rows.find? fun row => row.required.subset satisfied <;> simp

/-- No row before the picked one fits. -/
theorem subset_of_lt_picked {j : Nat} (hlt : j < t.picked satisfied) {row : Row R}
    (hrow : t.rows[j]? = some row) : row.required.subset satisfied = false := by
  obtain ⟨hj, rfl⟩ := List.getElem?_eq_some_iff.1 hrow
  exact List.not_of_lt_findIdx hlt

theorem subset_of_picked {row : Row R} (hrow : t.rows[t.picked satisfied]? = some row) :
    row.required.subset satisfied = true := by
  rw [picked] at hrow
  have hfits := List.findIdx_of_getElem?_eq_some hrow
  exact hfits

/-- The picked row does not come after a row that fits. -/
theorem picked_le {j : Nat} {row : Row R} (hrow : t.rows[j]? = some row)
    (hfits : row.required.subset satisfied = true) : t.picked satisfied ≤ j := by
  by_contra hlt
  rw [subset_of_lt_picked (Nat.lt_of_not_le hlt) hrow] at hfits
  cases hfits

end DecisionTable

namespace Schema

variable {schema : Schema} {registry : Registry} {ctx : Context}
  {value : String → Except Fault Value} {satisfied : NameSet}

/-! ## Cascades -/

/-- What a cascade resolves with if the case at a place is the first true one: its
result, or the default if there is no such case. -/
def resultAt (cases : List Case) (otherwise : Option Expr) (i : Nat) : Expr :=
  match cases[i]? with
  | some c => c.result
  | none => otherwise.getD (.literal .null)

theorem resultAt_of_some {cases : List Case} {otherwise : Option Expr} {i : Nat} {c : Case}
    (hc : cases[i]? = some c) : resultAt cases otherwise i = c.result := by
  rw [resultAt, hc]

theorem resultAt_of_none {cases : List Case} {otherwise : Option Expr} {i : Nat}
    (hc : cases[i]? = none) :
    resultAt cases otherwise i = otherwise.getD (.literal .null) := by
  rw [resultAt, hc]

/-- Whatever a cascade resolves with stands in it, the `null` of a missing default
apart. -/
theorem mem_nodes_of_mem_nodes_resultAt {cases : List Case} {otherwise : Option Expr} {i : Nat}
    {x : Expr} (h : x ∈ (resultAt cases otherwise i).nodes) :
    x ∈ (Expr.cascade cases otherwise).nodes ∨ x = .literal .null := by
  cases hc : cases[i]? with
  | some c =>
      rw [resultAt_of_some hc] at h
      left
      apply Expr.mem_nodes_of_mem_nodesOfCases
      exact Expr.mem_nodesOfCases.2 ⟨c, List.mem_of_getElem? hc, .inr h⟩
  | none =>
      rw [resultAt_of_none hc] at h
      cases otherwise with
      | none =>
          right
          exact List.mem_singleton.1 h
      | some e =>
          left
          rw [Expr.nodes]
          exact List.mem_cons_of_mem _ (List.mem_append_right _ h)

section FirstCase

variable {c : Case} {v : Value} (hv : c.condition.meaning registry ctx value = .ok v)

include hv

/-- A case whose condition is false is passed over. -/
theorem meaningOfCases_of_false (hfalse : v.isTruthy = false) (rest : List Case) :
    Expr.meaningOfCases registry ctx value (c :: rest) =
      Expr.meaningOfCases registry ctx value rest := by
  rw [Expr.meaningOfCases_cons, hv]
  show (if v.isTruthy = true then _ else _) = _
  rw [hfalse]
  rfl

/-- A case whose condition is true decides. -/
theorem meaningOfCases_of_true (htrue : v.isTruthy = true) (rest : List Case) :
    Expr.meaningOfCases registry ctx value (c :: rest) =
      (do return some (← c.result.meaning registry ctx value)) := by
  rw [Expr.meaningOfCases_cons, hv]
  show (if v.isTruthy = true then _ else _) = _
  rw [htrue]
  rfl

end FirstCase

/-- Cases whose conditions are false can be left out. -/
theorem meaningOfCases_drop {cases : List Case} {i : Nat}
    (hbefore : ∀ (j : Nat) (c : Case), j < i → cases[j]? = some c →
      ∃ v, c.condition.meaning registry ctx value = .ok v ∧ v.isTruthy = false) :
    Expr.meaningOfCases registry ctx value cases =
      Expr.meaningOfCases registry ctx value (cases.drop i) := by
  induction i generalizing cases with
  | zero => rfl
  | succ i ih =>
      cases cases with
      | nil => rfl
      | cons c rest =>
          obtain ⟨v, hv, hfalse⟩ := hbefore 0 c (Nat.succ_pos i) rfl
          rw [meaningOfCases_of_false hv hfalse, List.drop_succ_cons]
          apply ih
          intro j c hj hc
          exact hbefore (j + 1) c (Nat.succ_lt_succ hj) hc

section Cascade

variable {cases : List Case} {otherwise : Option Expr}

/-- A cascade none of whose cases is true means what its default means. -/
theorem meaning_cascade_of_none (h : Expr.meaningOfCases registry ctx value cases = .ok none) :
    (Expr.cascade cases otherwise).meaning registry ctx value =
      (otherwise.getD (.literal .null)).meaning registry ctx value := by
  cases otherwise with
  | none =>
      rw [Expr.meaning, h]
      rfl
  | some e =>
      rw [Expr.meaning, h]
      rfl

/-- A cascade whose cases come to a result means what the result means. -/
theorem meaning_cascade_of_some {result : Expr}
    (h : Expr.meaningOfCases registry ctx value cases =
      (do return some (← result.meaning registry ctx value))) :
    (Expr.cascade cases otherwise).meaning registry ctx value =
      result.meaning registry ctx value := by
  cases otherwise with
  | none =>
      rw [Expr.meaning, h]
      cases result.meaning registry ctx value <;> rfl
  | some e =>
      rw [Expr.meaning, h]
      cases result.meaning registry ctx value <;> rfl

/-- The meaning of a cascade is that of the result of its first true case. -/
theorem meaning_cascade {i : Nat}
    (hbefore : ∀ (j : Nat) (c : Case), j < i → cases[j]? = some c →
      ∃ v, c.condition.meaning registry ctx value = .ok v ∧ v.isTruthy = false)
    (hat : ∀ c, cases[i]? = some c →
      ∃ v, c.condition.meaning registry ctx value = .ok v ∧ v.isTruthy = true) :
    (Expr.cascade cases otherwise).meaning registry ctx value =
      (resultAt cases otherwise i).meaning registry ctx value := by
  have hdrop := meaningOfCases_drop hbefore
  cases hc : cases[i]? with
  | none =>
      have hlength : cases.length ≤ i := List.getElem?_eq_none_iff.1 hc
      rw [List.drop_of_length_le hlength] at hdrop
      rw [resultAt_of_none hc]
      exact meaning_cascade_of_none hdrop
  | some c =>
      obtain ⟨v, hv, htrue⟩ := hat c hc
      obtain ⟨hi, rfl⟩ := List.getElem?_eq_some_iff.1 hc
      rw [List.drop_eq_getElem_cons hi, meaningOfCases_of_true hv htrue] at hdrop
      rw [resultAt_of_some hc]
      exact meaning_cascade_of_some hdrop

end Cascade

/-! ## Rows -/

/-- The rows of a table are those of the cases of a cascade, and one more that requires
nothing and resolves with the default. -/
structure TableOf (schema : Schema) (registry : Registry) (order : List String)
    (cases : List Case) (otherwise : Option Expr) (table : DecisionTable Branch) : Prop where
  length_rows : table.rows.length = cases.length + 1
  case_row : ∀ (i : Nat) (c : Case), cases[i]? = some c → ∃ row, table.rows[i]? = some row ∧
    schema.requiredTraits? c.condition = some row.required ∧
    row.resolver.code = .ofExpr registry order c.result
  last_row : ∃ row, table.rows[cases.length]? = some row ∧ row.required = ∅ ∧
    row.resolver.code = .ofExpr registry order (otherwise.getD (.literal .null))

variable {order : List String} {cases : List Case} {otherwise : Option Expr}
  {table : DecisionTable Branch}

theorem tableOf_of_decisionTable? {e : Expr}
    (h : schema.decisionTable? registry order e = some table) :
    ∃ cases otherwise, e = .cascade cases otherwise ∧
      schema.TableOf registry order cases otherwise table := by
  unfold decisionTable? at h
  split at h
  · cases h
  · rename_i cases otherwise _
    obtain ⟨rows, hrows, rfl⟩ := Option.map_eq_some_iff.1 h
    rw [mapM_eq_some_iff] at hrows
    have hlength : rows.length = cases.length := by
      simpa using (congrArg List.length hrows).symm
    refine ⟨cases, otherwise, rfl, by simp [hlength], fun i c hc => ?_, ?_⟩
    · have hi : i < rows.length := hlength ▸ (List.getElem?_eq_some_iff.1 hc).1
      have hrow : schema.row? registry order c = rows[i]? := by
        have hget := congrArg (·[i]?) hrows
        simpa [hc, hi] using hget
      obtain ⟨row, hget⟩ : ∃ row, rows[i]? = some row := ⟨rows[i], by simp [hi]⟩
      obtain ⟨required, hrequired, rfl⟩ := Option.map_eq_some_iff.1 (hrow.trans hget)
      exact ⟨_, (List.getElem?_append_left hi).trans hget, hrequired, rfl⟩
    · refine ⟨defaultRow registry order otherwise, ?_, rfl, ?_⟩
      · rw [← hlength]
        exact List.getElem?_concat_length
      · cases otherwise <;> rfl
  · cases h

/-- Only a cascade is compiled to a table. -/
theorem tableOf_of_slotFor {d : Declaration} {e : Expr}
    (htable : (schema.slotFor registry order d e).table = some table) :
    ∃ cases otherwise, e = .cascade cases otherwise ∧
      schema.TableOf registry order cases otherwise table := by
  by_cases hkind : d.kind = .attribute
  · simp only [slotFor, hkind, if_true] at htable
    exact tableOf_of_decisionTable? htable
  · simp only [slotFor, hkind, if_false] at htable
    cases htable

/-! ## The picked case -/

namespace TableOf

variable (htable : schema.TableOf registry order cases otherwise table)

include htable

theorem picked_le_length : table.picked satisfied ≤ cases.length := by
  obtain ⟨row, hrow, hrequired, -⟩ := htable.last_row
  apply DecisionTable.picked_le hrow
  rw [hrequired, NameSet.subset_iff]
  exact fun name hname => absurd hname (NameSet.not_mem_empty name)

/-- Some row fits whatever traits are true. -/
theorem exists_pickRow (satisfied : NameSet) : ∃ row,
    table.rows[table.picked satisfied]? = some row ∧ table.pickRow satisfied = .ok row := by
  have hlt : table.picked satisfied < table.rows.length := by
    rw [htable.length_rows]
    exact Nat.lt_succ_of_le htable.picked_le_length
  have hrow := List.getElem?_eq_getElem hlt
  exact ⟨_, hrow, DecisionTable.pickRow_eq_ok_iff.2 hrow⟩

/-- A row resolves with what its place in the cascade stands for. -/
theorem code_of_row {i : Nat} {row : Row Branch} (hrow : table.rows[i]? = some row) :
    row.resolver.code = .ofExpr registry order (resultAt cases otherwise i) := by
  cases hc : cases[i]? with
  | some c =>
      rw [resultAt_of_some hc]
      obtain ⟨row', hrow', -, hcode⟩ := htable.case_row _ c hc
      cases hrow.symm.trans hrow'
      exact hcode
  | none =>
      rw [resultAt_of_none hc]
      obtain ⟨row', hrow', -, hcode⟩ := htable.last_row
      have hlength : cases.length ≤ i := List.getElem?_eq_none_iff.1 hc
      have hlt : i < cases.length + 1 := htable.length_rows ▸ (List.getElem?_eq_some_iff.1 hrow).1
      rw [Nat.le_antisymm (Nat.le_of_lt_succ hlt) hlength] at hrow
      cases hrow.symm.trans hrow'
      exact hcode

theorem code_of_pickRow {row : Row Branch} (hrow : table.pickRow satisfied = .ok row) :
    row.resolver.code =
      .ofExpr registry order (resultAt cases otherwise (table.picked satisfied)) :=
  htable.code_of_row (DecisionTable.pickRow_eq_ok_iff.1 hrow)

variable (hsat : schema.TrueTraits value satisfied) (hbuiltin : registry.BuiltinConjunctions)

include hsat hbuiltin

/-- The conditions of all cases before the picked row are false. -/
theorem meaning_of_lt_picked (ctx : Context) {j : Nat} (hlt : j < table.picked satisfied) {c : Case}
    (hc : cases[j]? = some c) :
    ∃ v, c.condition.meaning registry ctx value = .ok v ∧ v.isTruthy = false := by
  obtain ⟨row, hrow, hrequired, -⟩ := htable.case_row j c hc
  obtain ⟨v, hv, htrue⟩ := hsat.meaning_condition hbuiltin ctx hrequired
  rw [DecisionTable.subset_of_lt_picked hlt hrow] at htrue
  exact ⟨v, hv, by simpa using htrue⟩

/-- The condition of the picked case is true, unless it looks into the value of its one
trait. -/
theorem meaning_of_picked (ctx : Context) {c : Case}
    (hc : cases[table.picked satisfied]? = some c) :
    ∃ v, c.condition.meaning registry ctx value = .ok v ∧
      (v.isTruthy = true ↔ ¬ SpreadsFalse value c.condition) := by
  obtain ⟨row, hrow, hrequired, -⟩ := htable.case_row _ c hc
  obtain ⟨v, hv, htrue⟩ := hsat.meaning_condition hbuiltin ctx hrequired
  rw [DecisionTable.subset_of_picked hrow] at htrue
  exact ⟨v, hv, by simpa using htrue⟩

/-- Where no condition looks into the value of its one trait, the picked row is what the
cascade means. -/
theorem meaning_eq_of_not_spreadsFalse (ctx : Context)
    (hspread : ∀ c ∈ cases, ¬ SpreadsFalse value c.condition) :
    (Expr.cascade cases otherwise).meaning registry ctx value =
      (resultAt cases otherwise (table.picked satisfied)).meaning registry ctx value := by
  apply meaning_cascade
  · intro j c hlt hc
    exact htable.meaning_of_lt_picked hsat hbuiltin ctx hlt hc
  · intro c hc
    obtain ⟨v, hv, htrue⟩ := htable.meaning_of_picked hsat hbuiltin ctx hc
    exact ⟨v, hv, htrue.2 (hspread c (List.mem_of_getElem? hc))⟩

end TableOf

end Schema

/-! ## The first true case -/

namespace DecisionTable

variable {R : Type}

/-- The row of a case is picked exactly if its condition is the first to be true, and
the row after all cases exactly if no condition is true. -/
def Mirrors (t : DecisionTable R) (satisfied : NameSet) (cases : List Case)
    (holds : Case → Bool) : Prop :=
  (∀ (i : Nat) (c : Case), cases[i]? = some c → (t.picked satisfied = i ↔
    holds c = true ∧ ∀ (j : Nat) (earlier : Case), j < i → cases[j]? = some earlier →
      holds earlier = false)) ∧
  (t.picked satisfied = cases.length ↔ ∀ c ∈ cases, holds c = false)

/-- If no case before the picked row is true, all depends on the picked case. -/
theorem mirrors_iff {t : DecisionTable R} {satisfied : NameSet} {cases : List Case}
    {holds : Case → Bool} (hle : t.picked satisfied ≤ cases.length)
    (hbefore : ∀ (j : Nat) (c : Case), j < t.picked satisfied → cases[j]? = some c →
      holds c = false) :
    t.Mirrors satisfied cases holds ↔
      ∀ c, cases[t.picked satisfied]? = some c → holds c = true := by
  constructor
  · intro h c hc
    exact ((h.1 _ c hc).1 rfl).1
  intro hpicked
  refine ⟨fun i c hc => ⟨?_, ?_⟩, ?_, ?_⟩
  · rintro rfl
    exact ⟨hpicked c hc, hbefore⟩
  · rintro ⟨htrue, hearlier⟩
    rcases Nat.lt_trichotomy (t.picked satisfied) i with hlt | heq | hgt
    · have hlength : t.picked satisfied < cases.length :=
        Nat.lt_trans hlt (List.getElem?_eq_some_iff.1 hc).1
      have hget := List.getElem?_eq_getElem hlength
      have hfalse := hearlier _ _ hlt hget
      rw [hpicked _ hget] at hfalse
      cases hfalse
    · exact heq
    · rw [hbefore i c hgt hc] at htrue
      cases htrue
  · intro heq c hc
    obtain ⟨j, hj, rfl⟩ := List.getElem_of_mem hc
    exact hbefore j _ (heq ▸ hj) (List.getElem?_eq_getElem hj)
  · intro hfalse
    by_contra hne
    have hget := List.getElem?_eq_getElem (Nat.lt_of_le_of_ne hle hne)
    have htrue := hpicked _ hget
    rw [hfalse _ (List.getElem_mem _)] at htrue
    cases htrue

end DecisionTable

/-- The names whose values are true. -/
def NameMap.trueNames (values : NameMap Value) : NameSet :=
  .ofNames ((values.entries.filter fun e => e.2.isTruthy).map Prod.fst)

theorem NameMap.mem_trueNames {values : NameMap Value} {name : String} :
    name ∈ values.trueNames ↔ ∃ v, values.find? name = some v ∧ v.isTruthy = true := by
  rw [trueNames, NameSet.mem_ofNames, List.mem_map]
  constructor
  · rintro ⟨⟨n, v⟩, hmem, rfl⟩
    obtain ⟨hentry, htrue⟩ := List.mem_filter.1 hmem
    exact ⟨v, NameMap.mem_entries_iff.1 hentry, htrue⟩
  · rintro ⟨v, hfind, htrue⟩
    exact ⟨(name, v), List.mem_filter.2 ⟨NameMap.mem_entries_iff.2 hfind, htrue⟩, rfl⟩

/-- Whether plain evaluation finds the condition of a case true. -/
def Program.holds (p : Program) (registry : Registry) (ctx : Context) (c : Case) : Bool :=
  match (Code.ofExpr registry p.analysis.order c.condition).eval ctx (p.resolve ctx []) with
  | .ok v => v.isTruthy
  | .error _ => false

namespace Schema

variable {schema : Schema} {registry : Registry} {p : Program} {ctx : Context} {name : String}

namespace Accepted

variable (h : schema.Accepted registry p)

include h

/-- Only a name that is declared with a cascade has a table, and its rows are those of
the cascade. -/
theorem tableOf_of_find? {entry : Slot} {table : DecisionTable Branch}
    (hentry : p.find? name = some entry) (htable : entry.table = some table) :
    ∃ cases otherwise, schema.Declares name (.cascade cases otherwise) ∧
      schema.TableOf registry p.analysis.order cases otherwise table := by
  obtain ⟨slot, hslot, hget⟩ := Option.bind_eq_some_iff.1 hentry
  obtain ⟨d, hd, e, he, hname, rfl⟩ := h.exists_slotFor hget
  obtain rfl : d.name = name :=
    Option.some.inj (hname.symm.trans (h.slotOf?_eq_some_iff.1 hslot))
  obtain ⟨cases, otherwise, rfl, hrows⟩ := tableOf_of_slotFor htable
  exact ⟨cases, otherwise, ⟨d, hd, rfl, he⟩, hrows⟩

/-- The truth of a condition is that of its meaning. -/
theorem holds_of_meaning (hctx : ctx.isMapping = true) {cases : List Case}
    {otherwise : Option Expr} (he : schema.Declares name (.cascade cases otherwise)) {c : Case}
    (hc : c ∈ cases) {v : Value}
    (hv : c.condition.meaning registry ctx (p.evaluateBinding ctx) = .ok v) :
    p.holds registry ctx c = v.isTruthy := by
  have hnames : ∀ target, .binding target ∈ c.condition.nodes → target ∈ schema.names := by
    intro target htarget
    have hnode := Expr.mem_nodes_of_mem_nodesOfCases otherwise
      (Expr.mem_nodesOfCases.2 ⟨c, hc, .inl htarget⟩)
    exact h.declared name target ⟨_, he, hnode⟩
  rw [Program.holds, h.eval_ofExpr hctx hnames, hv]

/-- Once all traits have values, those that are true are the true traits. -/
theorem trueTraits_evaluateKind {traits : NameMap Value}
    (htraits : p.evaluateKind ctx .trait = .ok traits) :
    schema.TrueTraits (p.evaluateBinding ctx) traits.trueNames := by
  constructor
  · intro name hname
    obtain ⟨v, hfind, -⟩ := NameMap.mem_trueNames.1 hname
    exact ((h.find?_evaluateKind htraits).1 hfind).1
  · intro name hname
    obtain ⟨v, hv⟩ := h.exists_value_of_evaluateKind htraits hname
    have hfind := (h.find?_evaluateKind htraits).2 ⟨hname, hv⟩
    refine ⟨v, hv, ?_⟩
    rw [NameMap.mem_trueNames, hfind]
    simp

/-- The picked row is that of the first true case exactly if the condition of the
picked case does not look into the value of its trait. -/
theorem mirrors_iff_of_table (hbuiltin : registry.BuiltinConjunctions)
    (hctx : ctx.isMapping = true) {cases : List Case} {otherwise : Option Expr}
    (he : schema.Declares name (.cascade cases otherwise)) {table : DecisionTable Branch}
    (htable : schema.TableOf registry p.analysis.order cases otherwise table)
    {satisfied : NameSet} (hsat : schema.TrueTraits (p.evaluateBinding ctx) satisfied) :
    table.Mirrors satisfied cases (p.holds registry ctx) ↔
      ∀ c, cases[table.picked satisfied]? = some c →
        ¬ SpreadsFalse (p.evaluateBinding ctx) c.condition := by
  rw [DecisionTable.mirrors_iff htable.picked_le_length]
  · apply forall₂_congr
    intro c hc
    obtain ⟨v, hv, htrue⟩ := htable.meaning_of_picked hsat hbuiltin ctx hc
    rw [h.holds_of_meaning hctx he (List.mem_of_getElem? hc) hv, htrue]
  · intro j c hlt hc
    obtain ⟨v, hv, hfalse⟩ := htable.meaning_of_lt_picked hsat hbuiltin ctx hlt hc
    rw [h.holds_of_meaning hctx he (List.mem_of_getElem? hc) hv, hfalse]

end Accepted

/-- Decision tables stand for their cascades but for one kind of condition. If a table
is compiled, it is that of a cascade, some row of it is picked by the true traits, and
the picked row is that of the first true case, or the last row if no case is true,
exactly if the condition of the picked case is no conjunction called on one trait
alone whose value is a list with a false item. -/
theorem mirrors_iff_not_spreadsFalse (hp : schema.compile .builtins = .ok p) {entry : Slot}
    (hentry : p.find? name = some entry) {table : DecisionTable Branch}
    (htable : entry.table = some table) {traits : NameMap Value}
    (htraits : p.evaluateKind ctx .trait = .ok traits) :
    (∃ cases otherwise, schema.Declares name (.cascade cases otherwise)) ∧
    (∃ row, table.rows[table.picked traits.trueNames]? = some row ∧
      table.pickRow traits.trueNames = .ok row) ∧
    ∀ cases otherwise, schema.Declares name (.cascade cases otherwise) →
      schema.TableOf .builtins p.analysis.order cases otherwise table ∧
      (table.Mirrors traits.trueNames cases (p.holds .builtins ctx) ↔
        ∀ c, cases[table.picked traits.trueNames]? = some c →
          ¬ SpreadsFalse (p.evaluateBinding ctx) c.condition) := by
  have h := accepted_of_compile hp
  obtain ⟨cases, otherwise, he, hrows⟩ := h.tableOf_of_find? hentry htable
  refine ⟨⟨cases, otherwise, he⟩, hrows.exists_pickRow _, fun cases' otherwise' he' => ?_⟩
  -- A name is declared once, so there is only one cascade to speak of.
  cases h.expression_unique he he'
  have hctx := (Program.exists_of_evaluateKind htraits).1
  exact ⟨hrows, h.mirrors_iff_of_table Registry.builtinConjunctions_builtins hctx he hrows
    (h.trueTraits_evaluateKind htraits)⟩

end Schema

namespace Example

/-- A contract is in force if its seal is good; the trait gives back the list of the
signatures under it. -/
def inForce : Case := ⟨.call "and" [.binding "sealed"], .literal (.string "in force")⟩

def contracts : Schema where
  attributes := [⟨.attribute, "state", some (.cascade [inForce]
    (some (.literal (.string "draft")))), none⟩]
  traits := [⟨.trait, "sealed",
    some (.call "conditional" [.field "seal", .field "signatures", .literal .null]), none⟩]
  functions := []

/-- A sealed contract with one place for a signature. -/
def contract (signed : Bool) : Context :=
  .ofMap (.ofList [("seal", .bool true), ("signatures", .list [.bool signed])])

theorem exists_compile_contracts : ∃ p, contracts.compile .builtins = .ok p :=
  Schema.exists_compile (by decide +kernel)

section Contracts

variable {p : Program} (h : contracts.Accepted .builtins p)

include h

theorem evaluateBinding_sealed (signed : Bool) :
    p.evaluateBinding (contract signed) "sealed" = .ok (.list [.bool signed]) := by
  have hmeaning : contracts.meaning .builtins (contract signed) 1 "sealed" =
      some (.ok (.list [.bool signed])) := by
    cases signed <;> rfl
  exact h.evaluateBinding_of_meaning rfl (by decide) hmeaning

theorem spreadsFalse_sealed_iff (signed : Bool) :
    Schema.SpreadsFalse (p.evaluateBinding (contract signed)) inForce.condition ↔
      signed = false := by
  constructor
  · rintro ⟨function, name, items, heq, hvalue, v, hv, hfalse⟩
    cases heq
    rw [evaluateBinding_sealed h] at hvalue
    cases hvalue
    obtain rfl := List.mem_singleton.1 hv
    exact hfalse
  · rintro rfl
    exact ⟨_, _, _, rfl, evaluateBinding_sealed h false, _, List.mem_singleton_self _, rfl⟩

theorem exists_traits_contract (signed : Bool) :
    ∃ traits, p.evaluateKind (contract signed) .trait = .ok traits ∧
      "sealed" ∈ traits.trueNames := by
  have hsealed : ∀ name, contracts.DeclaresKind .trait name → name = "sealed" := by
    rintro name ⟨d, hd, rfl, hkind⟩
    simp only [contracts, Schema.declarations, List.cons_append, List.nil_append,
      List.append_nil, List.mem_cons, List.not_mem_nil, or_false] at hd
    rcases hd with rfl | rfl
    · cases hkind
    · rfl
  have hvalues : ∀ name, contracts.DeclaresKind .trait name →
      ∃ value, p.evaluateBinding (contract signed) name = .ok value := by
    intro name hname
    rw [hsealed name hname]
    exact ⟨_, evaluateBinding_sealed h signed⟩
  obtain ⟨traits, htraits⟩ := h.exists_evaluateKind rfl hvalues
  have hdeclared : contracts.DeclaresKind .trait "sealed" :=
    ⟨_, List.mem_cons_of_mem _ List.mem_cons_self, rfl, rfl⟩
  have hfind := (h.find?_evaluateKind htraits).2 ⟨hdeclared, evaluateBinding_sealed h signed⟩
  exact ⟨traits, htraits, NameMap.mem_trueNames.2 ⟨_, hfind, rfl⟩⟩

omit h in
/-- The table for the state of a contract has a first row that fits. -/
theorem picked_contract {table : DecisionTable Branch} {traits : NameMap Value}
    (htable : contracts.TableOf .builtins p.analysis.order [inForce]
      (some (.literal (.string "draft"))) table)
    (hsealed : "sealed" ∈ traits.trueNames) : table.picked traits.trueNames = 0 := by
  obtain ⟨row, hrow, hrequired, -⟩ := htable.case_row 0 inForce rfl
  have hnames : row.required = .ofNames ["sealed"] :=
    (Option.some.inj (hrequired.symm.trans rfl))
  apply Nat.le_zero.1
  apply DecisionTable.picked_le hrow
  rw [hnames, Schema.ofNames_subset_iff]
  simpa using hsealed

end Contracts

/-- The state of a contract that lacks its signature is decided by the wrong row, the
state of a signed contract is not. -/
theorem mirrors_iff_not_spreadsFalse_contracts :
    ∃ p entry table, contracts.compile .builtins = .ok p ∧ p.find? "state" = some entry ∧
      entry.table = some table ∧
      (∃ traits, p.evaluateKind (contract false) .trait = .ok traits ∧
        ¬ table.Mirrors traits.trueNames [inForce] (p.holds .builtins (contract false))) ∧
      ∃ traits, p.evaluateKind (contract true) .trait = .ok traits ∧
        table.Mirrors traits.trueNames [inForce] (p.holds .builtins (contract true)) := by
  obtain ⟨p, hp⟩ := exists_compile_contracts
  have h := Schema.accepted_of_compile hp
  have hdeclared : contracts.Declares "state" _ := ⟨_, List.mem_cons_self, rfl, rfl⟩
  obtain ⟨entry, table, hstate, htable⟩ :
      ∃ entry table, p.find? "state" = some entry ∧ entry.table = some table :=
    ⟨_, _, h.find?_eq_slotFor List.mem_cons_self rfl, rfl⟩
  have hmirrors : ∀ signed, ∃ traits, p.evaluateKind (contract signed) .trait = .ok traits ∧
      (table.Mirrors traits.trueNames [inForce] (p.holds .builtins (contract signed)) ↔
        signed = true) := by
    intro signed
    obtain ⟨traits, htraits, hsealed⟩ := exists_traits_contract h signed
    obtain ⟨-, -, hall⟩ := Schema.mirrors_iff_not_spreadsFalse hp hstate htable htraits
    obtain ⟨hrows, hiff⟩ := hall [inForce] _ hdeclared
    rw [picked_contract hrows hsealed] at hiff
    refine ⟨traits, htraits, hiff.trans ?_⟩
    simp [spreadsFalse_sealed_iff h]
  obtain ⟨unsigned, hunsigned, hwrong⟩ := hmirrors false
  obtain ⟨signed, hsigned, hright⟩ := hmirrors true
  exact ⟨p, entry, table, hp, hstate, htable, ⟨unsigned, hunsigned, by simp [hwrong]⟩,
    signed, hsigned, hright.2 rfl⟩

end Example

end Rulebook
