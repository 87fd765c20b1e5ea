/-
# Accepted schemas

What it means for a schema that the standard analysis finds nothing wrong with
it, and what the program is like that it compiles to. Everything that is proved
about accepted schemas rests on the one structure below: the declarations are
well formed, and the slots stand in an order in which references lead backward.
-/

import Rulebook.Builtin
import Rulebook.Program.Compile
import Rulebook.Proofs.Analysis.Order

namespace Rulebook

/-! ## Well-formed schemas -/

namespace Schema

/-- No name is declared twice, every declaration has an expression of its form, and
every reference and call in it leads somewhere. -/
structure WellFormed (schema : Schema) (registry : Registry) : Prop where
  names_nodup : schema.names.Nodup
  expression : ∀ d ∈ schema.declarations, ∃ e, d.expression = some e
  trait_call : ∀ d ∈ schema.declarations, d.kind = .trait →
    ∃ function args, d.expression = some (.call function args)
  declared : ∀ name target, schema.Refers name target → target ∈ schema.names
  callable : ∀ name e function args, schema.Declares name e → .call function args ∈ e.nodes →
    ∃ f, registry.find? function = some f ∧ f.arity.accepts args.length = true

end Schema

namespace Shapes

variable {registry : Registry} {definitions : NameMap Declaration} {d : Declaration}

theorem formIssues_eq_nil_iff : formIssues d = [] ↔
    (∃ e, d.expression = some e) ∧
      (d.kind = .trait → ∃ function args, d.expression = some (.call function args)) := by
  obtain ⟨kind, name, expression, location⟩ := d
  cases kind <;> cases expression with
  | none => simp [formIssues]
  | some e => cases e <;> simp [formIssues]

/-- A node is faultless if its reference is declared, or its call is accepted. -/
theorem nodeIssues_eq_nil_iff {x : Expr} : nodeIssues registry definitions x = [] ↔
    (∀ name, x = .binding name → definitions.contains name = true) ∧
      ∀ function args, x = .call function args →
        ∃ f, registry.find? function = some f ∧ f.arity.accepts args.length = true := by
  cases x with
  | binding name => simp [nodeIssues]
  | call function args =>
      cases hfind : registry.find? function with
      | none => simp [nodeIssues, hfind]
      | some f =>
          obtain ⟨arity, body⟩ := f
          cases arity <;> simp [nodeIssues, hfind, Arity.accepts]
  | _ => simp [nodeIssues]

end Shapes

namespace Schema

variable {schema : Schema} {registry : Registry}

/-- A name has one expression. -/
theorem WellFormed.expression_unique (h : schema.WellFormed registry) {name : String}
    {e e' : Expr} (he : schema.Declares name e) (he' : schema.Declares name e') : e = e' := by
  obtain ⟨d, hd, rfl, hexpression⟩ := he
  obtain ⟨d', hd', hname, hexpression'⟩ := he'
  obtain rfl : d' = d := List.inj_on_of_nodup_map h.names_nodup hd' hd hname
  exact Option.some.inj (hexpression.symm.trans hexpression')

/-- A schema is well formed if and only if neither of the first two passes reports
anything. -/
theorem wellFormed_iff : schema.WellFormed registry ↔
    Names.repeats [] schema.declarations = [] ∧
      ∀ d ∈ schema.declarations, Shapes.issues registry schema.definitions d = [] := by
  constructor
  · intro h
    refine ⟨Names.repeats_eq_nil_iff.2 ⟨h.names_nodup, fun d _ => List.not_mem_nil⟩, ?_⟩
    intro d hd
    obtain ⟨e, he⟩ := h.expression d hd
    have hform : Shapes.formIssues d = [] :=
      Shapes.formIssues_eq_nil_iff.2 ⟨⟨e, he⟩, h.trait_call d hd⟩
    have hdeclares : schema.Declares d.name e := ⟨d, hd, rfl, he⟩
    simp only [Shapes.issues, hform, he, List.nil_append, List.flatMap_eq_nil_iff]
    intro x hx
    refine Shapes.nodeIssues_eq_nil_iff.2 ⟨?_, ?_⟩
    · rintro target rfl
      rw [contains_definitions]
      exact h.declared d.name target ⟨e, hdeclares, hx⟩
    · rintro function args rfl
      exact h.callable d.name e function args hdeclares hx
  · rintro ⟨hnames, hshapes⟩
    have hform : ∀ d ∈ schema.declarations, Shapes.formIssues d = [] := fun d hd =>
      (List.append_eq_nil_iff.1 (hshapes d hd)).1
    have hnode : ∀ name e x, schema.Declares name e → x ∈ e.nodes →
        Shapes.nodeIssues registry schema.definitions x = [] := by
      rintro name e x ⟨d, hd, -, he⟩ hx
      have hnodes := (List.append_eq_nil_iff.1 (hshapes d hd)).2
      simp only [he, List.flatMap_eq_nil_iff] at hnodes
      exact hnodes x hx
    constructor
    · exact (Names.repeats_eq_nil_iff.1 hnames).1
    · exact fun d hd => (Shapes.formIssues_eq_nil_iff.1 (hform d hd)).1
    · exact fun d hd => (Shapes.formIssues_eq_nil_iff.1 (hform d hd)).2
    · rintro name target ⟨e, he, hx⟩
      have hdeclared := (Shapes.nodeIssues_eq_nil_iff.1 (hnode name e _ he hx)).1 target rfl
      exact (schema.contains_definitions target).1 hdeclared
    · intro name e function args he hx
      exact (Shapes.nodeIssues_eq_nil_iff.1 (hnode name e _ he hx)).2 function args rfl

/-! ## The standard analysis -/

/-- What the pass over shapes draws and reports for a schema. -/
def draft (schema : Schema) (registry : Registry) : Shapes.Draft :=
  schema.declarations.foldl (fun w d => Shapes.step registry schema.definitions d w) ⟨∅, ∅, []⟩

theorem found_draft : (schema.draft registry).found =
    schema.declarations.flatMap fun d =>
      (Shapes.issues registry schema.definitions d).map (⟨d.location, ·⟩) := by
  rw [draft, Shapes.found_foldl_step, List.nil_append]

theorem mem_names_draft {name : String} :
    name ∈ (schema.draft registry).graph.names ↔ name ∈ schema.names := by
  rw [draft, Shapes.mem_names_foldl_step, names]
  simp [NameMap.mem_names_iff]

/-- The graph has an edge for every reference to a declared name, and no other. -/
theorem mem_targets_draft {name target : String} :
    target ∈ (schema.draft registry).graph.targets name ↔
      target ∈ schema.names ∧ schema.Refers name target := by
  rw [draft, Shapes.mem_targets_foldl_step, contains_definitions]
  simp only [Graph.mem_targets_iff, NameMap.find?_empty, Refers, Declares]
  grind

/-- Only declared names are nodes of the graph. -/
theorem mem_names_of_hasNode {name : String} (h : (schema.draft registry).graph.HasNode name) :
    name ∈ schema.names := by
  rcases h with h | ⟨source, h⟩
  · exact mem_names_draft.1 h
  · exact (mem_targets_draft.1 h).1

/-- The order that the last pass finds. -/
def sorting (schema : Schema) (registry : Registry) : Order.Sorting :=
  (schema.draft registry).graph.sorted schema

/-- The pass over names reports the repeated ones. -/
theorem found_definitions : (schema.declarations.foldl Names.step (∅, [])).2 =
    Names.repeats [] schema.declarations :=
  Names.found_foldl_step fun name => by simp [NameMap.contains]

/-- The four standard passes, with what each of them contributes. -/
theorem runAll_standard : Pass.runAll Pass.standard registry schema =
    (⟨schema.definitions, (schema.draft registry).graph, (schema.draft registry).leaves,
        (schema.sorting registry).order⟩,
      Names.repeats [] schema.declarations ++ (schema.draft registry).found ++
        (Pass.cycles.run registry schema ⟨schema.definitions, (schema.draft registry).graph,
          (schema.draft registry).leaves, []⟩).2 ++
        (schema.sorting registry).cycles.map (Graph.cycleDiagnostic schema.definitions)) := by
  rw [← found_definitions]
  rfl

/-! ## Acceptance -/

/-- What acceptance gives: a well-formed schema, a program with one slot for every
declared name, and references that lead backward in the order of the slots. -/
structure Accepted (schema : Schema) (registry : Registry) (p : Program) : Prop
    extends schema.WellFormed registry where
  program_eq : p = schema.program registry p.analysis
  order_nodup : p.analysis.order.Nodup
  mem_order : ∀ name, name ∈ p.analysis.order ↔ name ∈ schema.names
  ordered : ∀ name target, schema.Refers name target → Precedes p.analysis.order target name

theorem analysis_of_analyze {a : Analysis} (h : schema.analyze registry = .ok a) :
    (Pass.runAll Pass.standard registry schema).2 = [] ∧
      a = ⟨(schema.draft registry).graph, (schema.draft registry).leaves,
        (schema.sorting registry).order⟩ := by
  unfold analyze analyzeWith at h
  split at h
  rename_i survey found hrun
  split at h
  · rename_i hempty
    rw [runAll_standard] at hrun
    cases hrun
    cases h
    rw [runAll_standard]
    exact ⟨List.isEmpty_iff.1 hempty, rfl⟩
  · cases h

theorem analyze_of_compile {p : Program} (h : schema.compile registry = .ok p) :
    schema.analyze registry = .ok p.analysis ∧ p = schema.program registry p.analysis := by
  unfold compile compileWith at h
  cases hanalyze : schema.analyzeWith Pass.standard registry with
  | error e => simp [hanalyze, Except.map] at h
  | ok a =>
      rw [hanalyze] at h
      cases h
      exact ⟨hanalyze, rfl⟩

theorem accepted_of_compile {p : Program} (h : schema.compile registry = .ok p) :
    schema.Accepted registry p := by
  obtain ⟨hanalyze, hprogram⟩ := analyze_of_compile h
  obtain ⟨hfound, ha⟩ := analysis_of_analyze hanalyze
  rw [runAll_standard] at hfound
  simp only [List.append_eq_nil_iff, List.map_eq_nil_iff] at hfound
  obtain ⟨⟨⟨hnames, hshapes⟩, -⟩, hcycles⟩ := hfound
  have hwell : schema.WellFormed registry := by
    refine wellFormed_iff.2 ⟨hnames, fun d hd => ?_⟩
    rw [found_draft, List.flatMap_eq_nil_iff] at hshapes
    exact List.map_eq_nil_iff.1 (hshapes d hd)
  obtain ⟨hsound, hlisted⟩ := (schema.draft registry).graph.sound_sorted schema
  have horder : p.analysis.order = (schema.sorting registry).order := by rw [ha]
  refine ⟨hwell, hprogram, horder ▸ hsound.nodup, fun name => ?_, fun name target hrefers => ?_⟩
  · rw [horder]
    exact ⟨fun hname => mem_names_of_hasNode (hsound.hasNode name hname),
      fun hname => hlisted name (mem_names_draft.2 hname)⟩
  · rw [horder]
    obtain ⟨e, he, hx⟩ := id hrefers
    exact Graph.precedes_of_sorted hcycles (hlisted name (mem_names_draft.2 he.mem_names))
      (mem_targets_draft.2 ⟨hwell.declared name target hrefers, hrefers⟩)

end Schema

/-- A successful compilation, as soon as it is known to be one. -/
theorem Schema.exists_compile {schema : Schema} {registry : Registry}
    (h : (schema.compile registry).isOk = true) : ∃ p, schema.compile registry = .ok p := by
  cases hcompile : schema.compile registry with
  | ok p => exact ⟨p, rfl⟩
  | error e =>
      rw [hcompile] at h
      cases h

namespace Example

/-- A small rulebook: an offer that depends on two traits, with references that lead
forward in the encounter order. -/
def offers : Schema where
  attributes :=
    [⟨.attribute, "offer", some (.cascade
        [⟨.call "and" [.binding "gold", .binding "eu"], .literal (.string "A")⟩,
          ⟨.binding "gold", .literal (.string "B")⟩]
        (some (.binding "fallback"))), none⟩,
      ⟨.attribute, "fallback", some (.call "concatenate"
        [.literal (.string "none in "), .field "region"]), none⟩]
  traits :=
    [⟨.trait, "gold", some (.call "==" [.field "tier", .literal (.string "gold")]), none⟩,
      ⟨.trait, "eu", some (.call "==" [.field "region", .literal (.string "eu")]), none⟩]
  functions := []

theorem exists_compile_offers : ∃ p, offers.compile .builtins = .ok p :=
  Schema.exists_compile (by decide +kernel)

/-- A context for the small rulebook. -/
def goldOverseas : Context := .ofMap (.ofList [("tier", .string "gold"), ("region", .string "us")])

/-- A rulebook without circles in which a trait refers to an attribute that has a
decision table. -/
def memberships : Schema where
  attributes := [⟨.attribute, "tier", some (.cascade
    [⟨.binding "adult", .literal (.string "standard")⟩] (some (.literal (.string "minor")))), none⟩]
  traits :=
    [⟨.trait, "adult", some (.call ">=" [.field "age", .literal (.int 18)]), none⟩,
      ⟨.trait, "premium", some (.call "==" [.binding "tier", .literal (.string "standard")]), none⟩]
  functions := []

/-- A context for the memberships. -/
def aged30 : Context := .ofMap (.ofList [("age", .int 30)])

end Example

/-! ## Positions -/

theorem getElem?_of_lastPosition? {name : String} {l : List String} {i : Nat}
    (h : lastPosition? name l = some i) : l[i]? = some name := by
  induction l generalizing i with
  | nil => cases h
  | cons n rest ih =>
      unfold lastPosition? at h
      split at h
      · rename_i position hposition
        cases h
        exact ih hposition
      · split at h
        · rename_i heq
          cases h
          rw [heq]
          rfl
        · cases h

theorem lastPosition?_eq_none_iff {name : String} {l : List String} :
    lastPosition? name l = none ↔ name ∉ l := by
  induction l with
  | nil => simp [lastPosition?]
  | cons n rest ih =>
      unfold lastPosition?
      cases hposition : lastPosition? name rest with
      | some position =>
          have hmem : name ∈ rest := List.mem_of_getElem? (getElem?_of_lastPosition? hposition)
          simp [hmem]
      | none =>
          have hrest : name ∉ rest := ih.1 hposition
          simp [hrest, eq_comm]

theorem le_of_lastPosition? {name : String} {l : List String} {i j : Nat}
    (h : lastPosition? name l = some i) (hj : l[j]? = some name) : j ≤ i := by
  induction l generalizing i j with
  | nil => cases h
  | cons n rest ih =>
      unfold lastPosition? at h
      cases hrest : lastPosition? name rest with
      | some position =>
          rw [hrest] at h
          cases h
          cases j with
          | zero => exact Nat.zero_le _
          | succ j => exact Nat.succ_le_succ (ih hrest hj)
      | none =>
          rw [hrest] at h
          have hnot : name ∉ rest := lastPosition?_eq_none_iff.1 hrest
          cases j with
          | zero => exact Nat.zero_le i
          | succ j => exact absurd (List.mem_of_getElem? (l := rest) hj) hnot

/-- The position of a name is the last of those at which it is listed. -/
theorem lastPosition?_eq_some_iff_last {name : String} {l : List String} {i : Nat} :
    lastPosition? name l = some i ↔ l[i]? = some name ∧ ∀ j, l[j]? = some name → j ≤ i := by
  refine ⟨fun h => ⟨getElem?_of_lastPosition? h, fun j => le_of_lastPosition? h⟩, ?_⟩
  rintro ⟨hi, hlast⟩
  cases hposition : lastPosition? name l with
  | none => exact absurd (List.mem_of_getElem? hi) (lastPosition?_eq_none_iff.1 hposition)
  | some k =>
      have hk : k ≤ i := hlast k (getElem?_of_lastPosition? hposition)
      rw [Nat.le_antisymm hk (le_of_lastPosition? hposition hi)]

/-- A name that is listed once stands at its last position. -/
theorem lastPosition?_eq_some_iff {name : String} {l : List String} (h : l.Nodup) {i : Nat} :
    lastPosition? name l = some i ↔ l[i]? = some name := by
  rw [lastPosition?_eq_some_iff_last]
  refine ⟨And.left, fun hi => ⟨hi, fun j hj => ?_⟩⟩
  have hlt : j < l.length := (List.getElem?_eq_some_iff.1 hj).1
  exact Nat.le_of_eq ((List.getElem?_inj hlt h).1 (hj.trans hi.symm))

/-- What stands before a name that is listed once has a smaller position. -/
theorem Precedes.lt {l : List String} {a b : String} (h : Precedes l b a) (hl : l.Nodup)
    {i j : Nat} (hi : l[i]? = some a) (hj : l[j]? = some b) : j < i := by
  obtain ⟨front, back, rfl, hb⟩ := h
  obtain ⟨k, hk, hkb⟩ := List.getElem_of_mem hb
  have hfront : (front ++ a :: back)[front.length]? = some a := by simp
  have hkfront : (front ++ a :: back)[k]? = some b := by
    rw [List.getElem?_append_left hk, List.getElem?_eq_getElem hk, hkb]
  have hik : i = front.length :=
    (List.getElem?_inj (List.getElem?_eq_some_iff.1 hi).1 hl).1 (hi.trans hfront.symm)
  have hjk : j = k :=
    (List.getElem?_inj (List.getElem?_eq_some_iff.1 hj).1 hl).1 (hj.trans hkfront.symm)
  omega

/-! ## Slots -/

namespace Program

variable {p : Program}

theorem slotName_eq {slot : Nat} {entry : Slot} (hentry : p.slots[slot]? = some entry) :
    p.slotName slot = entry.name := by
  rw [slotName, hentry]

theorem slotName_of_slotOf? {name : String} {slot : Nat} (hslot : p.slotOf? name = some slot) :
    p.slotName slot = name := by
  have hname := getElem?_of_lastPosition? hslot
  rw [executionOrder, List.getElem?_map, Option.map_eq_some_iff] at hname
  obtain ⟨entry, hentry, rfl⟩ := hname
  exact slotName_eq hentry

theorem lt_size_of_slotOf? {name : String} {slot : Nat} (hslot : p.slotOf? name = some slot) :
    slot < p.size := by
  have hname := getElem?_of_lastPosition? hslot
  rw [executionOrder, List.getElem?_map, Option.map_eq_some_iff] at hname
  obtain ⟨entry, hentry, -⟩ := hname
  exact (List.getElem?_eq_some_iff.1 hentry).1

section Nodup

variable (hnodup : p.executionOrder.Nodup)

include hnodup

/-- Where no name is listed twice, a slot is the slot of its name. -/
theorem slotOf?_name {slot : Nat} {entry : Slot} (hentry : p.slots[slot]? = some entry) :
    p.slotOf? entry.name = some slot := by
  rw [slotOf?, lastPosition?_eq_some_iff hnodup, executionOrder, List.getElem?_map, hentry]
  rfl

theorem find?_name {slot : Nat} {entry : Slot} (hentry : p.slots[slot]? = some entry) :
    p.find? entry.name = some entry := by
  rw [Program.find?, slotOf?_name hnodup hentry, Option.bind_some, hentry]

theorem hasDecisionTable_name {slot : Nat} {entry : Slot}
    (hentry : p.slots[slot]? = some entry) :
    p.hasDecisionTable entry.name = entry.table.isSome := by
  rw [hasDecisionTable, find?_name hnodup hentry]

/-- No two slots have the same name. -/
theorem slotName_inj {i j : Nat} (hi : i < p.size) (hj : j < p.size)
    (hnames : p.slotName i = p.slotName j) : i = j := by
  have hslot := slotOf?_name hnodup (List.getElem?_eq_getElem hi)
  have hslot' := slotOf?_name hnodup (List.getElem?_eq_getElem hj)
  rw [← slotName_eq (List.getElem?_eq_getElem hi), hnames,
    slotName_eq (List.getElem?_eq_getElem hj), hslot'] at hslot
  exact (Option.some.inj hslot).symm

end Nodup

end Program

namespace Schema

variable {schema : Schema} {registry : Registry} {p : Program}

@[simp] theorem name_slot (order : List String) (name : String) :
    (schema.slot registry order name).name = name := by
  rw [slot]
  cases hfind : schema.find? name with
  | none => rfl
  | some d =>
      have hname := (mem_of_find? hfind).2
      cases hexpression : d.expression <;> simp [hexpression, hname]

/-- The slot of a declaration with an expression. -/
def slotFor (schema : Schema) (registry : Registry) (order : List String) (d : Declaration)
    (e : Expr) : Slot where
  name := d.name
  kind := d.kind
  description := e.render
  code := .ofExpr registry order e
  table := if d.kind = .attribute then schema.decisionTable? registry order e else none

theorem slot_eq_slotFor (order : List String) {name : String} {d : Declaration} {e : Expr}
    (hd : schema.find? name = some d) (he : d.expression = some e) :
    schema.slot registry order name = schema.slotFor registry order d e := by
  simp only [slot, slotFor, hd, he]

/-- The program is what the schema compiles to, whatever passes gave the analysis. -/
def Compiled (schema : Schema) (registry : Registry) (p : Program) : Prop :=
  p = schema.program registry p.analysis

theorem compiled_of_compileWith {passes : List Pass}
    (h : schema.compileWith passes registry = .ok p) : schema.Compiled registry p := by
  unfold compileWith at h
  cases hanalyze : schema.analyzeWith passes registry with
  | error e => simp [hanalyze, Except.map] at h
  | ok a =>
      rw [hanalyze] at h
      cases h
      rfl

namespace Compiled

variable (h : schema.Compiled registry p)

include h

theorem slots_eq : p.slots = p.analysis.order.map (schema.slot registry p.analysis.order) :=
  congrArg Program.slots h

/-- The slot at a place is compiled for the name at that place of the order. -/
theorem exists_name {i : Nat} {entry : Slot} (hentry : p.slots[i]? = some entry) :
    ∃ name, p.analysis.order[i]? = some name ∧
      entry = schema.slot registry p.analysis.order name := by
  rw [h.slots_eq, List.getElem?_map, Option.map_eq_some_iff] at hentry
  obtain ⟨name, hname, hslot⟩ := hentry
  exact ⟨name, hname, hslot.symm⟩

theorem executionOrder_eq : p.executionOrder = p.analysis.order := by
  rw [Program.executionOrder, h.slots_eq, List.map_map]
  exact List.map_id'' (fun name => name_slot _ name) _

/-- A slot is compiled from the last declaration of its name; there is nothing to
compile if the name is not declared, or without an expression. -/
theorem slot_cases {i : Nat} {entry : Slot} (hentry : p.slots[i]? = some entry) :
    (entry.table = none ∧ entry.code = .unresolved entry.name) ∨
    ∃ d e, schema.find? entry.name = some d ∧ d.expression = some e ∧
      entry = schema.slotFor registry p.analysis.order d e := by
  obtain ⟨name, -, rfl⟩ := h.exists_name hentry
  rw [name_slot]
  cases hfind : schema.find? name with
  | none => exact .inl (by simp [slot, hfind])
  | some d =>
      cases hexpression : d.expression with
      | none => exact .inl (by simp [slot, hfind, hexpression])
      | some e => exact .inr ⟨d, e, rfl, hexpression, slot_eq_slotFor _ hfind hexpression⟩

end Compiled

namespace Accepted

variable (h : schema.Accepted registry p)

include h

theorem compiled : schema.Compiled registry p := h.program_eq

theorem slots_eq : p.slots = p.analysis.order.map (schema.slot registry p.analysis.order) :=
  h.compiled.slots_eq

theorem executionOrder_eq : p.executionOrder = p.analysis.order := h.compiled.executionOrder_eq

theorem slotOf?_eq_some_iff {name : String} {i : Nat} :
    p.slotOf? name = some i ↔ p.analysis.order[i]? = some name := by
  rw [Program.slotOf?, h.executionOrder_eq, lastPosition?_eq_some_iff h.order_nodup]

/-- Every declared name has a slot. -/
theorem exists_slotOf? {name : String} (hname : name ∈ schema.names) :
    ∃ i, p.slotOf? name = some i := by
  obtain ⟨i, hi, hget⟩ := List.getElem_of_mem ((h.mem_order name).2 hname)
  exact ⟨i, h.slotOf?_eq_some_iff.2 (by rw [List.getElem?_eq_getElem hi, hget])⟩

theorem executionOrder_nodup : p.executionOrder.Nodup := by
  rw [h.executionOrder_eq]
  exact h.order_nodup

/-- A slot is compiled from the declaration of its name. -/
theorem exists_slotFor {i : Nat} {entry : Slot} (hentry : p.slots[i]? = some entry) :
    ∃ d ∈ schema.declarations, ∃ e, d.expression = some e ∧
      p.analysis.order[i]? = some d.name ∧
      entry = schema.slotFor registry p.analysis.order d e := by
  obtain ⟨name, hname, rfl⟩ := h.compiled.exists_name hentry
  have hdeclared : name ∈ schema.names := (h.mem_order name).1 (List.mem_of_getElem? hname)
  obtain ⟨d, hd⟩ := Option.isSome_iff_exists.1 (find?_isSome_iff.2 hdeclared)
  obtain ⟨hmem, rfl⟩ := mem_of_find? hd
  obtain ⟨e, he⟩ := h.expression d hmem
  exact ⟨d, hmem, e, he, hname, slot_eq_slotFor _ hd he⟩

/-- A declaration is compiled to the slot of its name. -/
theorem exists_slot {d : Declaration} (hd : d ∈ schema.declarations) {e : Expr}
    (he : d.expression = some e) :
    ∃ slot, p.slotOf? d.name = some slot ∧
      p.slots[slot]? = some (schema.slotFor registry p.analysis.order d e) := by
  obtain ⟨slot, hslot⟩ := h.exists_slotOf? (List.mem_map_of_mem hd)
  refine ⟨slot, hslot, ?_⟩
  rw [h.slots_eq, List.getElem?_map, h.slotOf?_eq_some_iff.1 hslot, Option.map_some,
    slot_eq_slotFor _ (find?_of_nodup h.names_nodup hd) he]

/-- What is compiled for a declared name. -/
theorem find?_eq_slotFor {d : Declaration} (hd : d ∈ schema.declarations) {e : Expr}
    (he : d.expression = some e) :
    p.find? d.name = some (schema.slotFor registry p.analysis.order d e) := by
  obtain ⟨slot, hslot, hentry⟩ := h.exists_slot hd he
  rw [Program.find?, hslot, Option.bind_some, hentry]

/-- References lead to smaller slots. -/
theorem lt_of_refers {name target : String} (hrefers : schema.Refers name target) {i j : Nat}
    (hi : p.analysis.order[i]? = some name) (hj : p.analysis.order[j]? = some target) : j < i :=
  (h.ordered name target hrefers).lt h.order_nodup hi hj

end Accepted

end Schema

end Rulebook
