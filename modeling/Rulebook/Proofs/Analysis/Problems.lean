/-
# The problems of a schema

What is wrong with a schema is written down here from its declarations alone: which
names are declared again, which declarations lack an expression of their form, and
which references and calls in them lead nowhere. The standard analysis reports this
list, each problem once and in this order, besides the circles of references; and it
turns a schema down only if there is something to report.
-/

import Rulebook.Proofs.Acceptance
import Rulebook.Proofs.Analysis.Cycles
import Rulebook.Proofs.Traversal

namespace Rulebook

/-- A circle of references. -/
def Issue.isCycle : Issue → Bool
  | .cycle _ => true
  | _ => false

/-- Of equal items the first one counts, whether others are dropped before or after. -/
theorem eraseDups_filter {α : Type} [BEq α] [LawfulBEq α] (p : α → Bool) (l : List α) :
    (l.filter p).eraseDups = l.eraseDups.filter p := by
  induction hlength : l.length using Nat.strongRecOn generalizing l with
  | ind length ih =>
      cases l with
      | nil => rfl
      | cons a rest =>
          have hshorter : (rest.filter fun b => !b == a).length < length := by
            have := List.length_filter_le (fun b => !b == a) rest
            simp only [List.length_cons] at hlength
            omega
          rw [List.eraseDups_cons, List.filter_cons, List.filter_cons,
            ← ih _ hshorter _ rfl, List.filter_filter]
          by_cases ha : p a = true
          · simp only [ha, if_true, List.eraseDups_cons, List.filter_filter, Bool.and_comm]
          · simp only [ha]
            congr 1
            apply List.filter_congr
            intro b _
            by_cases hb : b = a
            · simp [hb, ha]
            · simp [hb]

namespace Schema

/-- The declarations of a name that an earlier declaration has. -/
def repeated (schema : Schema) : List Declaration :=
  (schema.declarations.zipIdx.filter fun e => e.1.name ∈ schema.names.take e.2).map Prod.fst

/-- What is wrong with a node: a reference to a name that is not declared, or a call of
a function that is not registered or takes another number of arguments. -/
def nodeProblems (schema : Schema) (registry : Registry) : Expr → List Issue
  | .binding name => if name ∈ schema.names then [] else [.undefinedReference name]
  | .call function args =>
    match registry.find? function with
    | none => [.unsupportedOperator function]
    | some ⟨.any, _⟩ => []
    | some ⟨.exactly count, _⟩ =>
      if args.length = count then [] else [.arityMismatch function count args.length]
  | _ => []

/-- Every problem of a schema but circles, at the place of its declaration: the names
that are declared again, then declaration by declaration its form and its nodes, a node
before the nodes below it. -/
def problems (schema : Schema) (registry : Registry) : List Diagnostic :=
  schema.repeated.map (fun d => ⟨d.location, .duplicateDefinition d.name⟩) ++
    schema.declarations.flatMap fun d =>
      (Shapes.formIssues d ++
        (d.expression.elim [] Expr.nodes).flatMap (schema.nodeProblems registry)).map
          (⟨d.location, ·⟩)

/-- A name has an expression that refers to a declared name. -/
def Depends (schema : Schema) (name target : String) : Prop :=
  target ∈ schema.names ∧ schema.Refers name target

end Schema

/-! ## The first two passes -/

/-- A declaration is reported if its name was seen before or an earlier declaration has
it. -/
theorem Names.repeats_eq (seen : List String) (ds : List Declaration) :
    repeats seen ds =
      (ds.zipIdx.filter fun e =>
        e.1.name ∈ seen ∨ e.1.name ∈ (ds.map (·.name)).take e.2).map
          fun e => ⟨e.1.location, .duplicateDefinition e.1.name⟩ := by
  induction ds generalizing seen with
  | nil => rfl
  | cons d rest ih =>
      rw [repeats, ih, List.zipIdx_cons, List.zipIdx_succ, List.filter_cons, List.filter_map]
      by_cases hseen : d.name ∈ seen <;>
        simp [hseen, Function.comp_def, Bool.or_assoc, Bool.or_left_comm]

theorem Shapes.isCycle_of_mem_formIssues {d : Declaration} {issue : Issue}
    (h : issue ∈ formIssues d) : issue.isCycle = false := by
  unfold formIssues at h
  split at h <;> simp_all [Issue.isCycle]

namespace Schema

variable {schema : Schema} {registry : Registry}

theorem repeats_declarations : Names.repeats [] schema.declarations =
    schema.repeated.map fun d => ⟨d.location, .duplicateDefinition d.name⟩ := by
  rw [Names.repeats_eq, repeated, List.map_map]
  congr 1
  apply List.filter_congr
  intro e _
  rw [decide_eq_decide]
  simp [names]

theorem nodeIssues_definitions (x : Expr) :
    Shapes.nodeIssues registry schema.definitions x = schema.nodeProblems registry x := by
  cases x with
  | binding name => simp [Shapes.nodeIssues, nodeProblems, contains_definitions]
  | call function args =>
      simp only [Shapes.nodeIssues, nodeProblems]
      cases registry.find? function with
      | none => rfl
      | some f =>
          obtain ⟨arity, body⟩ := f
          cases arity with
          | any => rfl
          | exactly count => simp [eq_comm]
  | _ => rfl

theorem issues_definitions (d : Declaration) :
    Shapes.issues registry schema.definitions d = Shapes.formIssues d ++
      (d.expression.elim [] Expr.nodes).flatMap (schema.nodeProblems registry) := by
  have hnode : Shapes.nodeIssues registry schema.definitions = schema.nodeProblems registry :=
    funext nodeIssues_definitions
  rw [Shapes.issues, hnode]
  cases d.expression <;> rfl

theorem problems_eq : schema.problems registry =
    Names.repeats [] schema.declarations ++ (schema.draft registry).found := by
  rw [found_draft, repeats_declarations, problems]
  simp only [issues_definitions]

theorem isCycle_of_mem_nodeProblems {x : Expr} {issue : Issue}
    (h : issue ∈ schema.nodeProblems registry x) : issue.isCycle = false := by
  unfold nodeProblems at h
  split at h
  · split at h <;> simp_all [Issue.isCycle]
  · split at h
    · simp_all [Issue.isCycle]
    · cases h
    · split at h <;> simp_all [Issue.isCycle]
  · cases h

/-- None of the problems is a circle. -/
theorem isCycle_of_mem_problems {d : Diagnostic} (h : d ∈ schema.problems registry) :
    d.issue.isCycle = false := by
  rcases List.mem_append.1 h with h | h
  · obtain ⟨_, -, rfl⟩ := List.mem_map.1 h
    rfl
  · obtain ⟨declaration, -, h⟩ := List.mem_flatMap.1 h
    obtain ⟨issue, hissue, rfl⟩ := List.mem_map.1 h
    rcases List.mem_append.1 hissue with hform | hnode
    · exact Shapes.isCycle_of_mem_formIssues hform
    · obtain ⟨x, -, hx⟩ := List.mem_flatMap.1 hnode
      exact isCycle_of_mem_nodeProblems hx

/-! ## The last two passes -/

/-- The circles of references, each at the place of its first name. -/
def circles (schema : Schema) (registry : Registry) : List Diagnostic :=
  (schema.sorting registry).cycles.map (Graph.cycleDiagnostic schema.definitions)

/-- The four standard passes report the problems and, twice, the circles. -/
theorem found_runAll_standard : (Pass.runAll Pass.standard registry schema).2 =
    schema.problems registry ++ schema.circles registry ++ schema.circles registry := by
  have hsearched : (Pass.cycles.run registry schema ⟨schema.definitions,
      (schema.draft registry).graph, (schema.draft registry).leaves, []⟩).2 =
        ((schema.draft registry).graph.searched schema).cycles.map
          (Graph.cycleDiagnostic schema.definitions) := rfl
  rw [runAll_standard, hsearched, Graph.cycles_searched, problems_eq]
  rfl

theorem isCycle_of_mem_circles {d : Diagnostic} (h : d ∈ schema.circles registry) :
    d.issue.isCycle = true := by
  obtain ⟨path, -, rfl⟩ := List.mem_map.1 h
  rfl

/-- There are circles exactly where references lead from some name back to it. -/
theorem circles_eq_nil_iff :
    schema.circles registry = [] ↔ ∀ name, ¬ Relation.TransGen schema.Depends name name := by
  have hedge : (schema.draft registry).graph.Edge = schema.Depends := by
    funext name target
    exact propext mem_targets_draft
  rw [circles, List.map_eq_nil_iff, sorting, Graph.cycles_sorted_eq_nil_iff, hedge]

/-- The first two passes report the problems. -/
theorem runAll_names_shapes : Pass.runAll [.names, .shapes] registry schema =
    (⟨schema.definitions, (schema.draft registry).graph, (schema.draft registry).leaves, []⟩,
      schema.problems registry) := by
  rw [problems_eq, ← found_definitions]
  rfl

/-! ## The analysis -/

/-- An analysis turns a schema down if its passes find something, and reports all that
they find. -/
theorem analyzeWith_eq_error_iff {passes : List Pass} {e : SemanticError} :
    schema.analyzeWith passes registry = .error e ↔
      (Pass.runAll passes registry schema).2 ≠ [] ∧
        e = ⟨(Pass.runAll passes registry schema).2.eraseDups⟩ := by
  rw [analyzeWith]
  rcases Pass.runAll passes registry schema with ⟨survey, found⟩
  cases found with
  | nil => simp
  | cons d rest => simp [eq_comm]

/-- There are no problems exactly if the schema is well formed. -/
theorem problems_eq_nil_iff : schema.problems registry = [] ↔ schema.WellFormed registry := by
  rw [problems_eq, List.append_eq_nil_iff, found_draft, List.flatMap_eq_nil_iff, wellFormed_iff]
  simp only [List.map_eq_nil_iff]

/-- What the standard analysis accepts: a well-formed schema in which no name leads back to
itself. -/
theorem exists_compile_iff : (∃ p, schema.compile registry = .ok p) ↔
    schema.WellFormed registry ∧ ∀ name, ¬ Relation.TransGen schema.Depends name name := by
  have hanalyze : (∃ a, schema.analyzeWith Pass.standard registry = .ok a) ↔
      (Pass.runAll Pass.standard registry schema).2 = [] := by
    rw [analyzeWith]
    rcases Pass.runAll Pass.standard registry schema with ⟨survey, found⟩
    cases found <;> simp
  rw [compile, compileWith, exists_map_eq_ok_iff, hanalyze, found_runAll_standard,
    ← problems_eq_nil_iff, ← circles_eq_nil_iff]
  simp only [List.append_eq_nil_iff]
  tauto

/-- Of all that is reported, what is no circle are the problems. -/
theorem filter_eraseDups :
    ((schema.problems registry ++ schema.circles registry ++
        schema.circles registry).eraseDups.filter fun d => !d.issue.isCycle) =
      (schema.problems registry).eraseDups := by
  have hproblems : ((schema.problems registry).filter fun d => !d.issue.isCycle) =
      schema.problems registry := by
    apply List.filter_eq_self.2
    intro d hd
    rw [isCycle_of_mem_problems hd]
    rfl
  have hcircles : ((schema.circles registry).filter fun d => !d.issue.isCycle) = [] := by
    apply List.filter_eq_nil_iff.2
    intro d hd
    rw [isCycle_of_mem_circles hd]
    exact Bool.false_ne_true
  rw [← eraseDups_filter, List.filter_append, List.filter_append, hproblems, hcircles,
    List.append_nil, List.append_nil]

/-- Of all that is reported, the rest are the circles. -/
theorem filter_isCycle_eraseDups :
    ((schema.problems registry ++ schema.circles registry ++
        schema.circles registry).eraseDups.filter fun d => d.issue.isCycle) =
      (schema.circles registry).eraseDups := by
  have hproblems : ((schema.problems registry).filter fun d => d.issue.isCycle) = [] := by
    apply List.filter_eq_nil_iff.2
    intro d hd
    rw [isCycle_of_mem_problems hd]
    exact Bool.false_ne_true
  have hcircles : ((schema.circles registry).filter fun d => d.issue.isCycle) =
      schema.circles registry :=
    List.filter_eq_self.2 fun d => isCycle_of_mem_circles
  have htwice : (schema.circles registry).removeAll (schema.circles registry) = [] := by
    simp [List.removeAll]
  rw [← eraseDups_filter, List.filter_append, List.filter_append, hproblems, hcircles,
    List.nil_append, List.eraseDups_append, htwice, List.eraseDups_nil, List.append_nil]

/-- The standard analysis reports exactly the problems of a schema. It turns a schema
down if and only if there is a problem or a circle of references; and then it reports
the problems, each once and in order, and a circle if and only if there is one. -/
theorem diagnostics_of_analyze (schema : Schema) (registry : Registry) :
    ((∃ e, schema.analyze registry = .error e) ↔
      schema.problems registry ≠ [] ∨ ∃ name, Relation.TransGen schema.Depends name name) ∧
    ∀ e, schema.analyze registry = .error e →
      (e.diagnostics.filter fun d => !d.issue.isCycle) = (schema.problems registry).eraseDups ∧
      ((∃ d ∈ e.diagnostics, d.issue.isCycle = true) ↔
        ∃ name, Relation.TransGen schema.Depends name name) := by
  have hcircles : schema.circles registry ≠ [] ↔
      ∃ name, Relation.TransGen schema.Depends name name := by
    rw [Ne, circles_eq_nil_iff, not_forall_not]
  refine ⟨?_, fun e he => ?_⟩
  · rw [← hcircles, analyze]
    simp only [analyzeWith_eq_error_iff, exists_and_left, exists_eq, and_true,
      found_runAll_standard, Ne, List.append_eq_nil_iff]
    tauto
  · obtain ⟨-, rfl⟩ := analyzeWith_eq_error_iff.1 he
    rw [found_runAll_standard]
    refine ⟨filter_eraseDups, ?_⟩
    rw [← hcircles]
    constructor
    · rintro ⟨d, hd, hcycle⟩ hnil
      rw [hnil, List.append_nil, List.append_nil, List.mem_eraseDups] at hd
      rw [isCycle_of_mem_problems hd] at hcycle
      cases hcycle
    · intro hne
      obtain ⟨d, hd⟩ := List.exists_mem_of_ne_nil _ hne
      exact ⟨d, List.mem_eraseDups.2 (List.mem_append_right _ hd), isCycle_of_mem_circles hd⟩

end Schema

namespace Example

/-- A bill with a fault of every kind: a total that is declared twice, the second time
without an expression, and depends on a tax that depends on it. -/
def tangledBill : Schema where
  attributes :=
    [⟨.attribute, "total", some (.call "add" [.binding "tax", .binding "net", .binding "net"]),
        some ⟨"bill", 1, 1⟩⟩,
      ⟨.attribute, "tax", some (.call "not" [.call "rate" [], .binding "total"]), none⟩]
  traits := [⟨.trait, "total", none, some ⟨"bill", 2, 1⟩⟩]
  functions := [⟨.function, "round", none, none⟩]

theorem diagnostics_of_analyze_tangledBill :
    ∃ e, tangledBill.analyze .builtins = .error e ∧
      (e.diagnostics.filter fun d => !d.issue.isCycle) =
        [⟨some ⟨"bill", 2, 1⟩, .duplicateDefinition "total"⟩,
          ⟨some ⟨"bill", 1, 1⟩, .undefinedReference "net"⟩,
          ⟨none, .arityMismatch "not" 1 2⟩, ⟨none, .unsupportedOperator "rate"⟩,
          ⟨some ⟨"bill", 2, 1⟩, .traitNotCall "total"⟩,
          ⟨none, .missingExpression .function "round"⟩] ∧
      (∃ d ∈ e.diagnostics, d.issue.isCycle = true) ∧
      ∃ name, Relation.TransGen tangledBill.Depends name name := by
  have hcycle : ((fault? (tangledBill.analyze .builtins)).map fun e =>
      e.diagnostics.any (·.issue.isCycle)) = some true := by
    decide +kernel
  obtain ⟨e, he, hany⟩ := Option.map_eq_some_iff.1 hcycle
  rw [fault?_eq_some_iff] at he
  obtain ⟨hproblems, hcircle⟩ := (Schema.diagnostics_of_analyze tangledBill .builtins).2 e he
  have hreported := List.any_eq_true.1 hany
  exact ⟨e, he, hproblems.trans (by decide +kernel), hreported, hcircle.1 hreported⟩

end Example

end Rulebook
