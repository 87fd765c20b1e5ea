/-
# What the first two passes find

The pass over names and the pass over shapes thread a state through the
declarations and through every expression tree. Here both are taken apart: the
walk over a tree is a fold over its nodes, and what a fold reports and draws is
written down declaration by declaration and node by node, with no state left. A
schema of which both passes report nothing is well formed.
-/

import Rulebook.Analysis.Cycles
import Rulebook.Analysis.Names
import Rulebook.Analysis.Shapes
import Rulebook.Proofs.Occurrence

namespace Rulebook

theorem Graph.mem_targets_iff {g : Graph} {n m : String} :
    m ∈ g.targets n ↔ ∃ targets, g.find? n = some targets ∧ m ∈ targets := by
  unfold targets
  cases g.find? n <;> simp [NameSet.mem_iff_mem_names]

/-! ## Repeated names -/

namespace Names

/-- The reports on declarations whose name was seen before or stands earlier in
the list. -/
def repeats (seen : List String) : List Declaration → List Diagnostic
  | [] => []
  | d :: rest =>
    (if d.name ∈ seen then [⟨d.location, .duplicateDefinition d.name⟩] else []) ++
      repeats (d.name :: seen) rest

theorem repeats_eq_nil_iff {seen : List String} {ds : List Declaration} :
    repeats seen ds = [] ↔ (ds.map (·.name)).Nodup ∧ ∀ d ∈ ds, d.name ∉ seen := by
  induction ds generalizing seen with
  | nil => simp [repeats]
  | cons d rest ih =>
      rw [repeats, List.append_eq_nil_iff, ih, List.map_cons, List.nodup_cons]
      by_cases hseen : d.name ∈ seen
      · simp [hseen]
      · simp only [hseen, if_false, List.mem_cons, List.mem_map, not_or]
        grind

variable {definitions : NameMap Declaration} {found : List Diagnostic} {ds : List Declaration}

/-- The last declaration of a name replaces all earlier ones. -/
theorem find?_foldl_step (name : String) :
    (ds.foldl step (definitions, found)).1.find? name =
      (ds.reverse.find? (·.name = name)).or (definitions.find? name) := by
  induction ds generalizing definitions found with
  | nil => simp
  | cons d rest ih =>
      rw [List.foldl_cons, step, ih, List.reverse_cons, List.find?_append]
      by_cases hd : d.name = name
      · subst hd
        cases rest.reverse.find? (·.name = d.name) <;> simp
      · rw [NameMap.find?_insert_of_ne _ (Ne.symm hd)]
        cases rest.reverse.find? (·.name = name) <;> simp [hd]

theorem found_foldl_step {seen : List String}
    (hseen : ∀ name, definitions.contains name = true ↔ name ∈ seen) :
    (ds.foldl step (definitions, found)).2 = found ++ repeats seen ds := by
  induction ds generalizing definitions found seen with
  | nil => simp [repeats]
  | cons d rest ih =>
      have hnext : ∀ name, (definitions.insert d.name d).contains name = true ↔
          name ∈ d.name :: seen := by
        intro name
        rw [NameMap.contains, ← NameMap.mem_names_iff, NameMap.mem_names_insert,
          NameMap.mem_names_iff, ← NameMap.contains, hseen, List.mem_cons]
      rw [List.foldl_cons, step, ih hnext, repeats]
      by_cases hd : d.name ∈ seen
      · simp [hd, (hseen d.name).2 hd]
      · simp [hd, mt (hseen d.name).1 hd]

end Names

/-- Each declared name with its last declaration. -/
def Schema.definitions (schema : Schema) : NameMap Declaration :=
  (schema.declarations.foldl Names.step (∅, [])).1

theorem Schema.find?_definitions (schema : Schema) (name : String) :
    schema.definitions.find? name = schema.find? name := by
  rw [definitions, Names.find?_foldl_step, NameMap.find?_empty, Option.or_none, find?]

theorem Schema.contains_definitions (schema : Schema) (name : String) :
    schema.definitions.contains name = true ↔ name ∈ schema.names := by
  rw [NameMap.contains, find?_definitions, find?_isSome_iff]

/-! ## Shapes -/

namespace Shapes

variable (registry : Registry) (definitions : NameMap Declaration) (d : Declaration)

/-- What the walk does at one node, the nodes below it left out. -/
def visitNode (w : Draft) : Expr → Draft
  | .literal v => w.keepLeaf d.name (.literal v)
  | .field name => w.keepLeaf d.name (.field name)
  | .binding name => checkBinding definitions d w name
  | .call function args => checkCall registry d w function args.length
  | .list _ | .cascade _ _ => w

mutual

/-- A walk over a tree takes its nodes one by one. -/
theorem visit_eq_foldl : ∀ (e : Expr) (w : Draft),
    visit registry definitions d e w = e.nodes.foldl (visitNode registry definitions d) w
  | .literal _, _ | .field _, _ | .binding _, _ => rfl
  | .list items, w => by
    rw [visit, Expr.nodes, List.foldl_cons, visitList_eq_foldl items, visitNode]
  | .call function args, w => by
    rw [visit, Expr.nodes, List.foldl_cons, visitList_eq_foldl args, visitNode]
  | .cascade cases none, w => by
    rw [visit, Expr.nodes, List.foldl_cons, visitCases_eq_foldl cases, visitNode]
  | .cascade cases (some e), w => by
    rw [visit, Expr.nodes, List.foldl_cons, List.foldl_append, visitCases_eq_foldl cases,
      visit_eq_foldl e, visitNode]

theorem visitList_eq_foldl : ∀ (es : List Expr) (w : Draft),
    visitList registry definitions d es w =
      (Expr.nodesOfList es).foldl (visitNode registry definitions d) w
  | [], _ => rfl
  | e :: rest, w => by
    rw [visitList, Expr.nodesOfList, List.foldl_append, visit_eq_foldl e,
      visitList_eq_foldl rest]

theorem visitCases_eq_foldl : ∀ (cases : List Case) (w : Draft),
    visitCases registry definitions d cases w =
      (Expr.nodesOfCases cases).foldl (visitNode registry definitions d) w
  | [], _ => rfl
  | ⟨condition, result⟩ :: rest, w => by
    rw [visitCases, Expr.nodesOfCases, List.foldl_append, List.foldl_append,
      visit_eq_foldl condition, visit_eq_foldl result, visitCases_eq_foldl rest]

end

/-! ### Reports -/

/-- What is wrong with the form of a declaration. -/
def formIssues : List Issue :=
  match d.kind, d.expression with
  | .trait, some (.call _ _) => []
  | .trait, _ => [.traitNotCall d.name]
  | kind, none => [.missingExpression kind d.name]
  | _, some _ => []

/-- What is wrong with one node, the nodes below it left out. -/
def nodeIssues : Expr → List Issue
  | .binding name => if definitions.contains name then [] else [.undefinedReference name]
  | .call function args =>
    match registry.find? function with
    | none => [.unsupportedOperator function]
    | some f =>
      match f.arity with
      | .any => []
      | .exactly expected =>
        if expected = args.length then [] else [.arityMismatch function expected args.length]
  | _ => []

/-- Everything that is wrong with a declaration: its form, then its nodes in order. -/
def issues : List Issue :=
  formIssues d ++ match d.expression with
    | some e => e.nodes.flatMap (nodeIssues registry definitions)
    | none => []

theorem found_visitNode (w : Draft) (x : Expr) :
    (visitNode registry definitions d w x).found =
      w.found ++ (nodeIssues registry definitions x).map (⟨d.location, ·⟩) := by
  cases x with
  | binding name =>
      simp only [visitNode, checkBinding, nodeIssues]
      split <;> simp [Draft.link, Draft.report]
  | call function args =>
      simp only [visitNode, checkCall, nodeIssues]
      cases registry.find? function with
      | none => simp [Draft.report]
      | some f =>
          obtain ⟨arity, body⟩ := f
          cases arity with
          | any => simp
          | exactly expected => by_cases h : expected = args.length <;> simp [Draft.report, h]
  | _ => simp [visitNode, nodeIssues, Draft.keepLeaf]

theorem found_foldl_visitNode (xs : List Expr) (w : Draft) :
    (xs.foldl (visitNode registry definitions d) w).found =
      w.found ++ (xs.flatMap (nodeIssues registry definitions)).map (⟨d.location, ·⟩) := by
  induction xs generalizing w with
  | nil => simp
  | cons x rest ih => rw [List.foldl_cons, ih, found_visitNode]; simp

theorem found_checkForm (w : Draft) :
    (checkForm d w).found = w.found ++ (formIssues d).map (⟨d.location, ·⟩) := by
  unfold checkForm formIssues
  split <;> simp_all [Draft.report]

theorem found_step (w : Draft) :
    (step registry definitions d w).found =
      w.found ++ (issues registry definitions d).map (⟨d.location, ·⟩) := by
  unfold step issues
  cases d.expression with
  | none => simp [found_checkForm, Draft.enter]
  | some e => simp [visit_eq_foldl, found_foldl_visitNode, found_checkForm, Draft.enter]

/-- The reports of the pass are those on each declaration, in encounter order. -/
theorem found_foldl_step (ds : List Declaration) (w : Draft) :
    (ds.foldl (fun w d => step registry definitions d w) w).found =
      w.found ++ ds.flatMap fun d =>
        (issues registry definitions d).map (⟨d.location, ·⟩) := by
  induction ds generalizing w with
  | nil => simp
  | cons d rest ih => rw [List.foldl_cons, ih, found_step]; simp

/-! ### The graph -/

theorem mem_names_update {g : Graph} {name n : String} {f : NameSet → NameSet} :
    n ∈ (g.update name ∅ f).names ↔ n = name ∨ n ∈ g.names :=
  NameMap.mem_names_insert

/-- An edge that is drawn is the only edge that is new. -/
theorem mem_targets_link {g : Graph} {source target n m : String} :
    m ∈ Graph.targets (g.update source ∅ (·.add target)) n ↔
      m ∈ g.targets n ∨ n = source ∧ m = target := by
  by_cases hn : n = source
  · subst hn
    cases hfind : g.find? n <;>
      simp [Graph.mem_targets_iff, hfind, or_comm]
  · simp [Graph.mem_targets_iff, NameMap.find?_update_of_ne _ hn, hn]

/-- To give a name a place draws no edge. -/
theorem mem_targets_enter {w : Draft} {name n m : String} :
    m ∈ (w.enter name).graph.targets n ↔ m ∈ w.graph.targets n := by
  by_cases hn : n = name
  · subst hn
    cases hfind : w.graph.find? n <;>
      simp [Graph.mem_targets_iff, Draft.enter, hfind]
  · simp [Graph.mem_targets_iff, Draft.enter, NameMap.find?_update_of_ne _ hn]

theorem graph_checkForm (w : Draft) : (checkForm d w).graph = w.graph := by
  unfold checkForm
  split <;> simp [Draft.report]

variable {registry definitions d}

theorem mem_targets_visitNode {w : Draft} {x : Expr} {n m : String} :
    m ∈ (visitNode registry definitions d w x).graph.targets n ↔
      m ∈ w.graph.targets n ∨
        n = d.name ∧ definitions.contains m = true ∧ x = .binding m := by
  cases x with
  | binding name =>
      simp only [visitNode, checkBinding]
      split
      · rename_i hdeclared
        rw [Draft.link, mem_targets_link]
        grind
      · simp only [Draft.report]
        grind
  | call function args =>
      have hgraph : (checkCall registry d w function args.length).graph = w.graph := by
        unfold checkCall
        grind [Draft.report]
      simp [visitNode, hgraph]
  | _ => simp [visitNode, Draft.keepLeaf]

/-- The walk draws edges from its declaration only, which has a place already. -/
theorem mem_names_visitNode {w : Draft} {x : Expr} (hd : d.name ∈ w.graph.names) {n : String} :
    n ∈ (visitNode registry definitions d w x).graph.names ↔ n ∈ w.graph.names := by
  cases x with
  | binding name =>
      simp only [visitNode, checkBinding]
      split
      · rw [Draft.link, mem_names_update]
        grind
      · rfl
  | call function args =>
      have hgraph : (checkCall registry d w function args.length).graph = w.graph := by
        unfold checkCall
        grind [Draft.report]
      rw [visitNode, hgraph]
  | _ => rfl

theorem mem_targets_foldl_visitNode {xs : List Expr} {w : Draft} {n m : String} :
    m ∈ (xs.foldl (visitNode registry definitions d) w).graph.targets n ↔
      m ∈ w.graph.targets n ∨
        n = d.name ∧ definitions.contains m = true ∧ .binding m ∈ xs := by
  induction xs generalizing w with
  | nil => simp
  | cons x rest ih =>
      rw [List.foldl_cons, ih, mem_targets_visitNode, List.mem_cons]
      grind

theorem mem_names_foldl_visitNode {xs : List Expr} {w : Draft} (hd : d.name ∈ w.graph.names)
    {n : String} :
    n ∈ (xs.foldl (visitNode registry definitions d) w).graph.names ↔ n ∈ w.graph.names := by
  induction xs generalizing w with
  | nil => rfl
  | cons x rest ih =>
      rw [List.foldl_cons, ih ((mem_names_visitNode hd).2 hd), mem_names_visitNode hd]

theorem mem_targets_step {w : Draft} {n m : String} :
    m ∈ (step registry definitions d w).graph.targets n ↔
      m ∈ w.graph.targets n ∨
        n = d.name ∧ definitions.contains m = true ∧
          ∃ e, d.expression = some e ∧ .binding m ∈ e.nodes := by
  unfold step
  cases d.expression with
  | none => simp [graph_checkForm, mem_targets_enter]
  | some e =>
      simp [visit_eq_foldl, mem_targets_foldl_visitNode, graph_checkForm, mem_targets_enter]

theorem mem_names_step {w : Draft} {n : String} :
    n ∈ (step registry definitions d w).graph.names ↔ n = d.name ∨ n ∈ w.graph.names := by
  have hentered : n ∈ (checkForm d (w.enter d.name)).graph.names ↔
      n = d.name ∨ n ∈ w.graph.names := by
    rw [graph_checkForm, Draft.enter, mem_names_update]
  have hself : d.name ∈ (checkForm d (w.enter d.name)).graph.names := by
    rw [graph_checkForm, Draft.enter, mem_names_update]
    exact .inl rfl
  unfold step
  cases d.expression with
  | none => exact hentered
  | some e =>
      dsimp only
      rw [visit_eq_foldl, mem_names_foldl_visitNode hself, hentered]

/-- The pass draws an edge for every reference to a declared name, and no other. -/
theorem mem_targets_foldl_step {ds : List Declaration} {w : Draft} {n m : String} :
    m ∈ (ds.foldl (fun w d => step registry definitions d w) w).graph.targets n ↔
      m ∈ w.graph.targets n ∨ definitions.contains m = true ∧
        ∃ d ∈ ds, d.name = n ∧ ∃ e, d.expression = some e ∧ .binding m ∈ e.nodes := by
  induction ds generalizing w with
  | nil => simp
  | cons d rest ih =>
      rw [List.foldl_cons, ih, mem_targets_step]
      simp only [List.mem_cons, exists_eq_or_imp]
      grind

/-- The pass gives every declaration a place in the graph. -/
theorem mem_names_foldl_step {ds : List Declaration} {w : Draft} {n : String} :
    n ∈ (ds.foldl (fun w d => step registry definitions d w) w).graph.names ↔
      n ∈ w.graph.names ∨ n ∈ ds.map (·.name) := by
  induction ds generalizing w with
  | nil => simp
  | cons d rest ih =>
      rw [List.foldl_cons, ih, mem_names_step, List.map_cons, List.mem_cons]
      grind

end Shapes

end Rulebook
