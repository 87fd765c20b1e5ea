/-
# The leaves under a name

What the pass over shapes gathers: the fields and literals that stand in the declarations of
a name, in encounter order, a node before the nodes below it, and of equal ones the first
only. The pass threads all names through one state; here the leaves of a name are read off
its own declarations.
-/

import Mathlib.Data.List.Induction
import Rulebook.Proofs.Acceptance
import Rulebook.Proofs.Comparison

namespace Rulebook

/-! ## Leaves of declarations -/

namespace Leaf

/-- Of equal leaves the first only: those that no leaf before them is equal to. -/
def distinct (leaves : List Leaf) : List Leaf :=
  (leaves.zipIdx.filter fun x => (leaves.take x.2).all fun earlier => !earlier.same x.1).map
    Prod.fst

theorem same_field_iff {leaf : Leaf} {name : String} :
    leaf.same (.field name) = true ↔ leaf = .field name := by
  cases leaf <;> simp [same]

theorem same_trans {a b c : Leaf} (hab : a.same b = true) (hbc : b.same c = true) :
    a.same c = true := by
  cases b with
  | field name => exact same_field_iff.1 hab ▸ hbc
  | literal w =>
      cases a with
      | field name => cases hab
      | literal v =>
          cases c with
          | field name => cases hbc
          | literal u => exact Value.same_trans hab hbc

theorem distinct_sublist (leaves : List Leaf) : (distinct leaves).Sublist leaves := by
  have h := (List.filter_sublist (l := leaves.zipIdx) (p := fun x =>
    (leaves.take x.2).all fun earlier => !earlier.same x.1)).map Prod.fst
  rwa [List.zipIdx_map_fst] at h

/-- A leaf at the end is left out if one before it is equal to it. -/
theorem distinct_append_singleton (leaves : List Leaf) (leaf : Leaf) :
    distinct (leaves ++ [leaf]) =
      distinct leaves ++ if leaves.any (·.same leaf) then [] else [leaf] := by
  have hbefore : ∀ x ∈ leaves.zipIdx, (leaves ++ [leaf]).take x.2 = leaves.take x.2 :=
    fun x hx => List.take_append_of_le_length (Nat.le_of_lt (List.snd_lt_of_mem_zipIdx hx))
  unfold distinct
  rw [List.zipIdx_append, List.filter_append, List.map_append]
  congr 1
  · refine congrArg (List.map Prod.fst) (List.filter_congr fun x hx => ?_)
    rw [hbefore x hx]
  · rw [List.zipIdx_singleton, Nat.zero_add, List.filter_singleton, List.take_left,
      ← List.not_any_eq_all_not]
    cases leaves.any (·.same leaf) <;> rfl

/-- Any leaf before another that is equal to it, or only those of them that are kept: it
makes no difference, since what stands for a leaf stands for all that this one is equal to. -/
theorem any_distinct (leaves : List Leaf) (leaf : Leaf) :
    (distinct leaves).any (·.same leaf) = leaves.any (·.same leaf) := by
  suffices h : ∀ other ∈ leaves, ∀ leaf, other.same leaf = true →
      ∃ kept ∈ distinct leaves, kept.same leaf = true by
    rw [Bool.eq_iff_iff, List.any_eq_true, List.any_eq_true]
    exact ⟨fun ⟨kept, hkept, hsame⟩ => ⟨kept, (distinct_sublist leaves).mem hkept, hsame⟩,
      fun ⟨other, hother, hsame⟩ => h other hother leaf hsame⟩
  induction leaves using List.reverseRecOn with
  | nil => simp
  | append_singleton before last ih =>
      intro other hother leaf hsame
      rw [distinct_append_singleton]
      rcases List.mem_append.1 hother with hbefore | hlast
      · obtain ⟨kept, hkept, hsame'⟩ := ih other hbefore leaf hsame
        exact ⟨kept, List.mem_append_left _ hkept, hsame'⟩
      · obtain rfl := List.mem_singleton.1 hlast
        by_cases hany : before.any (·.same other) = true
        · obtain ⟨earlier, hearlier, hsame'⟩ := List.any_eq_true.1 hany
          obtain ⟨kept, hkept, hkeep⟩ := ih earlier hearlier leaf (same_trans hsame' hsame)
          exact ⟨kept, List.mem_append_left _ hkept, hkeep⟩
        · rw [if_neg hany]
          exact ⟨other, List.mem_append_right _ (List.mem_singleton_self other), hsame⟩

/-- Keep a leaf, unless an equal one is kept already. -/
def keep (kept : List Leaf) (leaf : Leaf) : List Leaf :=
  if kept.any (·.same leaf) then kept else kept ++ [leaf]

/-- To go through leaves and keep each that is new is to take the first of all equal ones. -/
theorem foldl_keep (before leaves : List Leaf) :
    leaves.foldl keep (distinct before) = distinct (before ++ leaves) := by
  induction leaves generalizing before with
  | nil => rw [List.append_nil, List.foldl_nil]
  | cons leaf rest ih =>
      have hstep : keep (distinct before) leaf = distinct (before ++ [leaf]) := by
        rw [keep, any_distinct, distinct_append_singleton]
        split <;> simp
      rw [List.foldl_cons, hstep, ih, List.append_assoc, List.singleton_append]

/-- No two of the leaves that are kept are equal. -/
theorem pairwise_distinct (leaves : List Leaf) :
    (distinct leaves).Pairwise fun a b => a.same b = false := by
  induction leaves using List.reverseRecOn with
  | nil => exact List.Pairwise.nil
  | append_singleton before last ih =>
      rw [distinct_append_singleton, ← any_distinct]
      split
      · rwa [List.append_nil]
      · rename_i hnone
        refine List.pairwise_append.2 ⟨ih, List.pairwise_singleton _ _, fun a ha b hb => ?_⟩
        rw [List.mem_singleton.1 hb]
        simpa using fun hsame => hnone (List.any_eq_true.2 ⟨a, ha, hsame⟩)

/-- Equal fields are the same, so none is lost. -/
theorem field_mem_distinct {leaves : List Leaf} {name : String} :
    .field name ∈ distinct leaves ↔ .field name ∈ leaves := by
  have hany := any_distinct leaves (.field name)
  rw [Bool.eq_iff_iff, List.any_eq_true, List.any_eq_true] at hany
  simpa [same_field_iff] using hany

end Leaf

/-- The leaf that a node is, if it is one. -/
def Expr.leaf? : Expr → Option Leaf
  | .literal v => some (.literal v)
  | .field name => some (.field name)
  | _ => none

theorem Expr.leaf?_eq_field_iff {x : Expr} {name : String} :
    x.leaf? = some (.field name) ↔ x = .field name := by
  cases x <;> simp [leaf?]

/-- The leaves of the expression of a declaration, in the order of its nodes. -/
def Declaration.leaves (d : Declaration) : List Leaf :=
  match d.expression with
  | some e => e.nodes.filterMap Expr.leaf?
  | none => []

/-- The leaves that stand in the declarations of a name, in encounter order. -/
def Schema.leavesOf (schema : Schema) (name : String) : List Leaf :=
  schema.declarations.flatMap fun d => if d.name = name then d.leaves else []

theorem Schema.field_mem_leavesOf {schema : Schema} {name field : String} :
    .field field ∈ schema.leavesOf name ↔
      ∃ e, schema.Declares name e ∧ .field field ∈ e.nodes := by
  simp only [leavesOf, List.mem_flatMap, Declares]
  constructor
  · rintro ⟨d, hd, hleaf⟩
    split at hleaf
    · rename_i hname
      unfold Declaration.leaves at hleaf
      split at hleaf
      · rename_i e he
        obtain ⟨x, hx, hfield⟩ := List.mem_filterMap.1 hleaf
        exact ⟨e, ⟨d, hd, hname, he⟩, Expr.leaf?_eq_field_iff.1 hfield ▸ hx⟩
      · cases hleaf
    · cases hleaf
  · rintro ⟨e, ⟨d, hd, hname, he⟩, hx⟩
    refine ⟨d, hd, ?_⟩
    simp only [hname, if_true, Declaration.leaves, he]
    exact List.mem_filterMap.2 ⟨_, hx, rfl⟩

/-! ## What the pass gathers -/

namespace Shapes

/-- Keep a leaf of a name that may have had none so far. -/
def keepIn (kept : Option (List Leaf)) (leaf : Leaf) : Option (List Leaf) :=
  some (Leaf.keep (kept.getD []) leaf)

theorem foldl_keepIn_some (kept leaves : List Leaf) :
    leaves.foldl keepIn (some kept) = some (leaves.foldl Leaf.keep kept) := by
  induction leaves generalizing kept with
  | nil => rfl
  | cons leaf rest ih => exact ih (Leaf.keep kept leaf)

/-- A name has an entry as soon as it has a leaf. -/
theorem foldl_keepIn_none (leaves : List Leaf) :
    leaves.foldl keepIn none = if leaves = [] then none else some (Leaf.distinct leaves) := by
  cases leaves with
  | nil => rfl
  | cons leaf rest =>
      rw [if_neg nofun]
      exact (foldl_keepIn_some (Leaf.keep [] leaf) rest).trans
        (congrArg some (Leaf.foldl_keep [] (leaf :: rest)))

variable {registry : Registry} {definitions : NameMap Declaration} {d : Declaration}

theorem find?_keepLeaf (w : Draft) (name n : String) (leaf : Leaf) :
    (w.keepLeaf name leaf).leaves.find? n =
      if n = name then keepIn (w.leaves.find? n) leaf else w.leaves.find? n := by
  by_cases hn : n = name
  · subst hn
    rw [if_pos rfl]
    exact NameMap.find?_update_self _ _ _ _
  · rw [if_neg hn]
    exact NameMap.find?_update_of_ne _ hn _ _

theorem find?_leaves_visitNode (w : Draft) (x : Expr) (n : String) :
    (visitNode registry definitions d w x).leaves.find? n =
      if n = d.name then x.leaf?.toList.foldl keepIn (w.leaves.find? n)
      else w.leaves.find? n := by
  cases x with
  | literal v => exact find?_keepLeaf w d.name n _
  | field name => exact find?_keepLeaf w d.name n _
  | binding name =>
      have hleaves : (checkBinding definitions d w name).leaves = w.leaves := by
        unfold checkBinding
        split <;> rfl
      simp [visitNode, hleaves, Expr.leaf?]
  | call function args =>
      have hleaves : (checkCall registry d w function args.length).leaves = w.leaves := by
        unfold checkCall
        grind [Draft.report]
      simp [visitNode, hleaves, Expr.leaf?]
  | _ => simp [visitNode, Expr.leaf?]

theorem find?_leaves_foldl_visitNode (xs : List Expr) (w : Draft) (n : String) :
    (xs.foldl (visitNode registry definitions d) w).leaves.find? n =
      if n = d.name then (xs.filterMap Expr.leaf?).foldl keepIn (w.leaves.find? n)
      else w.leaves.find? n := by
  induction xs generalizing w with
  | nil => simp
  | cons x rest ih =>
      rw [List.foldl_cons, ih, find?_leaves_visitNode]
      by_cases hn : n = d.name
      · cases hleaf : x.leaf? <;> simp [hn, hleaf]
      · simp [hn]

theorem leaves_checkForm (w : Draft) : (checkForm d w).leaves = w.leaves := by
  unfold checkForm
  split <;> simp [Draft.report]

theorem find?_leaves_step (w : Draft) (n : String) :
    (step registry definitions d w).leaves.find? n =
      (if d.name = n then d.leaves else []).foldl keepIn (w.leaves.find? n) := by
  unfold step Declaration.leaves
  cases d.expression with
  | none => simp [leaves_checkForm, Draft.enter]
  | some e =>
      simp only [visit_eq_foldl, find?_leaves_foldl_visitNode, leaves_checkForm, Draft.enter]
      by_cases hn : d.name = n
      · simp [hn]
      · simp [hn, Ne.symm hn]

/-- The pass gathers under a name what stands in the declarations of the name. -/
theorem find?_leaves_foldl_step (ds : List Declaration) (w : Draft) (n : String) :
    (ds.foldl (fun w d => step registry definitions d w) w).leaves.find? n =
      (ds.flatMap fun d => if d.name = n then d.leaves else []).foldl keepIn
        (w.leaves.find? n) := by
  induction ds generalizing w with
  | nil => rfl
  | cons d rest ih =>
      rw [List.foldl_cons, ih, find?_leaves_step, List.flatMap_cons, List.foldl_append]

end Shapes

/-! ## The analysis -/

namespace Schema

variable {schema : Schema} {registry : Registry}

/-- The leaves of a name, each once; a name without leaves has no entry. -/
theorem find?_leaves_draft (name : String) :
    (schema.draft registry).leaves.find? name =
      if schema.leavesOf name = [] then none
      else some (Leaf.distinct (schema.leavesOf name)) := by
  rw [draft, Shapes.find?_leaves_foldl_step, NameMap.find?_empty, Shapes.foldl_keepIn_none]
  rfl

theorem leavesOf_of_analyze {a : Analysis} (h : schema.analyze registry = .ok a) (name : String) :
    a.leavesOf name = Leaf.distinct (schema.leavesOf name) := by
  obtain ⟨-, rfl⟩ := analysis_of_analyze h
  rw [Analysis.leavesOf, find?_leaves_draft]
  split
  · rename_i hnone
    rw [hnone]
    rfl
  · rfl

end Schema

end Rulebook
