/-
# Walks

A depth-first walk keeps the nodes it is inside, newest first. Coming back to
one of them closes a cycle; entering a new one leaves fewer nodes to enter,
which is why such walks end. Both facts are used by the static checks on the
dependency graph and by evaluation.
-/

namespace Rulebook

variable {α : Type} [DecidableEq α]

/-! ## Closed paths -/

/-- The way from a node on a walk back to itself: the node, the later part of the
walk, and the node again. -/
def closedPath (walk : List α) (x : α) : List α :=
  x :: (walk.takeWhile (· ≠ x)).reverse ++ [x]

theorem head?_closedPath (walk : List α) (x : α) : (closedPath walk x).head? = some x := rfl

theorem getLast?_closedPath (walk : List α) (x : α) :
    (closedPath walk x).getLast? = some x := by
  unfold closedPath
  exact List.getLast?_concat

/-- Only the part of the walk after the node matters. -/
theorem closedPath_append {newer older : List α} {x : α} (h : x ∉ newer) :
    closedPath (newer ++ x :: older) x = x :: newer.reverse ++ [x] := by
  have hnewer : ∀ y ∈ newer, decide (y ≠ x) = true := fun y hy => by
    simpa using fun hyx : y = x => h (hyx ▸ hy)
  unfold closedPath
  rw [List.takeWhile_append_of_pos hnewer, List.takeWhile_cons_of_neg (by simp)]
  simp

/-- The same way where the newest node stands last: from the first place of the node on, and
the node again. -/
def closedSlice (stack : List α) (x : α) : List α :=
  stack.drop ((stack.findIdx? (· = x)).getD 0) ++ [x]

/-- On a walk without repetitions it does not matter from which end the node is looked
for. -/
theorem closedSlice_reverse {walk : List α} (hwalk : walk.Nodup) {x : α} (hx : x ∈ walk) :
    closedSlice walk.reverse x = closedPath walk x := by
  obtain ⟨newer, older, rfl⟩ := List.append_of_mem hx
  obtain ⟨-, hrest, hapart⟩ := List.nodup_append.1 hwalk
  have hnewer : x ∉ newer := fun h => hapart x h x List.mem_cons_self rfl
  have holder : ∀ y ∈ older.reverse, decide (y = x) = false := fun y hy => by
    simpa using fun hyx : y = x => (List.nodup_cons.1 hrest).1 (hyx ▸ List.mem_reverse.1 hy)
  have hplace : (older.reverse ++ x :: newer.reverse).findIdx? (· = x) =
      some older.length := by
    rw [List.findIdx?_append, List.findIdx?_eq_none_iff.2 holder]
    simp [List.findIdx?_cons]
  have hreverse : (newer ++ x :: older).reverse = older.reverse ++ x :: newer.reverse := by
    simp
  rw [closedPath_append hnewer, hreverse, closedSlice, hplace, Option.getD_some,
    List.drop_left' List.length_reverse]

/-- A closed path does not leave the walk. -/
theorem mem_of_mem_closedPath {walk : List α} {x y : α} (hx : x ∈ walk)
    (hy : y ∈ closedPath walk x) : y ∈ walk := by
  unfold closedPath at hy
  rcases List.mem_append.1 hy with hy | hy
  · rcases List.mem_cons.1 hy with rfl | hy
    · exact hx
    · exact (List.takeWhile_sublist _).mem (List.mem_reverse.1 hy)
  · rwa [List.mem_singleton.1 hy]

/-- A closed path comes back over the newest node of the walk. -/
theorem exists_closedPath_eq (newest : α) (older : List α) (x : α) :
    ∃ front, closedPath (newest :: older) x = front ++ [newest, x] := by
  by_cases h : newest = x
  · subst h
    exact ⟨[], by simp [closedPath]⟩
  · exact ⟨x :: (older.takeWhile (· ≠ x)).reverse, by simp [closedPath, h]⟩

/-! ## Termination -/

/-- How many of the given nodes a walk is not inside. -/
def nodesLeft (nodes walk : List α) : Nat := (nodes.filter (· ∉ walk)).length

@[simp]
theorem nodesLeft_nil (nodes : List α) : nodesLeft nodes [] = nodes.length := by
  simp [nodesLeft]

/-- Entering one of the nodes leaves fewer. -/
theorem nodesLeft_cons_lt {nodes walk : List α} {x : α} (hx : x ∈ nodes) (hnew : x ∉ walk) :
    nodesLeft nodes (x :: walk) < nodesLeft nodes walk := by
  have hle : ∀ ys : List α, nodesLeft ys (x :: walk) ≤ nodesLeft ys walk := fun ys => by
    induction ys with
    | nil => simp [nodesLeft]
    | cons y rest ih =>
        simp only [nodesLeft, List.filter_cons, List.mem_cons, not_or] at ih ⊢
        grind
  induction nodes with
  | nil => cases hx
  | cons y rest ih =>
      by_cases hyx : y = x
      · subst hyx
        have := hle rest
        simp only [nodesLeft, List.filter_cons, List.mem_cons, true_or, not_true] at this ⊢
        simp only [decide_false, hnew, not_false_eq_true, decide_true]
        simp only [Bool.false_eq_true, if_false, if_true, List.length_cons]
        omega
      · have := ih ((List.mem_cons.1 hx).resolve_left (Ne.symm hyx))
        simp only [nodesLeft, List.filter_cons, List.mem_cons, not_or] at this ⊢
        grind

/-- A budget larger than the number of nodes left has one to spend on entering one of them. -/
theorem nodesLeft_cons_lt_of_lt_succ {nodes walk : List α} {budget : Nat}
    (hbudget : nodesLeft nodes walk < budget + 1) {x : α} (hx : x ∈ nodes) (hnew : x ∉ walk) :
    nodesLeft nodes (x :: walk) < budget :=
  Nat.lt_of_lt_of_le (nodesLeft_cons_lt hx hnew) (Nat.le_of_lt_succ hbudget)

/-- What holds of a walk as soon as it holds of every longer one by a node to enter
holds of all walks. -/
theorem walk_induction (nodes : List α) {P : List α → Prop}
    (step : ∀ walk, (∀ x ∈ nodes, x ∉ walk → P (x :: walk)) → P walk) (walk : List α) :
    P walk := by
  induction hleft : nodesLeft nodes walk using Nat.strongRecOn generalizing walk with
  | ind left ih =>
      subst hleft
      exact step walk fun x hx hnew => ih _ (nodesLeft_cons_lt hx hnew) _ rfl

end Rulebook
