/-
# Loops

A walk that comes back to where it has been closes a loop: the part of the walk since then,
read in the direction of the walk. It is made of steps of the walk alone, and it comes to
nothing twice but to the place where it starts and ends.
-/

import Mathlib.Data.List.Chain
import Mathlib.Data.List.Nodup
import Mathlib.Logic.Relation
import Rulebook.Walk

namespace Rulebook

variable {α β : Type} {Step : α → α → Prop} {path : List α}

/-- A path along steps that ends where it starts, and comes to nothing else twice. -/
structure IsLoop (Step : α → α → Prop) (path : List α) : Prop where
  chain : path.IsChain Step
  closed : path.head? = path.getLast?
  two_le_length : 2 ≤ path.length
  nodup : path.tail.Nodup

/-- A step back into a walk closes a loop, if the walk comes to nothing twice. -/
theorem isLoop_closedPath [DecidableEq α] {walk : List α} {x : α}
    (hchain : (x :: walk).IsChain fun next outer => Step outer next) (hnodup : walk.Nodup)
    (hx : x ∈ walk) : IsLoop Step (closedPath walk x) where
  chain := by
    -- Read backward, the closed path is the node with the beginning of the walk.
    obtain ⟨newer, older, rfl, hnewer⟩ := List.eq_append_cons_of_mem hx
    have hbackward : closedPath (newer ++ x :: older) x = (x :: newer ++ [x]).reverse := by
      rw [closedPath_append hnewer]
      simp
    have hbegins : x :: newer ++ [x] <+: x :: (newer ++ x :: older) := ⟨older, by simp⟩
    rw [hbackward, List.isChain_reverse]
    exact hchain.prefix hbegins
  closed := by rw [head?_closedPath, getLast?_closedPath]
  two_le_length := by simp [closedPath]
  nodup := by
    obtain ⟨newer, older, rfl, hnewer⟩ := List.eq_append_cons_of_mem hx
    rw [closedPath_append hnewer, List.cons_append, List.tail_cons]
    simpa [List.nodup_append, hnewer, (List.nodup_append.1 hnodup).1] using
      fun x hx => ne_of_mem_of_not_mem hx hnewer

/-- A loop stays one under another naming of its places, if no two of them get one name. -/
theorem IsLoop.map {Step' : β → β → Prop} {f : α → β} (h : IsLoop Step path)
    (hstep : ∀ a b, Step a b → Step' (f a) (f b))
    (hinj : ∀ a ∈ path, ∀ b ∈ path, f a = f b → a = b) :
    IsLoop Step' (path.map f) where
  chain := by
    rw [List.isChain_map]
    exact h.chain.imp hstep
  closed := by rw [List.head?_map, List.getLast?_map, h.closed]
  two_le_length := by simpa using h.two_le_length
  nodup := by
    rw [← List.map_tail]
    refine List.Nodup.map_on (fun a ha b hb hab => ?_) h.nodup
    exact hinj a (List.mem_of_mem_tail ha) b (List.mem_of_mem_tail hb) hab

/-- What falls along every step falls along every path of steps, so none of them closes. -/
theorem lt_of_transGen {rank : α → Nat} (hstep : ∀ a b, Step a b → rank b < rank a) {a b : α}
    (h : Relation.TransGen Step a b) : rank b < rank a := by
  induction h with
  | single hab => exact hstep _ _ hab
  | tail _ hbc ih => exact (hstep _ _ hbc).trans ih

end Rulebook
