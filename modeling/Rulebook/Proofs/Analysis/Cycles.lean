/-
# Circles in a graph

The search for cycles and the sort go through a graph in the same way, and so they
report the same circles. What they report is real: every path leads along edges from
its first name back to it, and comes to no other name twice. And there is something to
report exactly where some name leads back to itself.
-/

import Mathlib.Data.List.Chain
import Rulebook.Proofs.Analysis.Order
import Rulebook.Proofs.Loops

namespace Rulebook

/-! ## The search beside the sort -/

namespace Cycles

/-- A search and a sort have come equally far inside a walk: what was entered has been
left since, or is on the walk; and both have met the same circles. -/
structure Matches (walk : List String) (s : Search) (t : Order.Sorting) : Prop where
  visited : ∀ x, x ∈ s.visited ↔ x ∈ t.order ∨ x ∈ walk
  cycles : s.cycles = t.cycles

variable {g : Graph}

/-- From a node the search and the sort come equally far. -/
theorem search_matches (walk : List String) : ∀ (node : String) (s : Search) (t : Order.Sorting),
    Matches walk s t → Matches walk (search g walk node s) (Order.sort g walk node t) := by
  induction walk using walk_induction g.names with
  | step walk ih =>
      intro node s t h
      by_cases hwalk : node ∈ walk
      · rw [search_of_mem hwalk, Order.sort_of_mem hwalk, h.cycles]
        exact ⟨h.visited, rfl⟩
      have hvisited : node ∈ s.visited ↔ node ∈ t.order := by simp [h.visited, hwalk]
      by_cases hleft : node ∈ t.order
      · rw [search_of_visited hwalk (hvisited.2 hleft), Order.sort_of_left hwalk hleft]
        exact h
      rw [search_of_new hwalk (hvisited.not.2 hleft), Order.sort_of_new hwalk hleft]
      -- Once a node is entered it is on the walk; when it is left it is listed.
      have hentered : Matches (node :: walk) { s with visited := s.visited.add node } t := by
        refine ⟨fun x => ?_, h.cycles⟩
        rw [NameSet.mem_add, h.visited, List.mem_cons]
        tauto
      have hbelow : Matches (node :: walk)
          ((g.targets node).foldl (fun s next => search g (node :: walk) next s)
            { s with visited := s.visited.add node })
          ((g.targets node).foldl (fun t next => Order.sort g (node :: walk) next t) t) := by
        by_cases hsource : node ∈ g.names
        · exact List.foldl_rel hentered fun next _ s t => ih node hsource hwalk next s t
        · rw [Graph.targets_eq_nil hsource]
          exact hentered
      refine ⟨fun x => ?_, hbelow.cycles⟩
      rw [hbelow.visited]
      simp only [List.mem_cons, List.mem_append, List.not_mem_nil, or_false]
      tauto

end Cycles

namespace Graph

variable {g : Graph} {schema : Schema}

/-- All nodes of a graph searched, from its roots on. -/
def searched (g : Graph) (schema : Schema) : Cycles.Search :=
  (g.roots schema).foldl (fun s root => Cycles.search g [] root s) ⟨∅, []⟩

/-- The search and the sort report the same circles. -/
theorem cycles_searched (g : Graph) (schema : Schema) :
    (g.searched schema).cycles = (g.sorted schema).cycles := by
  have hempty : Cycles.Matches [] ⟨∅, []⟩ ⟨[], []⟩ := ⟨by simp, rfl⟩
  have hmatches : Cycles.Matches [] (g.searched schema) (g.sorted schema) :=
    List.foldl_rel hempty fun root _ s t => Cycles.search_matches [] root s t
  exact hmatches.cycles

/-! ## What is reported is a circle -/

/-- The second name is one that the first refers to. -/
def Edge (g : Graph) (source target : String) : Prop := target ∈ g.targets source

/-- Only what has an entry refers to something. -/
theorem Edge.mem_names {source target : String} (h : g.Edge source target) :
    source ∈ g.names := by
  by_contra hsource
  rw [Edge, targets_eq_nil hsource] at h
  cases h

/-- A path along edges that ends where it starts. -/
structure IsCircle (g : Graph) (path : List String) : Prop where
  chain : path.IsChain g.Edge
  closed : path.head? = path.getLast?
  two_le_length : 2 ≤ path.length

theorem IsCircle.exists_transGen {path : List String} (h : g.IsCircle path) :
    ∃ name, Relation.TransGen g.Edge name name := by
  obtain ⟨hchain, hclosed, hlength⟩ := h
  match path, hlength with
  | a :: b :: rest, _ =>
    obtain ⟨hedge, hchain⟩ := List.isChain_cons_cons.1 hchain
    have hlast : (b :: rest).getLast (List.cons_ne_nil _ _) = a := by
      simpa [List.getLast?_eq_some_getLast] using hclosed.symm
    exact ⟨a, .head' hedge (List.relationReflTransGen_of_exists_isChain_cons rest hchain hlast)⟩

/-- A circle leads on from the name that it ends with. -/
theorem IsCircle.exists_edge {path : List String} (h : g.IsCircle path) {name : String}
    (hlast : path.getLast? = some name) : ∃ next, g.Edge name next := by
  obtain ⟨hchain, hclosed, hlength⟩ := h
  match path, hlength with
  | first :: next :: rest, _ =>
    obtain rfl : first = name := Option.some.inj (hclosed.trans hlast)
    exact ⟨next, (List.isChain_cons_cons.1 hchain).1⟩

/-- A circle that comes to no name twice before it closes. -/
structure IsSimpleCircle (g : Graph) (path : List String) : Prop extends g.IsCircle path where
  nodup : path.tail.Nodup

/-- An edge back into a walk along edges closes a circle; a simple one if the walk comes to
no name twice. -/
theorem isSimpleCircle_closedPath {walk : List String} {node : String}
    (hchain : (node :: walk).IsChain fun target source => g.Edge source target)
    (hnodup : walk.Nodup) (hnode : node ∈ walk) : g.IsSimpleCircle (closedPath walk node) := by
  have hloop : IsLoop g.Edge (closedPath walk node) := isLoop_closedPath hchain hnodup hnode
  exact ⟨⟨hloop.chain, hloop.closed, hloop.two_le_length⟩, hloop.nodup⟩

/-- Every circle that the sort of a node reports is a simple one. -/
theorem isSimpleCircle_of_sort (walk : List String) : ∀ (node : String) (s : Order.Sorting),
    (node :: walk).IsChain (fun target source => g.Edge source target) → walk.Nodup →
    (∀ path ∈ s.cycles, g.IsSimpleCircle path) →
    ∀ path ∈ (Order.sort g walk node s).cycles, g.IsSimpleCircle path := by
  induction walk using walk_induction g.names with
  | step walk ih =>
      intro node s hchain hnodup hs
      by_cases hwalk : node ∈ walk
      · rw [Order.sort_of_mem hwalk]
        intro path hpath
        rcases List.mem_append.1 hpath with hpath | hpath
        · exact hs path hpath
        · rw [List.mem_singleton.1 hpath]
          exact isSimpleCircle_closedPath hchain hnodup hwalk
      by_cases hleft : node ∈ s.order
      · rw [Order.sort_of_left hwalk hleft]
        exact hs
      rw [Order.sort_of_new hwalk hleft]
      by_cases hsource : node ∈ g.names
      · refine List.foldlRecOn (motive := fun s : Order.Sorting =>
          ∀ path ∈ s.cycles, g.IsSimpleCircle path) _ _ hs fun s hs next hnext => ?_
        exact ih node hsource hwalk next s (List.isChain_cons_cons.2 ⟨hnext, hchain⟩)
          (List.nodup_cons.2 ⟨hwalk, hnodup⟩) hs
      · rw [Graph.targets_eq_nil hsource]
        exact hs

/-- Every circle that is reported is a simple one. -/
theorem isSimpleCircle_of_sorted : ∀ path ∈ (g.sorted schema).cycles, g.IsSimpleCircle path := by
  refine List.foldlRecOn (motive := fun s : Order.Sorting =>
    ∀ path ∈ s.cycles, g.IsSimpleCircle path) _ _ nofun fun s hs root _ => ?_
  exact isSimpleCircle_of_sort [] root s (List.isChain_singleton root) List.nodup_nil hs

/-! ## What is not reported -/

theorem idxOf_lt_of_precedes {l : List String} {a b : String} (h : Precedes l b a)
    (hl : l.Nodup) : l.idxOf b < l.idxOf a := by
  obtain ⟨front, back, rfl, hb⟩ := h
  have ha : a ∉ front := fun ha =>
    (List.nodup_append.1 hl).2.2 a ha a List.mem_cons_self rfl
  rw [List.idxOf_append_of_mem hb, List.idxOf_append_of_notMem ha]
  exact Nat.lt_add_right _ (List.idxOf_lt_length_of_mem hb)

/-- Circles are reported exactly where some name leads back to itself. -/
theorem cycles_sorted_eq_nil_iff :
    (g.sorted schema).cycles = [] ↔ ∀ name, ¬ Relation.TransGen g.Edge name name := by
  constructor
  · intro hnil name hloop
    obtain ⟨hsound, hlisted⟩ := g.sound_sorted schema
    have hedge : ∀ a b, g.Edge a b →
        (g.sorted schema).order.idxOf b < (g.sorted schema).order.idxOf a := by
      intro a b hab
      have hlisted := hlisted a hab.mem_names
      exact idxOf_lt_of_precedes (precedes_of_sorted hnil hlisted hab) hsound.nodup
    exact Nat.lt_irrefl _ (lt_of_transGen hedge hloop)
  · intro hacyclic
    apply List.eq_nil_iff_forall_not_mem.2
    intro path hpath
    obtain ⟨name, hloop⟩ := (isSimpleCircle_of_sorted path hpath).exists_transGen
    exact hacyclic name hloop

end Graph

end Rulebook
