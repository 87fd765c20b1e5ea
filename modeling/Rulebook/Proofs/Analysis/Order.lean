/-
# The sorted nodes

What the depth-first sort achieves on any graph, circles included: no node is
listed twice, and what a listed node refers to stands before it or closes a
circle that was reported. The invariant is kept by the sort of one node, by the
sort of all that a node refers to, and so by the sort of all roots.
-/

import Rulebook.Analysis.Order
import Rulebook.Proofs.Analysis.Findings

namespace Rulebook

/-! ## Standing before -/

/-- The first element stands in the list before some place of the second. -/
def Precedes {α : Type} (l : List α) (earlier later : α) : Prop :=
  ∃ front back, l = front ++ later :: back ∧ earlier ∈ front

section Precedes

variable {α : Type} {l m : List α} {a b : α}

theorem Precedes.of_prefix (h : Precedes l b a) (hlm : l <+: m) : Precedes m b a := by
  obtain ⟨front, back, rfl, hb⟩ := h
  obtain ⟨more, rfl⟩ := hlm
  exact ⟨front, back ++ more, by simp, hb⟩

theorem precedes_concat (h : b ∈ l) : Precedes (l ++ [a]) b a := ⟨l, [], rfl, h⟩

end Precedes

/-- A name stands somewhere in the graph, as a source or as a target. -/
def Graph.HasNode (g : Graph) (name : String) : Prop :=
  name ∈ g.names ∨ ∃ source, name ∈ g.targets source

/-- A name without a place in the graph refers to nothing. -/
theorem Graph.targets_eq_nil {g : Graph} {name : String} (h : name ∉ g.names) :
    g.targets name = [] := by
  have hnone : g.find? name = none := by
    simpa [NameMap.mem_names_iff] using h
  rw [targets, hnone]

namespace Order

/-! ## The invariant -/

variable {g : Graph} {walk : List String} {node : String} {s t u : Sorting}

/-- Some reported circle is closed by the edge from the first name to the second. -/
def Closes (cycles : List (List String)) (source target : String) : Prop :=
  ∃ front, front ++ [source, target] ∈ cycles

/-- The state of a sort inside a walk: nodes are listed once, none of them is on the
walk, and each stands after all it refers to, edges that close a circle aside. -/
structure Sound (g : Graph) (walk : List String) (s : Sorting) : Prop where
  nodup : s.order.Nodup
  apart : ∀ x ∈ walk, x ∉ s.order
  hasNode : ∀ x ∈ s.order, g.HasNode x
  after : ∀ a ∈ s.order, ∀ b ∈ g.targets a, Precedes s.order b a ∨ Closes s.cycles a b

/-- The second state is the first with more nodes listed and more circles reported. -/
structure Extends (s t : Sorting) : Prop where
  order : s.order <+: t.order
  cycles : s.cycles <+: t.cycles

/-- A node has been dealt with from inside a walk: it is listed, or the edge to it from
the newest node of the walk closes a circle that was reported. -/
def Settled (walk : List String) (node : String) (s : Sorting) : Prop :=
  node ∈ s.order ∨ ∃ newest ∈ walk.head?, Closes s.cycles newest node

theorem Extends.refl (s : Sorting) : Extends s s := ⟨List.prefix_refl _, List.prefix_refl _⟩

theorem Extends.trans (hst : Extends s t) (htu : Extends t u) : Extends s u :=
  ⟨hst.order.trans htu.order, hst.cycles.trans htu.cycles⟩

theorem Closes.of_extends {a b : String} (h : Closes s.cycles a b) (hst : Extends s t) :
    Closes t.cycles a b := by
  obtain ⟨front, hfront⟩ := h
  exact ⟨front, hst.cycles.subset hfront⟩

theorem Settled.of_extends (h : Settled walk node s) (hst : Extends s t) :
    Settled walk node t := by
  rcases h with h | ⟨newest, hnewest, h⟩
  · exact .inl (hst.order.subset h)
  · exact .inr ⟨newest, hnewest, h.of_extends hst⟩

/-- A sound state inside a longer walk is sound inside the walk it extends. -/
theorem Sound.of_cons (h : Sound g (node :: walk) s) : Sound g walk s :=
  ⟨h.nodup, fun x hx => h.apart x (List.mem_cons_of_mem _ hx), h.hasNode, h.after⟩

/-- A node may be listed once all it refers to has been settled from inside it. -/
theorem Sound.concat (h : Sound g (node :: walk) s) (hwalk : node ∉ walk)
    (hnode : g.HasNode node) (hsettled : ∀ b ∈ g.targets node, Settled (node :: walk) b s) :
    Sound g walk { s with order := s.order ++ [node] } where
  nodup := by
    have hnew : node ∉ s.order := h.apart node List.mem_cons_self
    simpa [List.nodup_append, h.nodup] using fun x hx => ne_of_mem_of_not_mem hx hnew
  apart x hx := by
    have hne : x ≠ node := ne_of_mem_of_not_mem hx hwalk
    simpa [hne] using h.of_cons.apart x hx
  hasNode x hx := by
    rcases List.mem_append.1 hx with hx | hx
    · exact h.hasNode x hx
    · exact List.mem_singleton.1 hx ▸ hnode
  after a ha b hb := by
    rcases List.mem_append.1 ha with ha | ha
    · exact (h.after a ha b hb).imp_left fun hpre => hpre.of_prefix (List.prefix_append _ _)
    · obtain rfl := List.mem_singleton.1 ha
      rcases hsettled b hb with hlisted | ⟨newest, hnewest, hcloses⟩
      · exact .inl (precedes_concat hlisted)
      · cases hnewest
        exact .inr hcloses

/-! ## One node -/

/-- What the sort of a node does to a state. -/
structure Sorts (g : Graph) (walk : List String) (node : String) (s t : Sorting) : Prop where
  ext : Extends s t
  sound : Sound g walk t
  settled : Settled walk node t

/-- If each node is sorted in as it should be, so are several one after the other. -/
theorem foldl_sorts {sortIn : Sorting → String → Sorting}
    (hsort : ∀ node s, g.HasNode node → Sound g walk s → Sorts g walk node s (sortIn s node))
    {nodes : List String} (hnodes : ∀ x ∈ nodes, g.HasNode x) (hs : Sound g walk s) :
    Extends s (nodes.foldl sortIn s) ∧ Sound g walk (nodes.foldl sortIn s) ∧
      ∀ x ∈ nodes, Settled walk x (nodes.foldl sortIn s) := by
  induction nodes generalizing s with
  | nil => exact ⟨.refl s, hs, fun x hx => by cases hx⟩
  | cons node rest ih =>
      have hnode := hsort node s (hnodes node List.mem_cons_self) hs
      obtain ⟨hext, hsound, hsettled⟩ :=
        ih (fun x hx => hnodes x (List.mem_cons_of_mem _ hx)) hnode.sound
      refine ⟨hnode.ext.trans hext, hsound, fun x hx => ?_⟩
      rcases List.mem_cons.1 hx with rfl | hx
      · exact hnode.settled.of_extends hext
      · exact hsettled x hx

theorem sorts_of_mem (hs : Sound g walk s) (h : node ∈ walk) :
    Sorts g walk node s (sort g walk node s) := by
  rw [sort_of_mem h]
  have hext : Extends s { s with cycles := s.cycles ++ [closedPath walk node] } :=
    ⟨List.prefix_refl _, List.prefix_append _ _⟩
  refine ⟨hext, ⟨hs.nodup, hs.apart, hs.hasNode, fun a ha b hb => ?_⟩, .inr ?_⟩
  · exact (hs.after a ha b hb).imp_right fun hcloses => hcloses.of_extends hext
  · cases walk with
    | nil => cases h
    | cons newest older =>
        obtain ⟨front, hfront⟩ := exists_closedPath_eq newest older node
        exact ⟨newest, rfl, front, by simp [hfront]⟩

/-- The sort of a node keeps the invariant and settles the node. The walk is inside
other nodes already; they are what an edge may close a circle with. -/
theorem sort_sorts (walk : List String) : ∀ (node : String) (s : Sorting),
    g.HasNode node → Sound g walk s → Sorts g walk node s (sort g walk node s) := by
  induction walk using walk_induction g.names with
  | step walk ih =>
      intro node s hnode hs
      by_cases hwalk : node ∈ walk
      · exact sorts_of_mem hs hwalk
      by_cases hlisted : node ∈ s.order
      · rw [sort_of_left hwalk hlisted]
        exact ⟨.refl s, hs, .inl hlisted⟩
      rw [sort_of_new hwalk hlisted]
      have hinside : Sound g (node :: walk) s :=
        ⟨hs.nodup, fun x hx => by
          rcases List.mem_cons.1 hx with rfl | hx
          · exact hlisted
          · exact hs.apart x hx, hs.hasNode, hs.after⟩
      let below := (g.targets node).foldl (fun s next => sort g (node :: walk) next s) s
      have hbelow : Extends s below ∧ Sound g (node :: walk) below ∧
          ∀ b ∈ g.targets node, Settled (node :: walk) b below := by
        -- The induction hypothesis is about sources; any other node refers to nothing.
        by_cases hsource : node ∈ g.names
        · exact foldl_sorts (fun next s => ih node hsource hwalk next s)
            (fun b hb => .inr ⟨node, hb⟩) hinside
        · simp only [below, Graph.targets_eq_nil hsource]
          exact ⟨.refl s, hinside, fun b hb => by cases hb⟩
      obtain ⟨hext, hsound, hsettled⟩ := hbelow
      exact ⟨hext.trans ⟨List.prefix_append _ _, List.prefix_refl _⟩,
        hsound.concat hwalk hnode hsettled, .inl (by simp)⟩

end Order

/-! ## All nodes -/

namespace Graph

variable {g : Graph} {schema : Schema}

theorem mem_roots {name : String} : name ∈ g.roots schema ↔ name ∈ g.names := by
  have hcontains : g.contains name = true ↔ name ∈ g.names := by
    rw [NameMap.mem_names_iff, NameMap.contains]
  rw [roots, List.mem_eraseDups, List.mem_append, List.mem_filter, hcontains]
  exact ⟨fun h => h.elim And.right id, .inr⟩

/-- All nodes of a graph sorted, from its roots on. -/
def sorted (g : Graph) (schema : Schema) : Order.Sorting :=
  (g.roots schema).foldl (fun s root => Order.sort g [] root s) ⟨[], []⟩

theorem sound_sorted (g : Graph) (schema : Schema) :
    Order.Sound g [] (g.sorted schema) ∧ ∀ name ∈ g.names, name ∈ (g.sorted schema).order := by
  have hempty : Order.Sound g [] ⟨[], []⟩ :=
    ⟨List.nodup_nil, by simp, by simp, by simp⟩
  obtain ⟨-, hsound, hsettled⟩ := Order.foldl_sorts (Order.sort_sorts [])
    (fun x hx => .inl (mem_roots.1 hx)) hempty
  refine ⟨hsound, fun name hname => ?_⟩
  -- Outside any walk an edge cannot close a circle, so a settled node is listed.
  rcases hsettled name (mem_roots.2 hname) with hlisted | ⟨newest, hnewest, -⟩
  · exact hlisted
  · cases hnewest

/-- If no circle is met, every node stands after all it refers to. -/
theorem precedes_of_sorted (h : (g.sorted schema).cycles = []) {source target : String}
    (hsource : source ∈ (g.sorted schema).order) (htarget : target ∈ g.targets source) :
    Precedes (g.sorted schema).order target source := by
  rcases (sound_sorted g schema).1.after source hsource target htarget with hpre | ⟨front, hmem⟩
  · exact hpre
  · rw [h] at hmem
    cases hmem

end Graph

end Rulebook
