/-
# Marks, paths and stacks

The sort and the search are given by what they have found and by the walk that they are inside
of. Here they are run on all that a traversal writes down: the sort marks a node when it enters
it and once more when it leaves it, and keeps the path that it is on; the search keeps what it
entered and a stack, and looks at the stack before it goes on to a node. The path and the stack
grow at their end, and a circle is cut out of them from the first place of its node. The
invariant of the marks says what each of them means, and from it both traversals come to what
the sort and the search come to, within a budget known before, and end with an empty path.
-/

import Rulebook.Proofs.Analysis.Cycles

namespace Rulebook

/-- Steps that succeed and keep two states related are taken to the end, and related states
come of it. -/
theorem exists_foldlM_of_related {α β γ : Type} (Related : β → γ → Prop) (f : β → α → β)
    {f' : γ → α → Option γ} {l : List α}
    (hstep : ∀ x ∈ l, ∀ b c, Related b c → ∃ c', f' c x = some c' ∧ Related (f b x) c')
    {b : β} {c : γ} (h : Related b c) :
    ∃ c', l.foldlM f' c = some c' ∧ Related (l.foldl f b) c' := by
  induction l generalizing b c with
  | nil => exact ⟨c, rfl, h⟩
  | cons x rest ih =>
      obtain ⟨c', hc', h'⟩ := hstep x List.mem_cons_self b c h
      rw [List.foldlM_cons, hc']
      exact ih (fun y hy => hstep y (List.mem_cons_of_mem _ hy)) h'

/-! ## The sort -/

namespace Order

/-- How far the sort is with a node that it has come to. -/
inductive Mark where
  | inProgress
  | done
  deriving DecidableEq

/-- All that the sort writes down; the path ends with the node that was entered last. -/
structure Marking where
  marks : NameMap Mark
  path : List String
  order : List String
  cycles : List (List String)

namespace Marking

instance : EmptyCollection Marking := ⟨⟨∅, [], [], []⟩⟩

/-- Enter a node. -/
def enter (s : Marking) (node : String) : Marking :=
  { s with marks := s.marks.insert node .inProgress, path := s.path ++ [node] }

/-- Leave a node, which has its place in the order then. -/
def leave (s : Marking) (node : String) : Marking :=
  { s with
    marks := s.marks.insert node .done, path := s.path.dropLast, order := s.order ++ [node] }

/-- Report the circle that an edge to a node of the path closes. -/
def close (s : Marking) (node : String) : Marking :=
  { s with cycles := s.cycles ++ [closedSlice s.path node] }

/-- Visit a node, by its mark. Each visit takes one from the budget. -/
def visit (g : Graph) : Nat → Marking → String → Option Marking
  | 0, _, _ => none
  | budget + 1, s, node =>
    match s.marks.find? node with
    | some .done => some s
    | some .inProgress => some (s.close node)
    | none => ((g.targets node).foldlM (visit g budget) (s.enter node)).map (·.leave node)

section Equations

variable {g : Graph} {s : Marking} {node : String}

theorem visit_of_done (h : s.marks.find? node = some .done) (budget : Nat) :
    visit g (budget + 1) s node = some s := by
  rw [visit, h]

theorem visit_of_inProgress (h : s.marks.find? node = some .inProgress) (budget : Nat) :
    visit g (budget + 1) s node = some (s.close node) := by
  rw [visit, h]

theorem visit_of_none (h : s.marks.find? node = none) (budget : Nat) :
    visit g (budget + 1) s node =
      ((g.targets node).foldlM (visit g budget) (s.enter node)).map (·.leave node) := by
  rw [visit, h]

end Equations

end Marking

/-- What the marks mean inside a walk: in progress is what the walk holds, done is what the
sort has listed, and any other node is new. The path is the walk. -/
structure Marked (walk : List String) (t : Sorting) (s : Marking) : Prop where
  inProgress : ∀ x, s.marks.find? x = some .inProgress ↔ x ∈ walk
  done : ∀ x, s.marks.find? x = some .done ↔ x ∈ t.order
  path : s.path = walk.reverse
  order : s.order = t.order
  cycles : s.cycles = t.cycles

namespace Marked

variable {walk : List String} {t : Sorting} {s : Marking} {node : String}

theorem empty : Marked [] ⟨[], []⟩ ∅ := by
  constructor <;> simp [EmptyCollection.emptyCollection, NameMap.find?, Entries.find?]

/-- A node that is new may be entered. -/
theorem enter (h : Marked walk t s) (hnew : s.marks.find? node = none) :
    Marked (node :: walk) t (s.enter node) where
  inProgress x := by
    by_cases hx : x = node
    · simp [Marking.enter, hx]
    · simp [Marking.enter, NameMap.find?_insert_of_ne _ hx, hx, h.inProgress]
  done x := by
    by_cases hx : x = node
    · have hnot : node ∉ t.order := by simp [← h.done, hnew]
      simp [Marking.enter, hx, hnot]
    · simp [Marking.enter, NameMap.find?_insert_of_ne _ hx, h.done]
  path := by simp [Marking.enter, h.path]
  order := h.order
  cycles := h.cycles

/-- The node that was entered last may be left. -/
theorem leave (h : Marked (node :: walk) t s) (hwalk : node ∉ walk) :
    Marked walk { t with order := t.order ++ [node] } (s.leave node) where
  inProgress x := by
    by_cases hx : x = node
    · simp [Marking.leave, hx, hwalk]
    · simp [Marking.leave, NameMap.find?_insert_of_ne _ hx, hx, h.inProgress]
  done x := by
    by_cases hx : x = node
    · simp [Marking.leave, hx]
    · simp [Marking.leave, NameMap.find?_insert_of_ne _ hx, hx, h.done]
  path := by simp [Marking.leave, h.path]
  order := by simp [Marking.leave, h.order]
  cycles := h.cycles

/-- An edge back into the walk closes the circle of the walk. -/
theorem close (h : Marked walk t s) (hnodup : walk.Nodup) (hnode : node ∈ walk) :
    Marked walk { t with cycles := t.cycles ++ [closedPath walk node] } (s.close node) where
  inProgress := h.inProgress
  done := h.done
  path := h.path
  order := h.order
  cycles := by rw [Marking.close, h.path, closedSlice_reverse hnodup hnode, h.cycles]

/-- A visit comes to what the sort comes to, if the budget is larger than the number of nodes
that can still be entered. -/
theorem exists_visit {g : Graph} {budget : Nat} (hnodup : walk.Nodup)
    (hbudget : nodesLeft g.names walk < budget) (h : Marked walk t s) (node : String) :
    ∃ s', Marking.visit g budget s node = some s' ∧ Marked walk (sort g walk node t) s' := by
  induction budget generalizing walk t s node with
  | zero => exact absurd hbudget (Nat.not_lt_zero _)
  | succ budget ih =>
      cases hmark : s.marks.find? node with
      | some mark =>
          cases mark with
          | inProgress =>
              have hwalk := (h.inProgress node).1 hmark
              rw [sort_of_mem hwalk]
              exact ⟨_, Marking.visit_of_inProgress hmark budget, h.close hnodup hwalk⟩
          | done =>
              have hwalk : node ∉ walk := by simp [← h.inProgress, hmark]
              rw [sort_of_left hwalk ((h.done node).1 hmark)]
              exact ⟨s, Marking.visit_of_done hmark budget, h⟩
      | none =>
          have hwalk : node ∉ walk := by simp [← h.inProgress, hmark]
          have hleft : node ∉ t.order := by simp [← h.done, hmark]
          have hbelow : ∃ s', (g.targets node).foldlM (Marking.visit g budget) (s.enter node) =
              some s' ∧ Marked (node :: walk)
                ((g.targets node).foldl (fun t next => sort g (node :: walk) next t) t) s' := by
            -- Only a source can be entered at the cost of the budget.
            by_cases hsource : node ∈ g.names
            · have hless := nodesLeft_cons_lt_of_lt_succ hbudget hsource hwalk
              exact exists_foldlM_of_related (Marked (node :: walk))
                (fun t next => sort g (node :: walk) next t)
                (fun next _ t s hts => ih (List.nodup_cons.2 ⟨hwalk, hnodup⟩) hless hts next)
                (h.enter hmark)
            · rw [Graph.targets_eq_nil hsource]
              exact ⟨_, rfl, h.enter hmark⟩
          obtain ⟨s', hrun, hmarked⟩ := hbelow
          rw [sort_of_new hwalk hleft]
          refine ⟨s'.leave node, ?_, hmarked.leave hwalk⟩
          rw [Marking.visit_of_none hmark, hrun, Option.map_some]

end Marked

end Order

/-! ## The search -/

namespace Cycles

/-- All that the search writes down; the stack ends with the node that was entered last. -/
structure Tracking where
  visited : NameSet
  stack : List String
  cycles : List (List String)

namespace Tracking

/-- Enter a node. -/
def enter (s : Tracking) (node : String) : Tracking :=
  { s with visited := s.visited.add node, stack := s.stack ++ [node] }

/-- Leave the node that was entered last. -/
def leave (s : Tracking) : Tracking := { s with stack := s.stack.dropLast }

/-- Report the circle that an edge to a node of the stack closes. -/
def close (s : Tracking) (node : String) : Tracking :=
  { s with cycles := s.cycles ++ [closedSlice s.stack node] }

/-- Go on along an edge, unless it leads back into the stack. -/
def follow (onward : Tracking → String → Option Tracking) (s : Tracking) (next : String) :
    Option Tracking :=
  if next ∈ s.stack then some (s.close next) else onward s next

/-- Detect the circles from a node on, unless it was entered before. Each node that is looked
at takes one from the budget. -/
def detect (g : Graph) : Nat → Tracking → String → Option Tracking
  | 0, _, _ => none
  | budget + 1, s, node =>
    if node ∈ s.visited then some s
    else ((g.targets node).foldlM (follow (detect g budget)) (s.enter node)).map leave

section Equations

variable {g : Graph} {s : Tracking} {node : String}

theorem detect_of_visited (h : node ∈ s.visited) (budget : Nat) :
    detect g (budget + 1) s node = some s := by
  rw [detect, if_pos h]

theorem detect_of_new (h : node ∉ s.visited) (budget : Nat) :
    detect g (budget + 1) s node =
      ((g.targets node).foldlM (follow (detect g budget)) (s.enter node)).map leave := by
  rw [detect, if_neg h]

end Equations

end Tracking

namespace Search

variable {walk : List String} {node : String} {s : Search}

/-- What a search has seen, with the stack of the walk that it is inside of. -/
def track (s : Search) (walk : List String) : Tracking := ⟨s.visited, walk.reverse, s.cycles⟩

theorem enter_track :
    (s.track walk).enter node =
      ({ s with visited := s.visited.add node } : Search).track (node :: walk) := by
  simp [track, Tracking.enter]

theorem leave_track : (s.track (node :: walk)).leave = s.track walk := by
  simp [track, Tracking.leave]

theorem close_track (hnodup : walk.Nodup) (hnode : node ∈ walk) :
    (s.track walk).close node =
      ({ s with cycles := s.cycles ++ [closedPath walk node] } : Search).track walk := by
  simp only [track, Tracking.close, closedSlice_reverse hnodup hnode]

/-- To follow an edge inside a walk is to search from where it leads, if to detect circles
from there is, as long as the walk does not hold it. -/
theorem follow_track {g : Graph} {onward : Tracking → String → Option Tracking}
    (hnodup : walk.Nodup)
    (honward : node ∉ walk →
      onward (s.track walk) node = some ((search g walk node s).track walk)) :
    Tracking.follow onward (s.track walk) node = some ((search g walk node s).track walk) := by
  unfold Tracking.follow
  by_cases hwalk : node ∈ walk
  · have hstack : node ∈ (s.track walk).stack := List.mem_reverse.2 hwalk
    rw [if_pos hstack, search_of_mem hwalk, close_track hnodup hwalk]
  · have hstack : node ∉ (s.track walk).stack := mt List.mem_reverse.1 hwalk
    rw [if_neg hstack, honward hwalk]

/-- To detect circles from a node is to search from it, if the budget is larger than the number
of nodes that can still be entered. -/
theorem detect_track {g : Graph} {budget : Nat} (hnodup : walk.Nodup)
    (hbudget : nodesLeft g.names walk < budget) (hwalk : node ∉ walk) :
    Tracking.detect g budget (s.track walk) node = some ((search g walk node s).track walk) := by
  induction budget generalizing walk node s with
  | zero => exact absurd hbudget (Nat.not_lt_zero _)
  | succ budget ih =>
      by_cases hvisited : node ∈ s.visited
      · rw [search_of_visited hwalk hvisited]
        exact Tracking.detect_of_visited hvisited budget
      · let entered : Search := { s with visited := s.visited.add node }
        have hinside : (node :: walk).Nodup := List.nodup_cons.2 ⟨hwalk, hnodup⟩
        have hbelow : ∃ s', (g.targets node).foldlM (Tracking.follow (Tracking.detect g budget))
            (entered.track (node :: walk)) = some s' ∧
            ((g.targets node).foldl (fun s next => search g (node :: walk) next s) entered).track
              (node :: walk) = s' := by
          by_cases hsource : node ∈ g.names
          · have hless := nodesLeft_cons_lt_of_lt_succ hbudget hsource hwalk
            refine exists_foldlM_of_related (fun s s' => s.track (node :: walk) = s')
              (fun s next => search g (node :: walk) next s) ?_ rfl
            rintro next - s _ rfl
            exact ⟨_, follow_track hinside fun hnext => ih hinside hless hnext, rfl⟩
          · rw [Graph.targets_eq_nil hsource]
            exact ⟨_, rfl, rfl⟩
        obtain ⟨_, hrun, rfl⟩ := hbelow
        have hnew : node ∉ (s.track walk).visited := hvisited
        rw [search_of_new hwalk hvisited, Tracking.detect_of_new hnew, enter_track, hrun,
          Option.map_some, leave_track]

end Search

end Cycles

/-! ## From all roots -/

namespace Graph

variable (g : Graph) (schema : Schema)

/-- All that the sort writes down from its roots on; the budget is one more than there are
sources. -/
def visited (g : Graph) (schema : Schema) : Option Order.Marking :=
  (g.roots schema).foldlM (Order.Marking.visit g (g.names.length + 1)) ∅

/-- All that the search writes down from its roots on, on the same budget. -/
def detected (g : Graph) (schema : Schema) : Option Cycles.Tracking :=
  (g.roots schema).foldlM (Cycles.Tracking.detect g (g.names.length + 1)) ⟨∅, [], []⟩

theorem nodesLeft_nil_lt : nodesLeft g.names [] < g.names.length + 1 := by
  simp

theorem exists_visited : ∃ s, g.visited schema = some s ∧ Order.Marked [] (g.sorted schema) s :=
  exists_foldlM_of_related (Order.Marked []) (fun t root => Order.sort g [] root t)
    (fun root _ _ _ h => h.exists_visit List.nodup_nil g.nodesLeft_nil_lt root) .empty

theorem detected_eq : g.detected schema = some ((g.searched schema).track []) := by
  have hstep : ∀ root ∈ g.roots schema, ∀ (s : Cycles.Search) s', s.track [] = s' →
      ∃ t, Cycles.Tracking.detect g (g.names.length + 1) s' root = some t ∧
        (Cycles.search g [] root s).track [] = t := by
    rintro root - s _ rfl
    exact ⟨_, Cycles.Search.detect_track List.nodup_nil g.nodesLeft_nil_lt List.not_mem_nil, rfl⟩
  have hstart : Cycles.Search.track ⟨∅, []⟩ [] = ⟨∅, [], []⟩ := rfl
  obtain ⟨_, hrun, rfl⟩ := exists_foldlM_of_related _ _ hstep hstart
  exact hrun

end Graph

/-- The passes report and order what the marks and the stack make of the graph, whatever the
graph. In the end the path and the stack are empty, no node is in progress, and done are the
nodes of the order. -/
theorem Pass.run_of_marks (registry : Registry) (schema : Schema) (survey : Survey) :
    ∃ s t, survey.graph.visited schema = some s ∧ survey.graph.detected schema = some t ∧
      Pass.order.run registry schema survey =
        ({ survey with order := s.order },
          s.cycles.map (Graph.cycleDiagnostic survey.definitions)) ∧
      Pass.cycles.run registry schema survey =
        (survey, t.cycles.map (Graph.cycleDiagnostic survey.definitions)) ∧
      s.path = [] ∧ t.stack = [] ∧ (∀ x, s.marks.find? x ≠ some .inProgress) ∧
      ∀ x, s.marks.find? x = some .done ↔ x ∈ s.order := by
  obtain ⟨s, hvisited, hmarked⟩ := survey.graph.exists_visited schema
  refine ⟨s, _, hvisited, survey.graph.detected_eq schema, ?_, rfl, hmarked.path, rfl, ?_, ?_⟩
  · rw [hmarked.order, hmarked.cycles]
    rfl
  · intro x hx
    cases (hmarked.inProgress x).1 hx
  · rw [hmarked.order]
    exact hmarked.done

end Rulebook
