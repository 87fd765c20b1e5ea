/-
# The edges that close circles

A circle is reported when an edge leads back into the walk, so each report belongs to the
edge that closes it. The search comes to an edge at most once, since it enters a node at
most once; and it comes to every edge, so no circle of the graph is made of edges that
close nothing. The search therefore does not list all circles, but one for each edge that
leads back, and every circle of the graph has such an edge. The sort reports the same
list, which is why the standard analysis shows each of these circles once.
-/

import Rulebook.Proofs.Analysis.AnyGraph

namespace Rulebook

/-- A path ends with one edge. -/
theorem edge_unique {path : List String} {source target source' target' : String}
    (h : [source, target] <:+ path) (h' : [source', target'] <:+ path) :
    source = source' ∧ target = target' := by
  have hsuffix := List.suffix_of_suffix_length_le h h' (Nat.le_refl _)
  simpa using hsuffix.eq_of_length rfl

/-- What a node refers to is listed once. -/
theorem Graph.nodup_targets (g : Graph) (name : String) : (g.targets name).Nodup := by
  unfold targets
  split
  · exact NameMap.names_nodup _
  · exact List.nodup_nil

namespace Cycles

variable {g : Graph} {walk nodes : List String} {node : String} {s t : Search}

/-! ## What one search does -/

/-- The state of a search: only nodes that were entered have closed a circle, and no edge
has closed two. -/
structure Orderly (s : Search) : Prop where
  entered : ∀ source target, Order.Closes s.cycles source target → source ∈ s.visited
  once : s.cycles.Pairwise fun path other => ∀ source target,
    [source, target] <:+ path → ¬ [source, target] <:+ other

/-- A state in which nodes may be searched from inside a walk: the walk has been entered,
and no edge from its newest node to one of these nodes has closed a circle yet. -/
structure Ready (walk nodes : List String) (s : Search) : Prop extends Orderly s where
  inside : ∀ x ∈ walk, x ∈ s.visited
  unclosed : ∀ newest ∈ walk.head?, ∀ x ∈ nodes, ¬ Order.Closes s.cycles newest x

/-- What a search from nodes inside a walk does to a state: nodes are entered, and an edge
that closes a circle from now on leads from one of these, or from the newest node of the
walk to a node that was searched. -/
structure Searches (walk nodes : List String) (s t : Search) : Prop extends Orderly t where
  visited : ∀ x ∈ s.visited, x ∈ t.visited
  closes : ∀ source target, Order.Closes t.cycles source target →
    Order.Closes s.cycles source target ∨ source ∉ s.visited ∨
      (source ∈ walk.head? ∧ target ∈ nodes)

theorem Searches.refl (hs : Orderly s) : Searches walk nodes s s :=
  ⟨hs, fun _ hx => hx, fun _ _ h => .inl h⟩

/-- After one node has been searched the others may be. -/
theorem Ready.next {rest : List String} (hs : Ready walk (node :: rest) s) (hnode : node ∉ rest)
    (ht : Searches walk [node] s t) : Ready walk rest t := by
  refine ⟨ht.toOrderly, fun x hx => ht.visited x (hs.inside x hx), ?_⟩
  intro newest hnewest x hx hcloses
  rcases ht.closes newest x hcloses with hbefore | hentered | ⟨-, hsame⟩
  · exact hs.unclosed newest hnewest x (List.mem_cons_of_mem _ hx) hbefore
  · exact hentered (hs.inside newest (List.mem_of_mem_head? hnewest))
  · exact hnode (List.mem_singleton.1 hsame ▸ hx)

/-- If each node is searched as it should be, so are several one after the other. -/
theorem foldl_searches {searchFrom : Search → String → Search}
    (hsearch : ∀ node s, Ready walk [node] s → Searches walk [node] s (searchFrom s node))
    (hnodes : nodes.Nodup) (hs : Ready walk nodes s) :
    Searches walk nodes s (nodes.foldl searchFrom s) := by
  induction nodes generalizing s with
  | nil => exact .refl hs.toOrderly
  | cons node rest ih =>
      obtain ⟨hnew, hrest⟩ := List.nodup_cons.1 hnodes
      have hnode : Searches walk [node] s (searchFrom s node) :=
        hsearch node s ⟨hs.toOrderly, hs.inside, fun newest hnewest x hx =>
          hs.unclosed newest hnewest x (List.mem_singleton.1 hx ▸ List.mem_cons_self)⟩
      have hothers := ih hrest (hs.next hnew hnode)
      refine ⟨hothers.toOrderly, fun x hx => hothers.visited x (hnode.visited x hx), ?_⟩
      intro source target hcloses
      rcases hothers.closes source target hcloses with hbefore | hentered | ⟨hsource, htarget⟩
      · refine (hnode.closes source target hbefore).imp_right fun h => h.imp_right ?_
        exact fun h => ⟨h.1, List.mem_singleton.1 h.2 ▸ List.mem_cons_self⟩
      · exact .inr (.inl (mt (hnode.visited source) hentered))
      · exact .inr (.inr ⟨hsource, List.mem_cons_of_mem _ htarget⟩)

/-- An edge back into the walk closes a circle for the first time. -/
theorem searches_of_mem (hs : Ready walk [node] s) (hwalk : node ∈ walk) :
    Searches walk [node] s (search g walk node s) := by
  rw [search_of_mem hwalk]
  cases walk with
  | nil => cases hwalk
  | cons newest older =>
      obtain ⟨front, hfront⟩ := exists_closedPath_eq newest older node
      have hlast : [newest, node] <:+ closedPath (newest :: older) node := ⟨front, hfront.symm⟩
      have hfresh : ¬ Order.Closes s.cycles newest node :=
        hs.unclosed newest rfl node List.mem_cons_self
      have hcloses : ∀ source target,
          Order.Closes (s.cycles ++ [closedPath (newest :: older) node]) source target →
            Order.Closes s.cycles source target ∨ newest = source ∧ node = target := by
        rintro source target ⟨before, hpath⟩
        rcases List.mem_append.1 hpath with hpath | hpath
        · exact .inl ⟨before, hpath⟩
        · exact .inr (edge_unique hlast ⟨before, List.mem_singleton.1 hpath⟩)
      refine ⟨⟨fun source target h => ?_, List.pairwise_append.2 ⟨hs.once, ?_, ?_⟩⟩,
        fun x hx => hx, fun source target h => ?_⟩
      · rcases hcloses source target h with hbefore | ⟨rfl, -⟩
        · exact hs.entered source target hbefore
        · exact hs.inside newest List.mem_cons_self
      · exact List.pairwise_singleton _ _
      · intro path hpath other hother source target hclosed hclosed'
        rw [List.mem_singleton.1 hother] at hclosed'
        obtain ⟨rfl, rfl⟩ := edge_unique hlast hclosed'
        obtain ⟨before, hbefore⟩ := hclosed
        exact hfresh ⟨before, hbefore ▸ hpath⟩
      · refine (hcloses source target h).imp_right ?_
        rintro ⟨rfl, rfl⟩
        exact .inr ⟨rfl, List.mem_cons_self⟩

/-- A node that is entered has closed no circle yet, so all it refers to may be searched
from inside it. -/
theorem ready_entered (hs : Orderly s) (hinside : ∀ x ∈ walk, x ∈ s.visited)
    (hnew : node ∉ s.visited) :
    Ready (node :: walk) (g.targets node) { s with visited := s.visited.add node } where
  entered source target h := NameSet.mem_add.2 (.inr (hs.entered source target h))
  once := hs.once
  inside x hx := by
    rw [NameSet.mem_add]
    exact (List.mem_cons.1 hx).imp_right (hinside x)
  unclosed newest hnewest x _ hcloses := by
    cases hnewest
    exact hnew (hs.entered node x hcloses)

/-- The search from a node reports each edge that leads back at most once. -/
theorem search_searches (walk : List String) : ∀ (node : String) (s : Search),
    Ready walk [node] s → Searches walk [node] s (search g walk node s) := by
  -- Node and state stay general: below an entered node they are others for each target.
  induction walk using walk_induction g.names with
  | step walk ih =>
      intro node s hs
      by_cases hwalk : node ∈ walk
      · exact searches_of_mem hs hwalk
      by_cases hvisited : node ∈ s.visited
      · rw [search_of_visited hwalk hvisited]
        exact .refl hs.toOrderly
      rw [search_of_new hwalk hvisited]
      have hentered : Ready (node :: walk) (g.targets node)
          { s with visited := s.visited.add node } :=
        ready_entered hs.toOrderly hs.inside hvisited
      let below := (g.targets node).foldl (fun s next => search g (node :: walk) next s)
        { s with visited := s.visited.add node }
      have hbelow : Searches (node :: walk) (g.targets node)
          { s with visited := s.visited.add node } below := by
        by_cases hsource : node ∈ g.names
        · exact foldl_searches (fun next s => ih node hsource hwalk next s)
            (g.nodup_targets node) hentered
        · -- A name that the graph has no entry for refers to nothing.
          simp only [below, Graph.targets_eq_nil hsource]
          exact .refl ⟨hentered.entered, hentered.once⟩
      refine ⟨hbelow.toOrderly, fun x hx => hbelow.visited x (NameSet.mem_add.2 (.inr hx)), ?_⟩
      intro source target hcloses
      rcases hbelow.closes source target hcloses with hbefore | hlater | ⟨hsource, -⟩
      · exact .inl hbefore
      · exact .inr (.inl fun hmem => hlater (NameSet.mem_add.2 (.inr hmem)))
      · cases hsource
        exact .inr (.inl hvisited)

end Cycles

namespace Graph

variable {g : Graph} {schema : Schema}

/-- No edge closes two of the circles that are reported. -/
theorem orderly_searched (g : Graph) (schema : Schema) : Cycles.Orderly (g.searched schema) := by
  have hempty : Cycles.Orderly ⟨∅, []⟩ := by
    refine ⟨?_, List.Pairwise.nil⟩
    rintro source target ⟨front, hpath⟩
    cases hpath
  refine List.foldlRecOn (motive := Cycles.Orderly) _ _ hempty fun s hs root _ => ?_
  exact (Cycles.search_searches [] root s ⟨hs, nofun, nofun⟩).toOrderly

/-! ## Circles that are not reported -/

/-- A path that ends where it starts cannot lead downward all the way. -/
theorem not_isChain_of_closed {path : List String} (hclosed : path.head? = path.getLast?)
    (hlength : 2 ≤ path.length) (rank : String → Nat) :
    ¬ path.IsChain fun a b => rank b < rank a := by
  match path, hlength with
  | first :: next :: rest, _ =>
    intro hchain
    have htrans : Trans (fun a b => rank b < rank a) (fun a b => rank b < rank a)
        (fun a b => rank b < rank a) := ⟨fun hab hbc => hbc.trans hab⟩
    have hlast : first ∈ next :: rest := by
      apply List.mem_of_getLast?
      rw [← List.getLast?_cons_cons (a := first), ← hclosed, List.head?_cons]
    exact Nat.lt_irrefl _ (List.rel_of_pairwise_cons (List.isChain_iff_pairwise.1 hchain) hlast)

/-- Every circle leads over an edge that closes a reported one. If it did not, it would lead
backward in the order of the sort all the way. -/
theorem exists_closes_of_isCircle (schema : Schema) {circle : List String}
    (h : g.IsCircle circle) : ∃ source target, [source, target] <:+: circle ∧
      Order.Closes (g.searched schema).cycles source target := by
  by_contra hnone
  apply not_isChain_of_closed h.closed h.two_le_length (g.sorted schema).order.idxOf
  rw [List.isChain_iff_forall_rel_of_append_cons_cons]
  intro source target front back hcircle
  have hinfix : [source, target] <:+: circle := ⟨front, back, by simp [hcircle]⟩
  have hedge : g.Edge source target :=
    List.isChain_iff_forall_rel_of_append_cons_cons.1 h.chain hcircle
  -- The sort puts targets first, so an edge that closes nothing leads to an earlier place.
  rcases precedes_or_closes schema hedge with hbefore | hcloses
  · exact idxOf_lt_of_precedes hbefore (g.sound_sorted schema).1.nodup
  · rw [← cycles_searched] at hcloses
    exact absurd ⟨source, target, hinfix, hcloses⟩ hnone

end Graph

/-! ## What is reported -/

/-- No edge closes two of the circles that are reported. -/
def ClosedOnce (found : List Diagnostic) : Prop :=
  found.Pairwise fun d other => ∀ front back source target,
    d.issue = .cycle (front ++ [source, target]) →
      other.issue ≠ .cycle (back ++ [source, target])

/-- The circles that a search reports. -/
def Graph.circlesFound (g : Graph) (schema : Schema) (definitions : NameMap Declaration) :
    List Diagnostic :=
  (g.searched schema).cycles.map (cycleDiagnostic definitions)

theorem Graph.closedOnce_circlesFound (g : Graph) (schema : Schema)
    (definitions : NameMap Declaration) : ClosedOnce (g.circlesFound schema definitions) := by
  refine List.pairwise_map.2 ((g.orderly_searched schema).once.imp ?_)
  intro path other honce front back source target hpath hother
  cases hpath
  cases hother
  exact honce source target ⟨front, rfl⟩ ⟨back, rfl⟩

/-- Every circle that is reported has an edge that closes it. -/
theorem Graph.exists_closing_edge {g : Graph} {schema : Schema}
    {definitions : NameMap Declaration} {d : Diagnostic}
    (h : d ∈ g.circlesFound schema definitions) :
    ∃ front source target, d.issue = .cycle (front ++ [source, target]) := by
  obtain ⟨path, hpath, rfl⟩ := List.mem_map.1 h
  rw [cycles_searched] at hpath
  have hlength := (isSimpleCircle_of_sorted path hpath).two_le_length
  obtain rfl | ⟨before, target, rfl⟩ := List.eq_nil_or_concat path
  · exact absurd hlength (by decide)
  obtain rfl | ⟨front, source, rfl⟩ := List.eq_nil_or_concat before
  · exact absurd hlength (by simp)
  · exact ⟨front, source, target, by simp [cycleDiagnostic]⟩

/-- A circle that closes with an edge of its own is reported once. -/
theorem Graph.nodup_circlesFound (g : Graph) (schema : Schema)
    (definitions : NameMap Declaration) : (g.circlesFound schema definitions).Nodup := by
  refine (g.closedOnce_circlesFound schema definitions).imp_of_mem ?_
  rintro d other hd - honce rfl
  obtain ⟨front, source, target, hissue⟩ := exists_closing_edge hd
  exact honce front front source target hissue hissue

theorem eraseDups_of_nodup {α : Type} [BEq α] [LawfulBEq α] {l : List α} (h : l.Nodup) :
    l.eraseDups = l := by
  induction l with
  | nil => rfl
  | cons a rest ih =>
      obtain ⟨ha, hrest⟩ := List.nodup_cons.1 h
      rw [List.eraseDups_cons, List.filter_eq_self.2, ih hrest]
      intro b hb
      simpa using ne_of_mem_of_not_mem hb ha

theorem Schema.circles_eq (schema : Schema) (registry : Registry) :
    schema.circles registry =
      (schema.draft registry).graph.circlesFound schema schema.definitions := by
  rw [circles, sorting, Graph.circlesFound, Graph.cycles_searched]

/-- The search for cycles does right by every graph. Each circle it reports leads along edges
from its first name back to it and comes to no other name twice, and stands at the place
where that name is declared, if the survey knows one. No edge closes two of these circles.
And every circle of the graph, simple or not and read from whichever of its names, leads
over an edge that closes one of them. -/
theorem Pass.circles_of_run (registry : Registry) (schema : Schema) (survey : Survey) :
    ∃ found, Pass.cycles.run registry schema survey = (survey, found) ∧
      (∀ d ∈ found, ∃ first rest, d.issue = .cycle (first :: rest) ∧
        d.location = (survey.definitions.find? first).bind (·.location) ∧
        survey.graph.IsSimpleCircle (first :: rest)) ∧
      ClosedOnce found ∧
      ∀ circle, survey.graph.IsCircle circle →
        ∃ d ∈ found, ∃ front source target,
          d.issue = .cycle (front ++ [source, target]) ∧ [source, target] <:+: circle := by
  refine ⟨survey.graph.circlesFound schema survey.definitions, rfl, ?_,
    survey.graph.closedOnce_circlesFound schema survey.definitions, ?_⟩
  · intro d hd
    obtain ⟨path, hpath, rfl⟩ := List.mem_map.1 hd
    rw [Graph.cycles_searched] at hpath
    have hsimple := Graph.isSimpleCircle_of_sorted path hpath
    cases path with
    | nil => exact absurd hsimple.two_le_length (by decide)
    | cons first rest => exact ⟨first, rest, rfl, rfl, hsimple⟩
  · intro circle hcircle
    obtain ⟨source, target, hinfix, front, hpath⟩ :=
      Graph.exists_closes_of_isCircle schema hcircle
    exact ⟨_, List.mem_map_of_mem hpath, front, source, target, rfl, hinfix⟩

namespace Example

/-- A bill whose total goes in a circle on two ways: over the discount and over the tax. -/
def entangledBill : Schema where
  attributes :=
    [⟨.attribute, "total", some (.call "add" [.binding "tax", .binding "discount"]),
        some ⟨"bill", 1, 1⟩⟩,
      ⟨.attribute, "discount", some (.call "multiply" [.binding "net", .field "rebate"]), none⟩,
      ⟨.attribute, "tax", some (.call "multiply" [.binding "net", .field "rate"]), none⟩,
      ⟨.attribute, "net", some (.call "subtract" [.binding "total", .field "fees"]), none⟩]
  traits := []
  functions := []

/-- What the first two passes find out about the entangled bill. -/
def entangledSurvey : Survey := (Pass.runAll [.names, .shapes] .builtins entangledBill).1

/-- The circle over the discount is reported. The circle over the tax is not, but it leads
over the edge from the net to the total, which closes the reported one. -/
theorem circles_of_run_entangled :
    ∃ found, Pass.cycles.run .builtins entangledBill entangledSurvey = (entangledSurvey, found) ∧
      found = [⟨some ⟨"bill", 1, 1⟩, .cycle ["total", "discount", "net", "total"]⟩] ∧
      entangledSurvey.graph.IsSimpleCircle ["total", "discount", "net", "total"] ∧
      entangledSurvey.graph.IsCircle ["tax", "net", "total", "tax"] ∧
      ∃ d ∈ found, ∃ front source target, d.issue = .cycle (front ++ [source, target]) ∧
        [source, target] <:+: ["tax", "net", "total", "tax"] := by
  obtain ⟨found, hrun, hreal, -, hclosing⟩ :=
    Pass.circles_of_run .builtins entangledBill entangledSurvey
  have hfound : found = [⟨some ⟨"bill", 1, 1⟩, .cycle ["total", "discount", "net", "total"]⟩] :=
    (congrArg Prod.snd hrun).symm.trans (by decide +kernel)
  have hcircle : entangledSurvey.graph.IsCircle ["tax", "net", "total", "tax"] := by
    have hchain : ["tax", "net", "total", "tax"].IsChain fun source target =>
        target ∈ entangledSurvey.graph.targets source := by
      decide +kernel
    exact ⟨hchain, rfl, by decide⟩
  obtain ⟨first, rest, hissue, -, hsimple⟩ := hreal _ (hfound ▸ List.mem_singleton_self _)
  cases hissue
  exact ⟨found, hrun, hfound, hsimple, hcircle, hclosing _ hcircle⟩

end Example

/-- The two passes that look for circles agree: whatever survey they are given, they report
the same circles at the same places and in the same order. So what the standard analysis
shows of circles, repeated reports left out, is what the search for cycles alone reports of
the graph that the first two passes draw, and there no edge closes two circles. -/
theorem Schema.circles_of_analyze (registry : Registry) (schema : Schema) :
    (∀ survey, (Pass.cycles.run registry schema survey).2 =
      (Pass.order.run registry schema survey).2) ∧
    ∃ circles, (Pass.cycles.run registry schema
        (Pass.runAll [.names, .shapes] registry schema).1).2 = circles ∧
      circles.Nodup ∧ ClosedOnce circles ∧
      (∀ e, schema.analyze registry = .error e →
        (e.diagnostics.filter fun d => d.issue.isCycle) = circles) ∧
      ∀ a, schema.analyze registry = .ok a → circles = [] := by
  constructor
  · intro survey
    show (survey.graph.searched schema).cycles.map (Graph.cycleDiagnostic survey.definitions) =
      (survey.graph.sorted schema).cycles.map (Graph.cycleDiagnostic survey.definitions)
    rw [Graph.cycles_searched]
  refine ⟨schema.circles registry, ?_, ?_, ?_, ?_, ?_⟩
  · rw [runAll_names_shapes, circles_eq]
    rfl
  · rw [circles_eq]
    exact Graph.nodup_circlesFound _ _ _
  · rw [circles_eq]
    exact Graph.closedOnce_circlesFound _ _ _
  · intro e he
    obtain ⟨-, rfl⟩ := analyzeWith_eq_error_iff.1 he
    -- Both passes have reported every circle; the second reports go as repetitions.
    rw [found_runAll_standard, filter_isCycle_eraseDups, circles_eq, eraseDups_of_nodup]
    exact Graph.nodup_circlesFound _ _ _
  · intro a ha
    have hfound := (analysis_of_analyze ha).1
    rw [found_runAll_standard] at hfound
    exact (List.append_eq_nil_iff.1 hfound).2

namespace Example

/-- Both passes meet the circle over the discount, and the analysis shows it once. -/
theorem circles_of_analyze_entangled :
    ∃ e, entangledBill.analyze .builtins = .error e ∧
      (e.diagnostics.filter fun d => d.issue.isCycle) =
        [⟨some ⟨"bill", 1, 1⟩, .cycle ["total", "discount", "net", "total"]⟩] ∧
      (Pass.order.run .builtins entangledBill entangledSurvey).2 =
        e.diagnostics.filter fun d => d.issue.isCycle := by
  obtain ⟨hagree, circles, hcircles, -, -, hshown, -⟩ :=
    Schema.circles_of_analyze .builtins entangledBill
  have hrejected : (fault? (entangledBill.analyze .builtins)).isSome = true := by
    decide +kernel
  obtain ⟨e, he⟩ := Option.isSome_iff_exists.1 hrejected
  rw [fault?_eq_some_iff] at he
  have hvalue : circles =
      [⟨some ⟨"bill", 1, 1⟩, .cycle ["total", "discount", "net", "total"]⟩] :=
    hcircles.symm.trans (by decide +kernel)
  refine ⟨e, he, (hshown e he).trans hvalue, ?_⟩
  rw [← hagree, hshown e he]
  exact hcircles

end Example

end Rulebook
