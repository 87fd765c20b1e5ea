/-
# The encounter order in the order

Which names the sort lists first is decided by the order in which declarations are met.
When a root has been sorted in, exactly the names are listed that it or a root before it
leads to; nothing is said of the names within such a block beyond what their references
demand. So of two declarations the earlier one comes first, unless it or a declaration
before it leads to the later one.
-/

import Rulebook.Proofs.Analysis.BackEdges

namespace Rulebook

section Precedes

variable {l m : List String} {a b : String}

/-- What a first part of a list holds comes before what only the rest holds. -/
theorem precedes_of_first_part (hpart : l <+: m) (ha : a ∈ l) (hb : b ∉ l) (hlisted : b ∈ m) :
    Precedes m a b := by
  obtain ⟨rest, rfl⟩ := hpart
  obtain ⟨front, back, rfl⟩ := List.append_of_mem ((List.mem_append.1 hlisted).resolve_left hb)
  exact ⟨l ++ front, back, by simp, List.mem_append_left _ ha⟩

/-- With an element a first part of a list holds what comes before it. -/
theorem mem_first_part_of_precedes (hpart : l <+: m) (hm : m.Nodup) (ha : a ∈ l)
    (hb : Precedes m b a) : b ∈ l := by
  by_contra hnot
  have hlt := Graph.idxOf_lt_of_precedes hb hm
  obtain ⟨rest, rfl⟩ := hpart
  rw [List.idxOf_append_of_mem ha, List.idxOf_append_of_notMem hnot] at hlt
  exact absurd (List.idxOf_lt_length_of_mem ha) (by omega)

/-- A list without repetitions that keeps to the order of another with the same elements is
the other. -/
theorem eq_of_forall_precedes (hl : l.Nodup) (hm : m.Nodup) (hmem : ∀ x, x ∈ m ↔ x ∈ l)
    (hkeeps : l.Pairwise (Precedes m)) : m = l := by
  have hown : m.Pairwise fun a b => m.idxOf a < m.idxOf b := by
    rw [List.pairwise_iff_getElem]
    intro i j hi hj hlt
    rwa [hm.idxOf_getElem, hm.idxOf_getElem]
  have hother : l.Pairwise fun a b => m.idxOf a < m.idxOf b :=
    hkeeps.imp fun h => Graph.idxOf_lt_of_precedes h hm
  refine List.Perm.eq_of_pairwise (fun a b _ _ hab hba => ?_) hown hother
    ((List.perm_ext_iff_of_nodup hm hl).2 hmem)
  exact absurd hab (Nat.lt_asymm hba)

end Precedes

/-! ## What a sort lists -/

namespace Order

variable {g : Graph}

/-- If each node is sorted in with nothing but what it leads to, so are several. -/
theorem reached_of_mem_foldl {sortIn : Sorting → String → Sorting}
    (hsort : ∀ node s, ∀ x ∈ (sortIn s node).order,
      x ∈ s.order ∨ Relation.ReflTransGen g.Edge node x) {nodes : List String} {s : Sorting} :
    ∀ x ∈ (nodes.foldl sortIn s).order,
      x ∈ s.order ∨ ∃ node ∈ nodes, Relation.ReflTransGen g.Edge node x := by
  induction nodes generalizing s with
  | nil => exact fun x hx => .inl hx
  | cons node rest ih =>
      intro x hx
      rcases ih x hx with hnode | ⟨next, hnext, hreach⟩
      · exact (hsort node s x hnode).imp_right fun hreach => ⟨node, List.mem_cons_self, hreach⟩
      · exact .inr ⟨next, List.mem_cons_of_mem _ hnext, hreach⟩

/-- The sort of a node lists nothing but what the node leads to. -/
theorem reached_of_mem_sort (walk : List String) : ∀ (node : String) (s : Sorting),
    ∀ x ∈ (sort g walk node s).order, x ∈ s.order ∨ Relation.ReflTransGen g.Edge node x := by
  induction walk using walk_induction g.names with
  | step walk ih =>
      intro node s x hx
      by_cases hwalk : node ∈ walk
      · rw [sort_of_mem hwalk] at hx
        exact .inl hx
      by_cases hlisted : node ∈ s.order
      · rw [sort_of_left hwalk hlisted] at hx
        exact .inl hx
      rw [sort_of_new hwalk hlisted] at hx
      rcases List.mem_append.1 hx with hbelow | hself
      · by_cases hsource : node ∈ g.names
        · refine (reached_of_mem_foldl (fun next s => ih node hsource hwalk next s)
            x hbelow).imp_right ?_
          rintro ⟨next, hedge, hreach⟩
          exact .head hedge hreach
        · rw [Graph.targets_eq_nil hsource] at hbelow
          exact .inl hbelow
      · rw [List.mem_singleton.1 hself]
        exact .inr .refl

end Order

/-- The first roots of a graph account for a first part of the order: it holds them, and
nothing but what they lead to. -/
theorem Graph.exists_prefix_sorted {g : Graph} {schema : Schema} {front back : List String}
    (hroots : g.roots schema = front ++ back) :
    ∃ done, done <+: (g.sorted schema).order ∧ (∀ root ∈ front, root ∈ done) ∧
      ∀ x ∈ done, ∃ root ∈ front, Relation.ReflTransGen g.Edge root x := by
  let sortIn := fun (s : Order.Sorting) root => Order.sort g [] root s
  have hnode : ∀ root ∈ front ++ back, g.HasNode root := fun root hroot =>
    .inl (mem_roots.1 (hroots ▸ hroot))
  have hempty : Order.Sound g [] ⟨[], []⟩ := ⟨List.nodup_nil, by simp, by simp, by simp⟩
  obtain ⟨-, hsound, hsettled⟩ := Order.foldl_sorts (Order.sort_sorts [])
    (fun root hroot => hnode root (List.mem_append_left _ hroot)) hempty
  obtain ⟨hext, -, -⟩ := Order.foldl_sorts (Order.sort_sorts [])
    (fun root hroot => hnode root (List.mem_append_right _ hroot)) hsound
  refine ⟨(front.foldl sortIn ⟨[], []⟩).order, ?_, fun root hroot => ?_, fun x hx => ?_⟩
  · rw [sorted, hroots, List.foldl_append]
    exact hext.order
  · exact (hsettled root hroot).resolve_right (by rintro ⟨newest, hnewest, -⟩; cases hnewest)
  · exact (Order.reached_of_mem_foldl (Order.reached_of_mem_sort []) x hx).resolve_left nofun

namespace Schema

variable {schema : Schema} {registry : Registry}

/-- Where no name is declared twice, the roots are the declared names in encounter order. -/
theorem roots_draft (hnodup : schema.names.Nodup) :
    (schema.draft registry).graph.roots schema = schema.names := by
  have hcontains : schema.names.filter (schema.draft registry).graph.contains = schema.names := by
    refine List.filter_eq_self.2 fun name hname => ?_
    rw [NameMap.contains, ← NameMap.mem_names_iff]
    exact mem_names_draft.2 hname
  have hothers : (schema.draft registry).graph.names.removeAll schema.names = [] := by
    refine List.filter_eq_nil_iff.2 fun name hname => ?_
    simpa using mem_names_draft.1 hname
  rw [Graph.roots, hcontains, List.eraseDups_append, hothers, eraseDups_of_nodup hnodup]
  exact List.append_nil _

variable {analysis : Analysis}

theorem exists_compile_of_analyze (h : schema.analyze registry = .ok analysis) :
    ∃ p, schema.compile registry = .ok p ∧ p.analysis = analysis := by
  refine ⟨schema.program registry analysis, ?_, rfl⟩
  rw [analyze] at h
  rw [compile, compileWith, h]
  rfl

/-- The first declarations account for a first part of the order: it holds what they lead
to, and nothing else. -/
theorem exists_prefix_order (h : schema.analyze registry = .ok analysis)
    {front back : List String} (hnames : schema.names = front ++ back) :
    ∃ done, done <+: analysis.order ∧
      ∀ name, name ∈ done ↔ ∃ root ∈ front, schema.Reaches root name := by
  obtain ⟨p, hp, rfl⟩ := exists_compile_of_analyze h
  have hacc := accepted_of_compile hp
  have horder : p.analysis.order = ((schema.draft registry).graph.sorted schema).order := by
    rw [(analysis_of_analyze h).2]
    rfl
  obtain ⟨done, hpart, hroots, hreached⟩ :=
    Graph.exists_prefix_sorted ((roots_draft hacc.names_nodup).trans hnames)
  rw [← horder] at hpart
  refine ⟨done, hpart, fun name => ⟨fun hname => ?_, ?_⟩⟩
  · obtain ⟨root, hroot, hreach⟩ := hreached name hname
    exact ⟨root, hroot, Relation.ReflTransGen.mono
      (fun a b hedge => (mem_targets_draft.1 hedge).2) root name hreach⟩
  · rintro ⟨root, hroot, hreach⟩
    induction hreach with
    | refl => exact hroots root hroot
    | tail _ hrefers ih =>
        exact mem_first_part_of_precedes hpart hacc.order_nodup ih (hacc.ordered _ _ hrefers)

section Split

variable {front back : List Declaration} {a b : Declaration}
  (hdeclarations : schema.declarations = front ++ a :: back)

include hdeclarations

theorem names_eq_of_split :
    schema.names = (front ++ [a]).map (·.name) ++ back.map (·.name) := by
  rw [names, hdeclarations]
  simp

theorem not_mem_names_of_split (hnodup : schema.names.Nodup) (hb : b ∈ back) :
    b.name ∉ (front ++ [a]).map (·.name) := by
  rw [names_eq_of_split hdeclarations] at hnodup
  intro hmem
  exact (List.nodup_append.1 hnodup).2.2 _ hmem _ (List.mem_map_of_mem hb) rfl

/-- A declaration comes after an earlier one, if neither that one nor any before it leads
there. -/
theorem precedes_of_not_reached (h : schema.analyze registry = .ok analysis) (hb : b ∈ back)
    (hreach : ∀ c ∈ front ++ [a], ¬ Relation.TransGen schema.Refers c.name b.name) :
    Precedes analysis.order a.name b.name := by
  obtain ⟨p, hp, rfl⟩ := exists_compile_of_analyze h
  have hacc := accepted_of_compile hp
  have hnames := names_eq_of_split hdeclarations
  obtain ⟨done, hpart, hdone⟩ := exists_prefix_order h hnames
  apply precedes_of_first_part hpart
  · exact (hdone a.name).2 ⟨a.name, by simp, .refl⟩
  · intro hlisted
    obtain ⟨root, hroot, hreaches⟩ := (hdone b.name).1 hlisted
    rcases Relation.reflTransGen_iff_eq_or_transGen.1 hreaches with heq | htrans
    · exact not_mem_names_of_split hdeclarations hacc.names_nodup hb (heq ▸ hroot)
    · obtain ⟨c, hc, rfl⟩ := List.mem_map.1 hroot
      exact hreach c hc htrans
  · rw [hacc.mem_order, hnames]
    exact List.mem_append_right _ (List.mem_map_of_mem hb)

end Split

/-- Every reference of a declaration is to one that stands before it. -/
def RefersBackward (schema : Schema) : Prop :=
  ∀ front d back, schema.declarations = front ++ d :: back →
    ∀ e, d.expression = some e → ∀ target, .binding target ∈ e.nodes →
      ∃ earlier ∈ front, earlier.name = target

theorem RefersBackward.idxOf_lt (h : schema.RefersBackward) (hnodup : schema.names.Nodup)
    {name target : String} (hreach : Relation.TransGen schema.Refers name target) :
    schema.names.idxOf target < schema.names.idxOf name := by
  have hstep : ∀ source next, schema.Refers source next →
      schema.names.idxOf next < schema.names.idxOf source := by
    rintro source next ⟨e, ⟨d, hd, rfl, he⟩, hnode⟩
    obtain ⟨front, back, hsplit⟩ := List.append_of_mem hd
    obtain ⟨earlier, hearlier, rfl⟩ := h front d back hsplit e he next hnode
    refine Graph.idxOf_lt_of_precedes ⟨front.map (·.name), back.map (·.name), ?_, ?_⟩ hnodup
    · rw [names, hsplit, List.map_append, List.map_cons]
    · exact List.mem_map_of_mem hearlier
  exact lt_of_transGen hstep hreach

/-- Where references lead backward nothing has to be moved. -/
theorem order_eq_names (h : schema.analyze registry = .ok analysis)
    (hbackward : schema.RefersBackward) : analysis.order = schema.names := by
  obtain ⟨p, hp, rfl⟩ := exists_compile_of_analyze h
  have hacc := accepted_of_compile hp
  refine eq_of_forall_precedes hacc.names_nodup hacc.order_nodup hacc.mem_order ?_
  rw [names, List.pairwise_map, List.pairwise_iff_getElem]
  intro i j hi hj hlt
  have hsplit : schema.declarations = schema.declarations.take i ++
      schema.declarations[i] :: schema.declarations.drop (i + 1) := by simp
  have hlater : schema.declarations[j] ∈ schema.declarations.drop (i + 1) :=
    List.mem_drop_iff_getElem.2 ⟨j - (i + 1), by omega, by congr 1; omega⟩
  apply precedes_of_not_reached hsplit h hlater
  intro c hc hreach
  have hbefore : Precedes schema.names c.name schema.declarations[j].name :=
    precedes_of_first_part (names_eq_of_split hsplit ▸ List.prefix_append _ _)
      (List.mem_map_of_mem hc) (not_mem_names_of_split hsplit hacc.names_nodup hlater)
      (List.mem_map_of_mem (List.getElem_mem hj))
  -- References lead to earlier places, and this one stands at a later place.
  exact Nat.lt_asymm (hbackward.idxOf_lt hacc.names_nodup hreach)
    (Graph.idxOf_lt_of_precedes hbefore hacc.names_nodup)

/-- The order is stable. Of two declarations the one that is met first comes first, unless
references lead to the other one from it or from a declaration before it. If all references
lead to declarations met earlier, the order is the encounter order. A program holds its
slots in this order, in which each name stands once. -/
theorem order_of_analyze (h : schema.analyze registry = .ok analysis) :
    (∃ p, schema.compile registry = .ok p ∧ p.executionOrder = analysis.order) ∧
    analysis.order.Nodup ∧
    (∀ front a back, schema.declarations = front ++ a :: back → ∀ b ∈ back,
      (∀ c ∈ front ++ [a], ¬ Relation.TransGen schema.Refers c.name b.name) →
      Precedes analysis.order a.name b.name) ∧
    (schema.RefersBackward → analysis.order = schema.names) := by
  obtain ⟨p, hp, rfl⟩ := exists_compile_of_analyze h
  have hacc := accepted_of_compile hp
  exact ⟨⟨p, hp, hacc.executionOrder_eq⟩, hacc.order_nodup,
    fun front a back hsplit b hb => precedes_of_not_reached hsplit h hb, order_eq_names h⟩

end Schema

namespace Example

/-- What shipping costs, whatever else is declared. -/
def shipping : Declaration := ⟨.attribute, "shipping", some (.field "shipping"), none⟩

def express : Declaration :=
  ⟨.trait, "express", some (.call ">=" [.field "speed", .literal (.int 2)]), none⟩

/-- An invoice whose total leads to a tax declared last, and a surcharge that leads back to
an earlier trait. -/
def invoice : Schema where
  attributes :=
    [⟨.attribute, "total", some (.call "add" [.binding "net", .binding "tax"]), none⟩,
      shipping, ⟨.attribute, "net", some (.field "net"), none⟩]
  traits := [express]
  functions :=
    [⟨.function, "surcharge", some (.cascade
        [⟨.binding "express", .literal (.int 5)⟩] none), none⟩,
      ⟨.function, "tax", some (.call "multiply" [.binding "net", .field "rate"]), none⟩]

theorem refers_invoice {name target : String} (h : invoice.Refers name target) :
    name = "total" ∧ (target = "net" ∨ target = "tax") ∨ name = "tax" ∧ target = "net" ∨
      name = "surcharge" ∧ target = "express" := by
  obtain ⟨e, ⟨d, hd, rfl, he⟩, hnode⟩ := h
  simp only [invoice, Schema.declarations, shipping, express, List.cons_append, List.nil_append,
    List.mem_cons, List.not_mem_nil, or_false] at hd
  rcases hd with rfl | rfl | rfl | rfl | rfl | rfl <;> cases he <;>
    simp_all [Expr.nodes, Expr.nodesOfList, Expr.nodesOfCases]

/-- The surcharge apart, everything leads to the net and the tax at most. -/
theorem reached_invoice {name target : String}
    (h : Relation.TransGen invoice.Refers name target) (hname : name ≠ "surcharge") :
    target = "net" ∨ target = "tax" := by
  induction h with
  | single hrefers => rcases refers_invoice hrefers with h | h | h <;> simp_all
  | tail _ hrefers ih => rcases refers_invoice hrefers with h | h | h <;> simp_all

/-- Interest with no reference to anything declared later. -/
def interest : Schema where
  attributes :=
    [⟨.attribute, "rate", some (.field "rate"), none⟩,
      ⟨.attribute, "interest", some (.call "multiply" [.binding "rate", .field "balance"]), none⟩]
  traits := [⟨.trait, "earning", some (.call ">" [.binding "interest", .literal (.int 0)]), none⟩]
  functions := []

theorem refersBackward_interest : interest.RefersBackward := by
  intro front d back hsplit e he target hnode
  rcases front with _ | ⟨first, _ | ⟨second, _ | ⟨third, rest⟩⟩⟩
  all_goals
    simp only [interest, Schema.declarations, List.cons_append, List.nil_append,
      List.append_nil, List.cons.injEq] at hsplit
  · obtain ⟨rfl, -⟩ := hsplit
    cases he
    simp [Expr.nodes] at hnode
  · obtain ⟨rfl, rfl, -⟩ := hsplit
    cases he
    simp_all [Expr.nodes, Expr.nodesOfList]
  · obtain ⟨rfl, rfl, rfl, -⟩ := hsplit
    cases he
    simp_all [Expr.nodes, Expr.nodesOfList]
  · simp at hsplit

/-- The tax is met last and drawn forward by the total. Nothing up to the shipping leads to
the express trait, so the shipping stays before it. In the schema without references to
later declarations all names stay where they are. -/
theorem order_of_analyze_invoice :
    ∃ analysis other, invoice.analyze .builtins = .ok analysis ∧
      interest.analyze .builtins = .ok other ∧
      analysis.order = ["net", "tax", "total", "shipping", "express", "surcharge"] ∧
      (∀ c ∈ invoice.declarations.take 1 ++ [shipping],
        ¬ Relation.TransGen invoice.Refers c.name express.name) ∧
      Precedes analysis.order "shipping" "express" ∧
      other.order = ["rate", "interest", "earning"] := by
  have hruns : ((invoice.analyze .builtins).toOption.bind fun analysis =>
      (interest.analyze .builtins).toOption.map fun _ => analysis.order) =
      some ["net", "tax", "total", "shipping", "express", "surcharge"] := by
    decide +kernel
  obtain ⟨analysis, ha, hruns⟩ := Option.bind_eq_some_iff.1 hruns
  obtain ⟨other, hother, horder⟩ := Option.map_eq_some_iff.1 hruns
  rw [toOption_eq_some_iff] at ha hother
  obtain ⟨-, -, hstable, -⟩ := Schema.order_of_analyze ha
  obtain ⟨-, -, -, hsame⟩ := Schema.order_of_analyze hother
  have hreach : ∀ c ∈ invoice.declarations.take 1 ++ [shipping],
      ¬ Relation.TransGen invoice.Refers c.name express.name := by
    intro c hc htrans
    have hname : ∀ c ∈ invoice.declarations.take 1 ++ [shipping], c.name ≠ "surcharge" := by
      simp [invoice, Schema.declarations, shipping]
    exact absurd (reached_invoice htrans (hname c hc)) (by decide)
  have hlater : express ∈ invoice.declarations.drop 2 := by
    simp [invoice, Schema.declarations]
  have hbefore := hstable (invoice.declarations.take 1) shipping (invoice.declarations.drop 2)
    rfl express hlater hreach
  exact ⟨analysis, other, ha, hother, horder, hreach, hbefore, hsame refersBackward_interest⟩

end Example

end Rulebook
