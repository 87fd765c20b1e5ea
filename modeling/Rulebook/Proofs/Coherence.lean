/-
# Explanations are coherent

What a session tells of a name is told of it at any other point, and of every node on the
way: two memories that both remember a slot remember the same derivation of it, and so tell
the same tree. Equal names therefore carry equal trees, and as a tree is no proper part of
itself, no name comes back on the way down. What stands below a node is what its derivation
consulted: names that its expression refers to, and traits where it has a table.
-/

import Rulebook.Proofs.Desk
import Rulebook.Proofs.Replay

namespace Rulebook

/-! ## Trees -/

namespace Explanation

/-- The names on a way down a tree, from its root to any node below it. -/
inductive Path : Explanation → List String → Prop
  | root (tree : Explanation) : Path tree [tree.name]
  | down {tree child : Explanation} {names : List String} : child ∈ tree.dependencies →
      Path child names → Path tree (tree.name :: names)

/-- Nodes of the same name are the same, with all that stands below them. -/
def Coherent (tree : Explanation) : Prop :=
  ∀ node node', tree.Has node → tree.Has node' → node.name = node'.name → node = node'

variable {tree child node : Explanation} {name : String} {names : List String}

theorem Path.exists_node (h : tree.Path names) (hname : name ∈ names) :
    ∃ node, tree.Has node ∧ node.name = name := by
  induction h with
  | root tree => exact ⟨tree, .root tree, (List.mem_singleton.1 hname).symm⟩
  | down hchild _ ih =>
      rcases List.mem_cons.1 hname with rfl | hbelow
      · exact ⟨_, .root _, rfl⟩
      · obtain ⟨node, hnode, hnodeName⟩ := ih hbelow
        exact ⟨node, .within hchild hnode, hnodeName⟩

theorem sizeOf_lt_of_mem (h : child ∈ tree.dependencies) : sizeOf child < sizeOf tree := by
  have hless := List.sizeOf_lt_of_mem h
  cases tree
  simp only [mk.sizeOf_spec] at hless ⊢
  omega

theorem Has.sizeOf_le (h : tree.Has node) : sizeOf node ≤ sizeOf tree := by
  induction h with
  | root => exact Nat.le_refl _
  | within hchild _ ih => exact Nat.le_of_lt (Nat.lt_of_le_of_lt ih (sizeOf_lt_of_mem hchild))

theorem Coherent.of_mem (h : tree.Coherent) (hchild : child ∈ tree.dependencies) :
    child.Coherent :=
  fun node node' hnode hnode' => h node node' (.within hchild hnode) (.within hchild hnode')

/-- A name that came back would carry a tree that is part of itself. -/
theorem Coherent.nodup_of_path (h : tree.Coherent) (hpath : tree.Path names) : names.Nodup := by
  induction hpath with
  | root => exact List.nodup_singleton _
  | @down tree child names hchild hpath ih =>
      refine List.nodup_cons.2 ⟨fun hback => ?_, ih (h.of_mem hchild)⟩
      obtain ⟨node, hnode, hname⟩ := hpath.exists_node hback
      obtain rfl := h node tree (.within hchild hnode) (.root tree) hname
      exact absurd hnode.sizeOf_le (Nat.not_le_of_lt (sizeOf_lt_of_mem hchild))

/-! ### Finding a node -/

theorem find?_eq (tree : Explanation) : tree.find? name =
    if tree.name = name then some tree else findAmong? name tree.dependencies := by
  cases tree
  rfl

theorem exists_find?_of_findAmong? {trees : List Explanation}
    (h : findAmong? name trees = some node) : ∃ t ∈ trees, t.find? name = some node := by
  induction trees with
  | nil => cases h
  | cons t rest ih =>
      rw [findAmong?] at h
      cases ht : t.find? name with
      | some node' =>
          rw [ht] at h
          exact ⟨t, List.mem_cons_self, ht.trans h⟩
      | none =>
          rw [ht] at h
          obtain ⟨t', ht', hfind⟩ := ih h
          exact ⟨t', List.mem_cons_of_mem _ ht', hfind⟩

theorem exists_findAmong? {trees : List Explanation} {t : Explanation} (hmem : t ∈ trees)
    (h : t.find? name = some node) : ∃ node', findAmong? name trees = some node' := by
  induction trees with
  | nil => cases hmem
  | cons first rest ih =>
      rw [findAmong?]
      cases hfirst : first.find? name with
      | some node' => exact ⟨node', rfl⟩
      | none =>
          rcases List.mem_cons.1 hmem with rfl | hrest
          · cases h.symm.trans hfirst
          · exact ih hrest

/-- What is found stands in the tree and has the name. -/
theorem has_of_find? (tree : Explanation) (h : tree.find? name = some node) :
    tree.Has node ∧ node.name = name := by
  rw [find?_eq] at h
  split at h
  · rename_i hname
    cases h
    exact ⟨.root _, hname⟩
  · obtain ⟨child, hchild, hfind⟩ := exists_find?_of_findAmong? h
    obtain ⟨hhas, hname⟩ := has_of_find? child hfind
    exact ⟨.within hchild hhas, hname⟩
termination_by sizeOf tree
decreasing_by exact sizeOf_lt_of_mem hchild

theorem Has.exists_find? (h : tree.Has node) (hname : node.name = name) :
    ∃ node', tree.find? name = some node' := by
  induction h with
  | root tree => exact ⟨tree, by rw [find?_eq, if_pos hname]⟩
  | within hchild _ ih =>
      obtain ⟨node', hnode'⟩ := ih hname
      rw [find?_eq]
      split
      · exact ⟨_, rfl⟩
      · exact exists_findAmong? hchild hnode'

/-- Where the name determines the node, the search finds it. -/
theorem Coherent.find?_eq_some_iff (h : tree.Coherent) :
    tree.find? name = some node ↔ tree.Has node ∧ node.name = name := by
  refine ⟨has_of_find? tree, fun ⟨hnode, hname⟩ => ?_⟩
  obtain ⟨node', hfind⟩ := hnode.exists_find? hname
  obtain ⟨hnode', hname'⟩ := has_of_find? tree hfind
  rw [hfind, h node' node hnode' hnode (hname'.trans hname.symm)]

end Explanation

/-! ## Two memories -/

/-- What comes to a value in both on the same record comes to the same value, and takes down
the same. -/
def Coupling.sameRecord {σ : Type} :
    Coupling (ExceptT Fault (StateM σ)) (ExceptT Fault (StateM σ)) where
  Rel x y := ∀ s a b, (x.run s).1 = .ok a → (y.run s).1 = .ok b → x.run s = y.run s
  pure _ _ _ _ _ _ := rfl
  bind {_ _ x y f g} hx hf s b c hb hc := by
    obtain ⟨a, s', hfirst, hrest⟩ := exists_of_run_bind (Prod.ext hb rfl)
    obtain ⟨a', t', hfirst', hrest'⟩ := exists_of_run_bind (Prod.ext hc rfl)
    have hsame := hx s a a' (by rw [hfirst]) (by rw [hfirst'])
    rw [hfirst, hfirst'] at hsame
    cases hsame
    rw [run_bind, run_bind, hfirst, hfirst']
    exact hf a s' b c (by rw [hrest]) (by rw [hrest'])

namespace Schema.Compiled

open Memo

variable {schema : Schema} {registry : Registry} {p : Program} {ctx : Context}
  (h : schema.Compiled registry p)

include h

/-- Two derivations of a slot are the same, whatever else was remembered before each. -/
theorem derivation_unique {before before' : Memo} {d d' : Derivation}
    (hd : Memo.Recorded p ctx (d :: before)) (hd' : Memo.Recorded p ctx (d' :: before'))
    (hslot : d.slot = d'.slot) : d = d' := by
  cases hd with
  | @cons _ _ entry hbefore _ hentry hderive =>
    cases hd' with
    | @cons _ _ entry' hbefore' _ hentry' hderive' =>
      rw [← hslot, hentry, Option.some.injEq] at hentry'
      subst hentry'
      -- Who is asked gives the same value in both memories, if it gives one in each.
      have hask : ∀ next, Coupling.sameRecord.Rel (onRecord before.answer next)
          (onRecord (Memo.answer before') next) := by
        intro next log v v' hv hv'
        obtain ⟨e, he, hvalue⟩ := answer_eq_ok_iff.1 hv
        obtain ⟨e', he', hvalue'⟩ := answer_eq_ok_iff.1 hv'
        have hsame := h.value_unique (h.founded_of_recorded hbefore)
          (h.founded_of_recorded hbefore') he he'
        rw [hvalue, hvalue'] at hsame
        subst hsame
        exact Prod.ext (hv.trans hv'.symm) rfl
      have hrun := h.coupled_derive _ ctx (fun _ _ _ _ _ hthrow => by cases hthrow) hentry
        (fun next _ => hask next) [] _ _ (by rw [hderive]) (by rw [hderive'])
      rw [hderive, hderive'] at hrun
      cases d
      cases d'
      obtain ⟨hpair, rfl⟩ := Prod.mk.inj hrun
      obtain ⟨rfl, rfl⟩ := Prod.mk.inj (Except.ok.inj hpair)
      cases hslot
      rfl

/-- Two memories that both remember a slot tell the same of it. -/
theorem told_unique {memo memo' : Memo} (hmemo : memo.Recorded p ctx)
    (hmemo' : memo'.Recorded p ctx) {slot : Nat} {d d' : Derivation}
    (hd : memo.entry? slot = some d) (hd' : memo'.entry? slot = some d') :
    memo.explanation? p slot = memo'.explanation? p slot := by
  induction memo generalizing memo' slot d d' with
  | nil => cases hd
  | cons newest before ih =>
      have hbefore := hmemo.of_suffix (List.suffix_cons newest before)
      rw [entry?_cons] at hd
      rw [explanation?]
      split at hd
      · rename_i hslot
        cases hd
        subst hslot
        obtain ⟨entry, hentry⟩ := hmemo'.exists_slot hd'
        obtain ⟨before', hsuffix, htold⟩ := exists_explanation hd' hentry
        have hnewest' := hmemo'.of_suffix hsuffix
        obtain ⟨hslot', -⟩ := exists_suffix_of_entry? hd'
        obtain rfl := h.derivation_unique hmemo hnewest' hslot'.symm
        obtain ⟨-, hconsulted⟩ := h.consulted_of_recorded hmemo
        obtain ⟨-, hconsulted'⟩ := h.consulted_of_recorded hnewest'
        have htrees : newest.consulted.filterMap (explanation? p before) =
            newest.consulted.filterMap (explanation? p before') := by
          apply List.filterMap_congr
          intro next hnext
          obtain ⟨e, he⟩ := hconsulted next hnext
          obtain ⟨e', he'⟩ := hconsulted' next hnext
          exact ih hbefore (hnewest'.of_suffix (List.suffix_cons _ _)) he he'
        rw [htold, if_pos rfl, hentry, Option.map_some, htrees]
      · rename_i hslot
        rw [if_neg hslot]
        exact ih hbefore hmemo' hd hd'

/-- A derivation consults nothing but what the slot may ask for. -/
theorem consults_of_recorded {d : Derivation} {older : Memo} {entry : Slot}
    (hrecorded : Memo.Recorded p ctx (d :: older)) (hentry : p.slots[d.slot]? = some entry) :
    ∀ next ∈ d.consulted, schema.Consults p entry next := by
  cases hrecorded with
  | cons _ _ hentry' hderive =>
      cases hentry'.symm.trans hentry
      let Inv (log : List Nat) : Prop := ∀ next ∈ log, schema.Consults p entry next
      have hask : ∀ next, schema.Consults p entry next → (Coupling.keepsOnSuccess Inv).Rel
          (onRecord older.answer next) (onRecord older.answer next) := by
        intro next hnext log v hlog _ slot hslot
        rcases mem_firstUse.1 hslot with hslot | rfl
        · exact hlog slot hslot
        · exact hnext
      have hkept := h.coupled_derive (Coupling.keepsOnSuccess Inv) ctx
        (fun _ _ _ _ _ hthrow => by cases hthrow) hentry hask [] (d.value, d.resolver)
        (List.forall_mem_nil _)
      rw [hderive] at hkept
      exact hkept rfl

end Schema.Compiled

namespace Schema.Accepted

open Memo

variable {schema : Schema} {registry : Registry} {p : Program} {ctx : Context}
  (h : schema.Accepted registry p)

include h

/-- What stands right below a node has names of its own, which the node may ask for. -/
theorem below_of_recorded {d : Derivation} {older : Memo} {entry : Slot}
    (hrecorded : Memo.Recorded p ctx (d :: older)) (hentry : p.slots[d.slot]? = some entry)
    {node : Explanation} (hname : node.name = entry.name)
    (hnode : node.dependencies = d.consulted.filterMap (older.explanation? p)) :
    node.children.Nodup ∧ ∀ child ∈ node.children, schema.Refers node.name child ∨
      p.hasDecisionTable node.name = true ∧ schema.DeclaresKind .trait child := by
  obtain ⟨hnodup, hslots⟩ := h.compiled.consulted_of_recorded hrecorded
  have hconsults := h.compiled.consults_of_recorded hrecorded hentry
  have holder := hrecorded.of_suffix (List.suffix_cons d older)
  rw [holder.children_eq hslots hnode]
  constructor
  · exact hnodup.map_on (h.slotName_inj_of_remembered holder hslots)
  · intro child hchild
    obtain ⟨next, hnext, rfl⟩ := List.mem_map.1 hchild
    rw [hname]
    cases hconsults next hnext with
    | reference hrefers htarget =>
        rw [Program.slotName_of_slotOf? htarget]
        exact .inl hrefers
    | trait htable htrait =>
        obtain ⟨other, hother, hkind⟩ := Program.mem_traitSlots.1 htrait
        rw [Program.slotName_eq hother]
        exact .inr ⟨(h.declaresKind_of_table hentry htable).2, hkind ▸ h.declaresKind_slot hother⟩

variable {start s : Session} (hopen : p.session ctx = .ok start) (hlater : start.Later s)

include hopen hlater

/-- What any memory tells of a slot is what the name of the slot resolves to and is explained
by, at any point. -/
theorem explain_of_told {memo : Memo} (hmemo : memo.Recorded p ctx) {slot : Nat}
    {tree : Explanation} (htold : memo.explanation? p slot = some tree) :
    (s.resolve tree.name).1 = .ok tree.value ∧ (s.explain tree.name).1 = .ok tree := by
  have hrecorded := h.compiled.recorded_of_later hopen (hlater.tail (.resolve tree.name))
  obtain ⟨rfl, rfl, houtside⟩ := h.compiled.founded_of_later hopen hlater
  obtain ⟨d, hd⟩ := Memo.exists_entry?_of_told htold
  obtain ⟨entry, hentry⟩ := hmemo.exists_slot hd
  obtain ⟨tree', htree', hname, -, hvalue⟩ := hmemo.exists_told hd
  cases htold.symm.trans htree'
  have hslot : s.program.slotOf? tree.name = some slot := by
    rw [hname, Program.slotName_eq hentry]
    exact Program.slotOf?_name h.executionOrder_nodup hentry
  have hresolve : (s.resolve tree.name).1 = .ok tree.value := by
    rw [Session.resolve_of_slotOf? hslot, hvalue]
    exact h.compiled.resolveWith_eq_ok (h.compiled.founded_of_recorded hmemo)
      (List.forall_mem_nil _) houtside hd
  refine ⟨hresolve, ?_⟩
  obtain ⟨d', tree', hd', htold', hexplain⟩ := Session.exists_told_of_ok hrecorded hslot hresolve
  rw [h.compiled.told_unique hmemo hrecorded hd hd', htold'] at htold
  cases htold
  exact hexplain

variable {name : String} {tree node : Explanation} (htree : (s.explain name).1 = .ok tree)

include htree

/-- The root of a tree has the name that was asked for. -/
theorem name_of_explain : tree.name = name := by
  obtain ⟨slot, hslot, htold⟩ := Session.explanation?_of_explain htree
  obtain ⟨d, hd⟩ := Memo.exists_entry?_of_told htold
  have hafter := hlater.tail (.resolve name)
  have hrecorded := h.compiled.recorded_of_later hopen hafter
  rw [(h.compiled.founded_of_later hopen hafter).1] at hslot htold
  obtain ⟨tree', htree', hname, -⟩ := hrecorded.exists_told hd
  cases htold.symm.trans htree'
  exact hname.trans (Program.slotName_of_slotOf? hslot)

variable (hnode : tree.Has node)

include hnode

/-- Every node tells what some part of the memory remembers last. -/
theorem exists_recorded_of_has : ∃ d older entry, Memo.Recorded p ctx (d :: older) ∧
    p.slots[d.slot]? = some entry ∧ node.name = entry.name ∧
    node.dependencies = d.consulted.filterMap (Memo.explanation? p older) ∧
    Memo.explanation? p (d :: older) d.slot = some node := by
  obtain ⟨slot, -, htold⟩ := Session.explanation?_of_explain htree
  have hafter := hlater.tail (.resolve name)
  have hrecorded := h.compiled.recorded_of_later hopen hafter
  rw [(h.compiled.founded_of_later hopen hafter).1] at htold
  obtain ⟨d, older, entry, hsuffix, hentry, rfl⟩ := Memo.exists_derivation_of_has htold hnode
  refine ⟨d, older, entry, hrecorded.of_suffix hsuffix, hentry, rfl, rfl, ?_⟩
  rw [Memo.explanation?, if_pos rfl, hentry, Option.map_some]

/-- Every node is what its name resolves to and is explained by, at any other point. -/
theorem explain_of_has {s' : Session} (hlater' : start.Later s') :
    (s'.resolve node.name).1 = .ok node.value ∧ (s'.explain node.name).1 = .ok node := by
  obtain ⟨d, older, -, hd, -, -, -, htold⟩ := h.exists_recorded_of_has hopen hlater htree hnode
  exact h.explain_of_told hopen hlater' hd htold

omit hnode in
/-- A name is explained by one tree only, so nodes of one name are one. -/
theorem coherent : tree.Coherent := by
  intro node node' hnode hnode' hname
  have hexplained := (h.explain_of_has hopen hlater htree hnode hlater).2
  rw [hname, (h.explain_of_has hopen hlater htree hnode' hlater).2] at hexplained
  exact (Except.ok.inj hexplained).symm

end Schema.Accepted

/-- Explanations are coherent. Whatever was called on a session before it tells a tree, and
at any point at which the same context is evaluated, before or after it or in between other
calls: the root has the name that was asked for, and the value that the name resolves to;
every node is the tree that its name is explained by. The search finds the node of a name
exactly if there is one. Right below a node no name stands twice, nor does one on a way
down; and what stands right below it is a name that its expression refers to, or a trait
where the node has a decision table. -/
theorem Schema.coherent_of_explain {schema : Schema} {registry : Registry} {p : Program}
    {ctx : Context} (hp : schema.compile registry = .ok p) {start s : Session}
    (hopen : p.session ctx = .ok start) (hlater : start.Later s) {name : String}
    {tree : Explanation} (htree : (s.explain name).1 = .ok tree) :
    tree.name = name ∧
    (∀ s', start.Later s' → (s'.resolve name).1 = .ok tree.value) ∧
    (∀ node, tree.Has node → ∀ s', start.Later s' → (s'.explain node.name).1 = .ok node) ∧
    (∀ other node, tree.find? other = some node ↔ tree.Has node ∧ node.name = other) ∧
    (∀ names, tree.Path names → names.Nodup) ∧
    ∀ node, tree.Has node → node.children.Nodup ∧
      ∀ child ∈ node.children, schema.Refers node.name child ∨
        p.hasDecisionTable node.name = true ∧ schema.DeclaresKind .trait child := by
  have h := accepted_of_compile hp
  have hroot := h.name_of_explain hopen hlater htree
  have hcoherent := h.coherent hopen hlater htree
  refine ⟨hroot, fun s' hlater' => ?_, fun node hnode s' hlater' => ?_, fun other node => ?_,
    fun names => ?_, fun node hnode => ?_⟩
  · exact hroot ▸ (h.explain_of_has hopen hlater htree (.root tree) hlater').1
  · exact (h.explain_of_has hopen hlater htree hnode hlater').2
  · exact hcoherent.find?_eq_some_iff
  · exact hcoherent.nodup_of_path
  · obtain ⟨d, older, entry, hd, hentry, hname, hbelow, -⟩ :=
      h.exists_recorded_of_has hopen hlater htree hnode
    exact h.below_of_recorded hd hentry hname hbelow

namespace Example

/-- An offer and its fallback side by side: the fallback is consulted by both the bundle and
the offer, and the offer has a table, so that it consults a trait that its result does not
refer to. -/
def bundles : Schema where
  attributes :=
    [⟨.attribute, "bundle", some (.list [.binding "offer", .binding "fallback"]), none⟩,
      ⟨.attribute, "offer", some (.cascade
        [⟨.binding "gold", .literal (.string "A")⟩] (some (.binding "fallback"))), none⟩,
      ⟨.attribute, "fallback", some (.call "concatenate"
        [.literal (.string "none in "), .field "region"]), none⟩]
  traits :=
    [⟨.trait, "gold", some (.call "==" [.field "tier", .literal (.string "gold")]), none⟩,
      ⟨.trait, "local", some (.call "==" [.field "region", .literal (.string "us")]), none⟩]
  functions := []

/-- The offer in the tree of a bundle is what the offer is explained by, before the bundle was
asked for and also after an unknown name was; and the fallback below the bundle is the one
below the offer. -/
theorem coherent_of_explain_bundles :
    ∃ p start tree offer fallback, bundles.compile .builtins = .ok p ∧
      p.session silverOverseas = .ok start ∧ (start.explain "bundle").1 = .ok tree ∧
      tree.children = ["offer", "fallback"] ∧ tree.find? "offer" = some offer ∧
      offer.children = ["gold", "local", "fallback"] ∧
      (start.explain "offer").1 = .ok offer ∧
      (((start.explain "bundle").2.resolve "tier").2.explain "offer").1 = .ok offer ∧
      tree.find? "fallback" = some fallback ∧ offer.find? "fallback" = some fallback ∧
      (start.resolve "fallback").1 = .ok (.string "none in us") ∧
      (bundles.Refers "offer" "local" ∨
        p.hasDecisionTable "offer" = true ∧ bundles.DeclaresKind .trait "local") := by
  have hruns : ((bundles.compile .builtins).toOption.bind fun p =>
      (p.session silverOverseas).toOption.bind fun start =>
        (start.explain "bundle").1.toOption.bind fun tree =>
          (tree.find? "offer").bind fun offer => (tree.find? "fallback").bind fun fallback =>
            fallback.value.asString.map fun text => (tree.children, offer.children, text)) =
      some (["offer", "fallback"], ["gold", "local", "fallback"], "none in us") := by
    decide +kernel
  obtain ⟨p, hp, hruns⟩ := Option.bind_eq_some_iff.1 hruns
  obtain ⟨start, hopen, hruns⟩ := Option.bind_eq_some_iff.1 hruns
  obtain ⟨tree, htree, hruns⟩ := Option.bind_eq_some_iff.1 hruns
  obtain ⟨offer, hoffer, hruns⟩ := Option.bind_eq_some_iff.1 hruns
  obtain ⟨fallback, hfallback, hruns⟩ := Option.bind_eq_some_iff.1 hruns
  obtain ⟨text, htext, hnames⟩ := Option.map_eq_some_iff.1 hruns
  simp only [Prod.mk.injEq] at hnames
  obtain ⟨hchildren, hbelow, rfl⟩ := hnames
  rw [toOption_eq_some_iff] at hp hopen htree
  obtain ⟨-, -, hsame, hfind, -, hstands⟩ := Schema.coherent_of_explain hp hopen .refl htree
  obtain ⟨hhas, hname⟩ := (hfind _ _).1 hoffer
  obtain ⟨hhas', hname'⟩ := (hfind _ _).1 hfallback
  have hexplain := hsame offer hhas start .refl
  have hexplain' := hsame fallback hhas' start .refl
  have hlater : start.Later ((start.explain "bundle").2.resolve "tier").2 :=
    .tail (.single (.explain "bundle")) (.resolve "tier")
  have hagain := hsame offer hhas _ hlater
  have hlocal := (hstands offer hhas).2 "local" (by simp [hbelow])
  rw [hname] at hexplain hagain hlocal
  rw [hname'] at hexplain'
  -- The offer is told by itself with a fallback below it, and the fallback is told once only.
  obtain ⟨-, -, hsame', hfind', -⟩ := Schema.coherent_of_explain hp hopen .refl hexplain
  have hthere : "fallback" ∈ offer.dependencies.map (·.name) := by
    show "fallback" ∈ offer.children
    simp [hbelow]
  obtain ⟨node, hmem, hnode⟩ := List.mem_map.1 hthere
  have hnodeHas : offer.Has node := .within hmem (.root node)
  have honce := hsame' node hnodeHas start .refl
  rw [hnode, hexplain', Except.ok.injEq] at honce
  subst honce
  obtain ⟨-, hvalue, -⟩ := Schema.coherent_of_explain hp hopen .refl hexplain'
  have hresolve := hvalue start .refl
  rw [Value.asString_eq_some_iff.1 htext] at hresolve
  exact ⟨p, start, tree, offer, fallback, hp, hopen, htree, hchildren, hoffer, hbelow, hexplain,
    hagain, hfallback, (hfind' _ _).2 ⟨hnodeHas, hnode⟩, hresolve, hlocal⟩

end Example

end Rulebook
