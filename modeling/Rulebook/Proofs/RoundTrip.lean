/-
# Reading gives back what was written

A value, an expression, an arm, a declaration or a schema is read from its JSON form as it
was, also when the members of any objects in it come in another order than they were
written: other writers sort them. Doubles have to be finite, as no other has a JSON form,
and the names in a map have to ascend, as they do in any map; nothing else is assumed.
-/

import Mathlib.Data.List.Permutation
import Rulebook.Json.Decode
import Rulebook.Json.Encode
import Rulebook.Proofs.Occurrence
import Rulebook.Proofs.Traversal

namespace Rulebook

/-! ## Members in any order -/

namespace Json

mutual

/-- The same JSON value but for the order of the members of objects, at any depth. -/
inductive Reordered : Json → Json → Prop
  | same (j : Json) : Reordered j j
  | array {items items' : List Json} : List.Forall₂ Reordered items items' →
      Reordered (.array items) (.array items')
  | object {members between members' : List (String × Json)} :
      List.Forall₂ ReorderedMember members between → between.Perm members' →
      Reordered (.object members) (.object members')

/-- A member of the same name with the same contents, but for the order of members. -/
inductive ReorderedMember : String × Json → String × Json → Prop
  | named (name : String) {j j' : Json} : Reordered j j' → ReorderedMember (name, j) (name, j')

end

namespace Reordered

variable {j contents : Json} {tag : String}

theorem of_array {items : List Json} (h : (Json.array items).Reordered j) :
    ∃ items', j = .array items' ∧ List.Forall₂ Reordered items items' := by
  cases h with
  | same => exact ⟨items, rfl, List.forall₂_same.2 fun j _ => .same j⟩
  | array hitems => exact ⟨_, rfl, hitems⟩

theorem of_object {members : List (String × Json)} (h : (Json.object members).Reordered j) :
    ∃ between members', j = .object members' ∧ List.Forall₂ ReorderedMember members between ∧
      between.Perm members' := by
  cases h with
  | same =>
      have hsame : List.Forall₂ ReorderedMember members members :=
        List.forall₂_same.2 fun m _ => .named m.1 (.same m.2)
      exact ⟨members, members, rfl, hsame, .refl _⟩
  | object hmembers hperm => exact ⟨_, _, rfl, hmembers, hperm⟩

/-- An alternative stands alone, so there is no other order. -/
theorem of_tagged (h : (tagged tag contents).Reordered j) :
    ∃ contents', j = tagged tag contents' ∧ contents.Reordered contents' := by
  obtain ⟨between, members', rfl, hmembers, hperm⟩ := h.of_object
  cases hmembers with
  | cons hmember hnil =>
      cases hmember with
      | named _ hcontents =>
          cases hnil
          exact ⟨_, congrArg Json.object (List.perm_singleton.1 hperm.symm), hcontents⟩

/-- Two members come in one order or in the other. -/
theorem of_pair {name name' : String} {first second : Json}
    (h : (Json.object [(name, first), (name', second)]).Reordered j) :
    ∃ first' second', first.Reordered first' ∧ second.Reordered second' ∧
      (j = .object [(name, first'), (name', second')] ∨
        j = .object [(name', second'), (name, first')]) := by
  obtain ⟨between, members', rfl, hmembers, hperm⟩ := h.of_object
  cases hmembers with
  | cons hmember hrest =>
    cases hmember with
    | named _ hfirst =>
      cases hrest with
      | cons hmember' hnil =>
        cases hmember' with
        | named _ hsecond =>
            cases hnil
            refine ⟨_, _, hfirst, hsecond, ?_⟩
            exact (List.pair_perm.1 hperm).imp (congrArg Json.object) (congrArg Json.object)

end Reordered

/-! ### Fields -/

theorem member?_of_mem {members : List (String × Json)} (h : (members.map Prod.fst).Nodup)
    {m : String × Json} (hm : m ∈ members) : (Json.object members).member? m.1 = some m.2 := by
  cases hfind : members.find? (·.1 = m.1) with
  | none => exact absurd (decide_eq_true rfl) (List.find?_eq_none.1 hfind m hm)
  | some m' =>
      have hname : m'.1 = m.1 := by simpa using List.find?_some hfind
      rw [List.inj_on_of_nodup_map h (List.mem_of_find?_eq_some hfind) hm hname] at hfind
      simp [member?, hfind]

/-- The fields of a structure are found by their names, in whatever order they come. -/
theorem Reordered.exists_fields {members : List (String × Json)} {j : Json}
    (h : (members.map Prod.fst).Nodup) (hj : (Json.object members).Reordered j) :
    ∃ contents, j.fields? (members.map Prod.fst) = some (contents.map some) ∧
      List.Forall₂ Reordered (members.map Prod.snd) contents := by
  obtain ⟨between, members', rfl, hmembers, hperm⟩ := hj.of_object
  have hnames : members.map Prod.fst = between.map Prod.fst := by
    clear h hperm hj
    induction hmembers with
    | nil => rfl
    | cons hmember _ ih =>
        cases hmember
        rw [List.map_cons, List.map_cons, ih]
  refine ⟨between.map Prod.snd, ?_, ?_⟩
  · rw [hnames] at h ⊢
    have hdistinct : (members'.map Prod.fst).Nodup := (hperm.map Prod.fst).nodup_iff.1 h
    rw [fields?, List.map_map, List.map_map]
    congr 1
    apply List.map_congr_left
    intro m hm
    exact member?_of_mem hdistinct (hperm.mem_iff.1 hm)
  · rw [List.forall₂_map_left_iff, List.forall₂_map_right_iff]
    refine hmembers.imp fun m m' hmember => ?_
    cases hmember with
    | named _ hcontents => exact hcontents

end Json

/-! ## Lists -/

/-- A list is read as it was written if every item is. -/
theorem mapM_eq_some_of_forall₂ {α β γ : Type} {R : β → γ → Prop} {write : α → β}
    (read : γ → Option α) {xs : List α} {ys : List γ} (hys : List.Forall₂ R (xs.map write) ys)
    (hread : ∀ x ∈ xs, ∀ y, R (write x) y → read y = some x) : ys.mapM read = some xs := by
  rw [mapM_eq_some_iff]
  induction xs generalizing ys with
  | nil =>
      cases hys
      rfl
  | cons x rest ih =>
      obtain ⟨hx, hrest⟩ := List.forall_mem_cons.1 hread
      cases hys with
      | cons hy hys => rw [List.map_cons, List.map_cons, hx _ hy, ih hys hrest]

/-- Of items in another order the results come in that order. -/
theorem exists_mapM_of_perm {α β : Type} {read : α → Option β} {xs xs' : List α} {ys : List β}
    (h : xs.mapM read = some ys) (hperm : xs.Perm xs') :
    ∃ ys', xs'.mapM read = some ys' ∧ ys.Perm ys' := by
  rw [mapM_eq_some_iff] at h
  have hresults : (ys.map some).Perm (xs'.map read) := h ▸ hperm.map read
  have hread : ∀ x ∈ xs', read x = read x ∧ (read x).isSome = true := by
    intro x hx
    obtain ⟨y, -, hy⟩ := List.mem_map.1 (hresults.mem_iff.2 (List.mem_map_of_mem hx))
    exact ⟨rfl, hy ▸ rfl⟩
  refine ⟨xs'.filterMap read, mapM_eq_filterMap hread, ?_⟩
  simpa [List.filterMap_map, Function.comp_def] using hresults.filterMap id

namespace Entries

variable {α : Type} {entries entries' : List (String × α)}

theorem Ascending.nodup (h : Ascending entries) : entries.Nodup :=
  .of_map Prod.fst (h.imp String.ne_of_lt)

/-- Entries that ascend are put in order from any order. -/
theorem ofList_of_perm (h : Ascending entries) (hperm : entries.Perm entries') :
    ofList entries' = entries := by
  have hsorted := ascending_ofList entries'
  have hunique : ∀ name v w, (name, v) ∈ entries' → (name, w) ∈ entries' → v = w := by
    intro name v w hv hw
    rw [← hperm.mem_iff, mem_iff_find? h] at hv hw
    exact Option.some.inj (hv.symm.trans hw)
  -- Both lists ascend, so it is enough that they have the same entries.
  have hmem : ∀ e, e ∈ ofList entries' ↔ e ∈ entries := by
    rintro ⟨name, v⟩
    rw [mem_iff_find? hsorted, hperm.mem_iff]
    exact NameMap.find?_ofList_eq_some_iff (hunique name)
  apply ((List.perm_ext_iff_of_nodup hsorted.nodup h.nodup).2 hmem).eq_of_pairwise _
    (List.pairwise_map.1 hsorted) (List.pairwise_map.1 h)
  intro a b _ _ hab hba
  exact absurd (String.lt_trans hab hba) (String.lt_irrefl _)

end Entries

/-! ## Values -/

namespace Value

/-- Every double in the value, at any depth, is finite. -/
inductive Finite : Value → Prop
  | null : Finite .null
  | bool (b : Bool) : Finite (.bool b)
  | int (i : Int64) : Finite (.int i)
  | float {x : Binary64} : x.isFinite = true → Finite (.float x)
  | string (s : String) : Finite (.string s)
  | list {items : List Value} : (∀ v ∈ items, Finite v) → Finite (.list items)
  | map {entries : List (String × Value)} : (∀ e ∈ entries, Finite e.2) → Finite (.map entries)

/-- A value that has a JSON form: its maps are maps, and its doubles are finite. -/
structure Writable (v : Value) : Prop where
  ordered : v.Ordered
  finite : v.Finite

theorem toJsonItems_eq_map (items : List Value) : toJsonItems items = items.map toJson := by
  induction items with
  | nil => rfl
  | cons v rest ih => rw [toJsonItems, ih, List.map_cons]

theorem toJsonEntries_eq_map (entries : List (String × Value)) :
    toJsonEntries entries = entries.map fun e => (e.1, e.2.toJson) := by
  induction entries with
  | nil => rfl
  | cons e rest ih => rw [toJsonEntries, ih, List.map_cons]

theorem ofJsonItems?_eq_mapM (items : List Json) : ofJsonItems? items = items.mapM ofJson? := by
  induction items with
  | nil => rfl
  | cons j rest ih => rw [ofJsonItems?, ih, List.mapM_cons]

/-- Read one map entry. -/
def entryOfJson? (m : String × Json) : Option (String × Value) := (ofJson? m.2).map (m.1, ·)

theorem ofJsonMembers?_eq_mapM (members : List (String × Json)) :
    ofJsonMembers? members = members.mapM entryOfJson? := by
  induction members with
  | nil => rfl
  | cons m rest ih =>
      rw [ofJsonMembers?, ih, List.mapM_cons, entryOfJson?]
      cases ofJson? m.2 <;> rfl

/-- A value is read as it was written. -/
theorem ofJson?_of_reordered {v : Value} (hordered : v.Ordered) (hfinite : v.Finite) {j : Json}
    (h : v.toJson.Reordered j) : ofJson? j = some v := by
  induction hordered generalizing j with
  | null =>
      cases h
      rfl
  | bool b =>
      obtain ⟨_, rfl, hcontents⟩ := h.of_tagged
      cases hcontents
      rfl
  | int i =>
      obtain ⟨_, rfl, hcontents⟩ := h.of_tagged
      cases hcontents
      rw [Json.tagged, ofJson?, checkedInt64_toInt, Option.map_some]
  | float x =>
      obtain ⟨_, rfl, hcontents⟩ := h.of_tagged
      cases hfinite with
      | float hx =>
          rw [Json.ofBinary64, if_pos hx] at hcontents
          cases hcontents
          rfl
  | string s =>
      obtain ⟨_, rfl, hcontents⟩ := h.of_tagged
      cases hcontents
      rfl
  | list hordered ih =>
      obtain ⟨_, rfl, hcontents⟩ := h.of_tagged
      obtain ⟨items, rfl, hitems⟩ := hcontents.of_array
      cases hfinite with
      | list hfinite =>
          rw [toJsonItems_eq_map] at hitems
          have hread := mapM_eq_some_of_forall₂ ofJson? hitems fun v hv j hj =>
            ih v hv (hfinite v hv) hj
          rw [Json.tagged, ofJson?, ofJsonItems?_eq_mapM, hread, Option.map_some]
  | map hascending hordered ih =>
      obtain ⟨_, rfl, hcontents⟩ := h.of_tagged
      obtain ⟨between, members, rfl, hbetween, hperm⟩ := hcontents.of_object
      cases hfinite with
      | map hfinite =>
          rw [toJsonEntries_eq_map] at hbetween
          have hread := mapM_eq_some_of_forall₂ entryOfJson? hbetween fun e he m hm => by
            cases hm with
            | named _ hj => rw [entryOfJson?, ih e he (hfinite e he) hj, Option.map_some]
          -- The entries come in the order of the members, and are put in order when read.
          obtain ⟨entries, hentries, hpermEntries⟩ := exists_mapM_of_perm hread hperm
          rw [Json.tagged, ofJson?, ofJsonMembers?_eq_mapM, hentries, Option.map_some, ofEntries,
            Entries.ofList_of_perm hascending hpermEntries]

end Value

/-! ## Expressions -/

/-- Every literal in the expression, at any depth, has a JSON form. -/
def Expr.Writable (e : Expr) : Prop := ∀ v, .literal v ∈ e.nodes → v.Writable

structure Case.Writable (c : Case) : Prop where
  condition : c.condition.Writable
  result : c.result.Writable

namespace Expr

/-- An expression is written as an alternative, so never as `null`. -/
theorem exists_tagged_of_reordered {e : Expr} {j : Json} (h : e.toJson.Reordered j) :
    ∃ tag contents, j = .tagged tag contents := by
  have htagged : ∃ tag contents, e.toJson = .tagged tag contents := by
    rcases e with _ | _ | _ | _ | _ | ⟨cases, _ | e⟩ <;> exact ⟨_, _, rfl⟩
  obtain ⟨tag, contents, htagged⟩ := htagged
  rw [htagged] at h
  obtain ⟨contents', rfl, -⟩ := h.of_tagged
  exact ⟨tag, contents', rfl⟩

mutual

/-- An expression is read as it was written. -/
theorem ofJson?_of_reordered : ∀ (e : Expr), e.Writable → ∀ {j : Json}, e.toJson.Reordered j →
    ofJson? j = some e
  | .literal v, he, _, h => by
    obtain ⟨_, rfl, hcontents⟩ := h.of_tagged
    have hv : v.Writable := he v (by simp [nodes])
    rw [Json.tagged, ofJson?, Value.ofJson?_of_reordered hv.ordered hv.finite hcontents,
      Option.map_some]
  | .field name, _, _, h => by
    obtain ⟨_, rfl, hcontents⟩ := h.of_tagged
    cases hcontents
    rfl
  | .binding name, _, _, h => by
    obtain ⟨_, rfl, hcontents⟩ := h.of_tagged
    cases hcontents
    rfl
  | .list items, he, _, h => by
    obtain ⟨_, rfl, hcontents⟩ := h.of_tagged
    obtain ⟨js, rfl, hjs⟩ := hcontents.of_array
    have hitems := ofJsonList?_of_reordered items (fun v hv => he v (by simp [nodes, hv])) hjs
    rw [Json.tagged, ofJson?, hitems, Option.map_some]
  | .call function args, he, _, h => by
    obtain ⟨_, rfl, hcontents⟩ := h.of_tagged
    obtain ⟨name, list, hname, hlist, horder⟩ := hcontents.of_pair
    cases hname
    obtain ⟨js, rfl, hjs⟩ := hlist.of_array
    have hargs := ofJsonList?_of_reordered args (fun v hv => he v (by simp [nodes, hv])) hjs
    rcases horder with rfl | rfl <;> simp [Json.tagged, ofJson?, callParts?, hargs]
  | .cascade cases none, he, _, h => by
    obtain ⟨_, rfl, hcontents⟩ := h.of_tagged
    obtain ⟨list, absent, hlist, habsent, horder⟩ := hcontents.of_pair
    obtain ⟨js, rfl, hjs⟩ := hlist.of_array
    have hcases := ofJsonCases?_of_reordered cases (fun v hv => he v (by simp [nodes, hv])) hjs
    cases habsent
    rcases horder with rfl | rfl <;> simp [Json.tagged, ofJson?, cascadeParts?, hcases]
  | .cascade cases (some e), he, _, h => by
    obtain ⟨_, rfl, hcontents⟩ := h.of_tagged
    obtain ⟨list, default, hlist, hdefault, horder⟩ := hcontents.of_pair
    obtain ⟨js, rfl, hjs⟩ := hlist.of_array
    have hcases := ofJsonCases?_of_reordered cases (fun v hv => he v (by simp [nodes, hv])) hjs
    have hother := ofJson?_of_reordered e (fun v hv => he v (by simp [nodes, hv])) hdefault
    -- What is written for the default is no `null`, so it is not taken for its absence.
    obtain ⟨tag, contents, rfl⟩ := exists_tagged_of_reordered hdefault
    rw [Json.tagged] at hother horder
    rcases horder with rfl | rfl <;> rw [Json.tagged, ofJson?] <;>
      simp [cascadeParts?, hcases, hother]

/-- Several expressions are read as they were written. -/
theorem ofJsonList?_of_reordered : ∀ (es : List Expr),
    (∀ v, .literal v ∈ nodesOfList es → v.Writable) → ∀ {js : List Json},
    List.Forall₂ Json.Reordered (toJsonList es) js → ofJsonList? js = some es
  | [], _, _, h => by
    cases h
    rfl
  | e :: rest, hes, _, h => by
    cases h with
    | cons hj hjs =>
        have hfirst := ofJson?_of_reordered e (fun v hv => hes v (by simp [nodesOfList, hv])) hj
        have hrest := ofJsonList?_of_reordered rest
          (fun v hv => hes v (by simp [nodesOfList, hv])) hjs
        simp [ofJsonList?, hfirst, hrest]

/-- The arms of a cascade are read as they were written. -/
theorem ofJsonCases?_of_reordered : ∀ (cs : List Case),
    (∀ v, .literal v ∈ nodesOfCases cs → v.Writable) → ∀ {js : List Json},
    List.Forall₂ Json.Reordered (toJsonCases cs) js → ofJsonCases? js = some cs
  | [], _, _, h => by
    cases h
    rfl
  | ⟨condition, result⟩ :: rest, hcs, _, h => by
    cases h with
    | cons hj hjs =>
        obtain ⟨first, second, hfirst, hsecond, horder⟩ := hj.of_pair
        have hcondition := ofJson?_of_reordered condition
          (fun v hv => hcs v (by simp [nodesOfCases, hv])) hfirst
        have hresult := ofJson?_of_reordered result
          (fun v hv => hcs v (by simp [nodesOfCases, hv])) hsecond
        have hrest := ofJsonCases?_of_reordered rest
          (fun v hv => hcs v (by simp [nodesOfCases, hv])) hjs
        rcases horder with rfl | rfl <;>
          simp [ofJsonCases?, armParts?, hcondition, hresult, hrest]

end

end Expr

/-- An arm is read as it was written. -/
theorem Case.ofJson?_of_reordered {c : Case} (hc : c.Writable) {j : Json}
    (h : c.toJson.Reordered j) : ofJson? j = some c := by
  obtain ⟨condition, result⟩ := c
  have hcases : Expr.ofJsonCases? [j] = some [⟨condition, result⟩] := by
    apply Expr.ofJsonCases?_of_reordered [⟨condition, result⟩]
    · intro v hv
      simp only [Expr.nodesOfCases, List.append_nil, List.mem_append] at hv
      exact hv.elim (hc.condition v) (hc.result v)
    · exact .cons h .nil
  rw [ofJson?, hcases]
  rfl

/-! ## Declarations -/

/-- The expression of the declaration, if it has one, has a JSON form. -/
def Declaration.Writable (d : Declaration) : Prop := ∀ e, d.expression = some e → e.Writable

/-- All declarations have a JSON form. -/
def Schema.Writable (s : Schema) : Prop := ∀ d ∈ s.declarations, d.Writable

namespace Json

variable {α : Type} {write : α → Json} (read : Json → Option α) {j : Json}

/-- What is absent is read as absent, as long as nothing that is there is written `null`. -/
theorem optional_of_reordered {x : Option α} (h : ((x.map write).getD .null).Reordered j)
    (hread : ∀ a, x = some a → (write a).Reordered j → j ≠ .null ∧ read j = some a) :
    optional read (some j) = some x := by
  cases x with
  | none =>
      cases h
      rfl
  | some a =>
      obtain ⟨hne, ha⟩ := hread a rfl h
      rw [optional, ha, Option.map_some]
      exact hne

theorem listOf_of_reordered {xs : List α} (h : (Json.array (xs.map write)).Reordered j)
    (hread : ∀ x ∈ xs, ∀ j, (write x).Reordered j → read j = some x) :
    listOf read j = some xs := by
  obtain ⟨items, rfl, hitems⟩ := h.of_array
  rw [listOf, mapM_eq_some_of_forall₂ read hitems hread]

theorem string?_of_reordered {s : String} (h : (Json.string s).Reordered j) :
    j.string? = some s := by
  cases h
  rfl

theorem uint32?_of_reordered {n : UInt32} (h : (Json.int n.toNat).Reordered j) :
    j.uint32? = some n := by
  have hn : n.toNat < 4294967296 := n.toNat_lt
  cases h
  rw [uint32?, if_pos (by omega), Int.toNat_natCast, UInt32.ofNat_toNat]

end Json

theorem Kind.ofJson?_of_reordered {kind : Kind} {j : Json} (h : kind.toJson.Reordered j) :
    ofJson? j = some kind := by
  cases kind <;> cases h <;> rfl

/-- A place is read as it was written. -/
theorem Location.ofJson?_of_reordered {l : Location} {j : Json} (h : l.toJson.Reordered j) :
    ofJson? j = some l := by
  obtain ⟨contents, hfields, hcontents⟩ := Json.Reordered.exists_fields (by simp) h
  simp only [List.map_cons, List.map_nil, List.forall₂_cons_left_iff,
    List.forall₂_nil_left_iff] at hcontents
  obtain ⟨_, _, hfile, ⟨_, _, hline, ⟨_, _, hcolumn, rfl, rfl⟩, rfl⟩, rfl⟩ := hcontents
  simp only [List.map_cons, List.map_nil] at hfields
  simp [ofJson?, hfields, Json.string?_of_reordered hfile, Json.uint32?_of_reordered hline,
    Json.uint32?_of_reordered hcolumn]

/-- A declaration is read as it was written, and what it lacks is lacking again. -/
theorem Declaration.ofJson?_of_reordered {d : Declaration} (hd : d.Writable) {j : Json}
    (h : d.toJson.Reordered j) : ofJson? j = some d := by
  have hwritten : d.toJson = .object [("kind", d.kind.toJson), ("name", .string d.name),
      ("expression", (d.expression.map Expr.toJson).getD .null),
      ("location", (d.location.map Location.toJson).getD .null)] := by
    rcases d with ⟨kind, name, _ | e, _ | l⟩ <;> rfl
  rw [hwritten] at h
  obtain ⟨contents, hfields, hcontents⟩ := Json.Reordered.exists_fields (by simp) h
  simp only [List.map_cons, List.map_nil, List.forall₂_cons_left_iff,
    List.forall₂_nil_left_iff] at hcontents
  obtain ⟨_, _, hkind, ⟨_, _, hname, ⟨_, _, hexpression, ⟨_, _, hlocation, rfl, rfl⟩, rfl⟩, rfl⟩,
    rfl⟩ := hcontents
  have hexpressionRead := Json.optional_of_reordered Expr.ofJson? hexpression
    fun e he hj => by
      obtain ⟨tag, contents, rfl⟩ := Expr.exists_tagged_of_reordered hj
      exact ⟨nofun, Expr.ofJson?_of_reordered e (hd e he) hj⟩
  have hlocationRead := Json.optional_of_reordered Location.ofJson? hlocation
    fun l _ hj => by
      refine ⟨fun heq => ?_, Location.ofJson?_of_reordered hj⟩
      subst heq
      cases hj
  simp only [List.map_cons, List.map_nil] at hfields
  simp [ofJson?, hfields, Kind.ofJson?_of_reordered hkind, Json.string?_of_reordered hname,
    hexpressionRead, hlocationRead]

/-- A schema is read as it was written: every declaration in its list and at its place. -/
theorem Schema.ofJson?_of_reordered {s : Schema} (hs : s.Writable) {j : Json}
    (h : s.toJson.Reordered j) : ofJson? j = some s := by
  obtain ⟨contents, hfields, hcontents⟩ := Json.Reordered.exists_fields (by simp) h
  simp only [List.map_cons, List.map_nil, List.forall₂_cons_left_iff,
    List.forall₂_nil_left_iff] at hcontents
  obtain ⟨_, _, hattributes, ⟨_, _, htraits, ⟨_, _, hfunctions, rfl, rfl⟩, rfl⟩, rfl⟩ := hcontents
  have hread : ∀ d ∈ s.declarations, ∀ j, d.toJson.Reordered j →
      Declaration.ofJson? j = some d := fun d hd _ => Declaration.ofJson?_of_reordered (hs d hd)
  have hattributesRead := Json.listOf_of_reordered Declaration.ofJson? hattributes fun d hd =>
    hread d (by simp [declarations, hd])
  have htraitsRead := Json.listOf_of_reordered Declaration.ofJson? htraits fun d hd =>
    hread d (by simp [declarations, hd])
  have hfunctionsRead := Json.listOf_of_reordered Declaration.ofJson? hfunctions fun d hd =>
    hread d (by simp [declarations, hd])
  simp only [List.map_cons, List.map_nil] at hfields
  simp [ofJson?, hfields, hattributesRead, htraitsRead, hfunctionsRead]

/-! ## All of them -/

/-- Reading gives back what was written. Whatever is written with finite doubles and with maps
that are maps, at any depth: it is read again as it was from its JSON form, and from any that
differs from it in nothing but the order of the members of objects. -/
theorem read_of_written :
    (∀ v : Value, v.Writable → ∀ j, v.toJson.Reordered j → Value.ofJson? j = some v) ∧
    (∀ e : Expr, e.Writable → ∀ j, e.toJson.Reordered j → Expr.ofJson? j = some e) ∧
    (∀ c : Case, c.Writable → ∀ j, c.toJson.Reordered j → Case.ofJson? j = some c) ∧
    (∀ d : Declaration, d.Writable → ∀ j, d.toJson.Reordered j → Declaration.ofJson? j = some d) ∧
    ∀ s : Schema, s.Writable → ∀ j, s.toJson.Reordered j → Schema.ofJson? j = some s :=
  ⟨fun _ hv _ => Value.ofJson?_of_reordered hv.ordered hv.finite,
    fun e he _ => Expr.ofJson?_of_reordered e he, fun _ hc _ => Case.ofJson?_of_reordered hc,
    fun _ hd _ => Declaration.ofJson?_of_reordered hd,
    fun _ hs _ => Schema.ofJson?_of_reordered hs⟩

namespace Example

/-- A value that holds a negative zero and the least integer, below a map. -/
def extremes : Value :=
  .map [("least", .list [.int (-9223372036854775808), .null]),
    ("zero", .float ⟨0x8000000000000000⟩)]

/-- Declarations in lists that are not of their kind: an expression that is the literal `null`,
none at all, and a cascade without a default. -/
def misplaced : Schema where
  attributes := [⟨.trait, "first", some (.literal .null), some ⟨"a.rules", 4294967295, 0⟩⟩,
    ⟨.attribute, "second", none, none⟩]
  traits := []
  functions := [⟨.attribute, "first",
    some (.cascade [⟨.call "not" [.binding "second"], .literal extremes⟩] none), none⟩]

theorem writable_misplaced : misplaced.Writable := by
  have hnull : Value.null.Writable := ⟨.null, .null⟩
  have hextremes : extremes.Writable := by
    constructor
    · refine .map (by decide +kernel) (List.forall_mem_cons.2 ⟨.list ?_, ?_⟩)
      · simp [Value.Ordered.int, Value.Ordered.null]
      · simp [Value.Ordered.float]
    · refine .map (List.forall_mem_cons.2 ⟨.list ?_, ?_⟩)
      · simp [Value.Finite.int, Value.Finite.null]
      · exact List.forall_mem_cons.2 ⟨.float (by decide +kernel), List.forall_mem_nil _⟩
  intro d hd e he v hv
  simp only [misplaced, Schema.declarations, List.append_nil, List.mem_append, List.mem_cons,
    List.not_mem_nil, or_false] at hd
  rcases hd with (rfl | rfl) | rfl <;> cases he
  · cases List.mem_singleton.1 hv
    exact hnull
  · simp only [Expr.nodes, Expr.nodesOfCases, Expr.nodesOfList, List.mem_cons, List.mem_append,
      List.not_mem_nil, reduceCtorEq, or_false, false_or, Expr.literal.injEq] at hv
    exact hv ▸ hextremes

/-- The declarations are read from their lists, also when the lists come in another order. -/
theorem read_of_written_misplaced :
    misplaced.Writable ∧ Schema.ofJson? misplaced.toJson = some misplaced ∧
      ∃ attributes traits functions, misplaced.toJson = .object
          [("attributes", attributes), ("traits", traits), ("functions", functions)] ∧
        Schema.ofJson? (.object
          [("functions", functions), ("attributes", attributes), ("traits", traits)]) =
            some misplaced := by
  obtain ⟨-, -, -, -, hread⟩ := read_of_written
  have hwritable := writable_misplaced
  have hsame : ∀ members, List.Forall₂ Json.ReorderedMember members members :=
    fun members => List.forall₂_same.2 fun m _ => .named m.1 (.same m.2)
  refine ⟨hwritable, hread misplaced hwritable _ (.same _), _, _, _, rfl,
    hread misplaced hwritable _ (.object (hsame _) ?_)⟩
  show ([_, _] ++ [_]).Perm ([_] ++ [_, _])
  exact List.perm_append_comm

end Example

end Rulebook
