/-
# Whole evaluation, name by name

To evaluate everything, or everything of a kind, is to evaluate one name after the other in
execution order, and nothing more: there is a result exactly if each of these names has a
value, the result holds these values and no others, and if some name has none, what the
first of them stops with is what the evaluation stops with. Names of other kinds count only
as far as they are referred to. Everything here is about accepted schemas and mappings.
-/

import Rulebook.Proofs.WholeEvaluation

namespace Rulebook

theorem NameMap.ofList_eq_foldl {α : Type} (entries : List (String × α)) :
    NameMap.ofList entries = entries.foldl (fun m e => m.insert e.1 e.2) ∅ := by
  suffices h : ∀ m : NameMap α,
      (entries.foldl (fun m e => m.insert e.1 e.2) m).entries =
        entries.foldl (fun sorted e => Entries.insert e.1 e.2 sorted) m.entries by
    cases hm : entries.foldl (fun m e => m.insert e.1 e.2) (∅ : NameMap α) with
    | mk sorted ascending =>
        have hsorted := (congrArg NameMap.entries hm).symm.trans (h ∅)
        subst hsorted
        rfl
  induction entries with
  | nil => exact fun m => rfl
  | cons e rest ih => exact fun m => ih (m.insert e.1 e.2)

/-! ## The three maps -/

namespace Evaluation

/-- The values of the names of one kind. -/
def ofKind (e : Evaluation) : Kind → NameMap Value
  | .trait => e.traits
  | .attribute => e.attributes
  | .function => e.functions

theorem ofKind_insert_self (e : Evaluation) (kind : Kind) (name : String) (v : Value) :
    (e.insert kind name v).ofKind kind = (e.ofKind kind).insert name v := by
  cases kind <;> rfl

theorem ofKind_insert_of_ne (e : Evaluation) {kind other : Kind} (h : other ≠ kind)
    (name : String) (v : Value) : (e.insert other name v).ofKind kind = e.ofKind kind := by
  cases kind <;> cases other <;> first | rfl | exact absurd rfl h

/-- Of many values that are put in, a map takes those of its kind. -/
theorem ofKind_foldl_insert (values : List (Slot × Value)) (kind : Kind) (e : Evaluation) :
    (values.foldl (fun e (entry, v) => e.insert entry.kind entry.name v) e).ofKind kind =
      ((values.filter (·.1.kind = kind)).map fun (entry, v) => (entry.name, v)).foldl
        (fun m e => m.insert e.1 e.2) (e.ofKind kind) := by
  induction values generalizing e with
  | nil => rfl
  | cons first rest ih =>
      obtain ⟨entry, v⟩ := first
      rw [List.foldl_cons, ih]
      by_cases hkind : entry.kind = kind
      · rw [List.filter_cons_of_pos (by simpa using hkind), List.map_cons, List.foldl_cons,
          ← hkind, ofKind_insert_self]
      · rw [List.filter_cons_of_neg (by simpa using hkind), ofKind_insert_of_ne e hkind]

end Evaluation

namespace Program

variable {p : Program} {ctx : Context}

/-- Where all slots have values, those of a kind have the same. -/
theorem evaluateWhere_of_all {values : List (Slot × Value)}
    (h : p.evaluateWhere ctx (fun _ => true) = .ok values) (select : Kind → Bool) :
    p.evaluateWhere ctx select = .ok (values.filter fun (entry, _) => select entry.kind) := by
  unfold evaluateWhere at h ⊢
  rw [List.filter_true] at h
  apply mapM_filter_of_eq_ok h
  rintro ⟨entry, slot⟩ result hstep
  obtain ⟨v, -, rfl⟩ := evaluateWhere_step.1 hstep
  rfl

/-- Evaluating everything gives, for each kind, what evaluating the kind gives. -/
theorem evaluateKind_of_evaluate {e : Evaluation} (h : p.evaluate ctx = .ok e) (kind : Kind) :
    p.evaluateKind ctx kind = .ok (e.ofKind kind) := by
  by_cases hctx : ctx.isMapping = true
  · rw [evaluate_of_isMapping hctx] at h
    cases hall : p.evaluateWhere ctx fun _ => true with
    | error fault =>
        rw [hall] at h
        cases h
    | ok values =>
        rw [hall] at h
        cases h
        rw [evaluateKind_of_isMapping hctx, evaluateWhere_of_all hall, Except.map,
          NameMap.ofList_eq_foldl, Evaluation.ofKind_foldl_insert]
        cases kind <;> rfl
  · simp [evaluate, Context.check, hctx, bind, Except.bind] at h

/-- The names of one kind in execution order. -/
def namesOf (p : Program) (kind : Kind) : List String :=
  p.executionOrder.filter fun name => p.kindOf? name = some kind

/-- The first of the names that has no value stops with the fault. -/
def StopsAt (p : Program) (ctx : Context) (names : List String) (fault : Fault) : Prop :=
  ∃ before name after, names = before ++ name :: after ∧
    (∀ earlier ∈ before, ∃ v, p.evaluateBinding ctx earlier = .ok v) ∧
    p.evaluateBinding ctx name = .error fault

end Program

namespace Schema

variable {schema : Schema} {registry : Registry} {p : Program} {ctx : Context}

namespace Accepted

variable (h : schema.Accepted registry p)

include h

/-- No name has two kinds. -/
theorem kind_unique {kind kind' : Kind} {name : String} (hkind : schema.DeclaresKind kind name)
    (hkind' : schema.DeclaresKind kind' name) : kind = kind' := by
  obtain ⟨d, hd, rfl, rfl⟩ := hkind
  obtain ⟨d', hd', hname, rfl⟩ := hkind'
  rw [List.inj_on_of_nodup_map h.names_nodup hd' hd hname]

theorem kindOf?_name {slot : Nat} {entry : Slot} (hentry : p.slots[slot]? = some entry) :
    p.kindOf? entry.name = some entry.kind := by
  obtain ⟨d, hd, e, he, -, rfl⟩ := h.exists_slotFor hentry
  rw [Program.kindOf?]
  exact congrArg (Option.map Slot.kind) (h.find?_eq_slotFor hd he)

/-- The names of a kind are those that are declared with it. -/
theorem mem_namesOf {kind : Kind} {name : String} :
    name ∈ p.namesOf kind ↔ schema.DeclaresKind kind name := by
  rw [Program.namesOf, List.mem_filter, Program.executionOrder, List.mem_map]
  constructor
  · rintro ⟨⟨entry, hmem, rfl⟩, hkind⟩
    obtain ⟨slot, hentry⟩ := List.getElem?_of_mem hmem
    rw [h.kindOf?_name hentry] at hkind
    obtain rfl : entry.kind = kind := by simpa using hkind
    exact h.declaresKind_slot hentry
  · intro hdeclared
    obtain ⟨slot, entry, hentry, rfl, rfl, -⟩ := h.exists_slot_of_declaresKind hdeclared
    exact ⟨⟨entry, List.mem_of_getElem? hentry, rfl⟩, by simp [h.kindOf?_name hentry]⟩

theorem map_name_filter_kind (kind : Kind) :
    (p.slots.filter fun entry => entry.kind = kind).map (·.name) = p.namesOf kind := by
  rw [Program.namesOf, Program.executionOrder, List.filter_map]
  congr 1
  apply List.filter_congr
  intro entry hmem
  obtain ⟨slot, hentry⟩ := List.getElem?_of_mem hmem
  simp [h.kindOf?_name hentry]

variable (hctx : ctx.isMapping = true)

include hctx

/-- To evaluate slots stops with what evaluating their names stops with. -/
theorem evaluateWhere_eq_error_iff (select : Kind → Bool) (fault : Fault) :
    p.evaluateWhere ctx select = .error fault ↔
      p.StopsAt ctx ((p.slots.filter fun entry => select entry.kind).map (·.name)) fault := by
  have hnames : (p.slots.zipIdx.filter fun selected => select selected.1.kind).map (·.1.name) =
      (p.slots.filter fun entry => select entry.kind).map (·.name) := by
    conv_rhs => rw [← List.zipIdx_map_fst 0 p.slots, List.filter_map, List.map_map]
    rfl
  have hfaults : fault? (p.evaluateWhere ctx select) =
      fault? (((p.slots.filter fun entry => select entry.kind).map (·.name)).mapM
        (p.evaluateBinding ctx)) := by
    rw [← hnames]
    apply fault?_mapM_map
    rintro ⟨entry, slot⟩ hmem
    rw [h.evaluateBinding_slot hctx (Program.mem_selected.1 hmem).1]
    cases hslot : p.resolve ctx [] slot <;> simp only [hslot] <;> rfl
  rw [← fault?_eq_some_iff, hfaults, fault?_eq_some_iff, mapM_eq_error_iff]
  rfl

/-- Evaluating a kind stops with what the first of its names stops with that has no value. -/
theorem evaluateKind_eq_error_iff {kind : Kind} {fault : Fault} :
    p.evaluateKind ctx kind = .error fault ↔ p.StopsAt ctx (p.namesOf kind) fault := by
  rw [Program.evaluateKind_of_isMapping hctx, ← h.map_name_filter_kind,
    ← h.evaluateWhere_eq_error_iff hctx (· = kind) fault]
  cases p.evaluateWhere ctx (· = kind) <;> simp [Except.map]

/-- Evaluating everything stops with what the first name stops with that has no value. -/
theorem evaluate_eq_error_iff {fault : Fault} :
    p.evaluate ctx = .error fault ↔ p.StopsAt ctx p.executionOrder fault := by
  have hall := h.evaluateWhere_eq_error_iff hctx (fun _ => true) fault
  rw [List.filter_true] at hall
  rw [Program.evaluate_of_isMapping hctx, Program.executionOrder, ← hall]
  cases p.evaluateWhere ctx fun _ => true <;> simp [Except.map]

/-- Everything has a result exactly if every declared name has a value. -/
theorem exists_evaluate_iff : (∃ e, p.evaluate ctx = .ok e) ↔
    ∀ name ∈ schema.names, ∃ v, p.evaluateBinding ctx name = .ok v := by
  constructor
  · rintro ⟨e, he⟩ name hname
    obtain ⟨d, hd, rfl⟩ := List.mem_map.1 hname
    exact h.exists_value_of_evaluateKind (Program.evaluateKind_of_evaluate he d.kind)
      ⟨d, hd, rfl, rfl⟩
  · intro hvalues
    cases hrun : p.evaluate ctx with
    | ok e => exact ⟨e, rfl⟩
    | error fault =>
        obtain ⟨before, name, after, horder, -, hfault⟩ := (h.evaluate_eq_error_iff hctx).1 hrun
        have hlisted : name ∈ p.analysis.order := by
          rw [← h.executionOrder_eq, horder]
          exact List.mem_append_right _ List.mem_cons_self
        obtain ⟨v, hv⟩ := hvalues name ((h.mem_order name).1 hlisted)
        cases hfault.symm.trans hv

end Accepted

/-- Whole evaluation agrees with the evaluation of single names. Over a mapping, everything
has a result exactly if every declared name has a value. Of its three maps the one of a kind
holds the values of the names of that kind and nothing else, so each name is in exactly one
of them. If there is no result, evaluation stops with the fault of the first name in
execution order that has no value. The same holds of the evaluation of one kind, with the
names that are declared with the kind instead of all names. -/
theorem evaluate_iff_evaluateBinding (hp : schema.compile registry = .ok p)
    (hctx : ctx.isMapping = true) :
    ((∃ e, p.evaluate ctx = .ok e) ↔
      ∀ name ∈ schema.names, ∃ v, p.evaluateBinding ctx name = .ok v) ∧
    (∀ e, p.evaluate ctx = .ok e →
      (∀ kind name v, (e.ofKind kind).find? name = some v ↔
        schema.DeclaresKind kind name ∧ p.evaluateBinding ctx name = .ok v) ∧
      ∀ name ∈ schema.names, ∃! kind, name ∈ (e.ofKind kind).names) ∧
    (∀ fault, p.evaluate ctx = .error fault ↔ p.StopsAt ctx p.executionOrder fault) ∧
    ∀ kind,
      (∀ name, name ∈ p.namesOf kind ↔ schema.DeclaresKind kind name) ∧
      ((∃ values, p.evaluateKind ctx kind = .ok values) ↔
        ∀ name, schema.DeclaresKind kind name → ∃ v, p.evaluateBinding ctx name = .ok v) ∧
      (∀ values, p.evaluateKind ctx kind = .ok values →
        ∀ name v, values.find? name = some v ↔
          schema.DeclaresKind kind name ∧ p.evaluateBinding ctx name = .ok v) ∧
      ∀ fault, p.evaluateKind ctx kind = .error fault ↔
        p.StopsAt ctx (p.namesOf kind) fault := by
  have h := accepted_of_compile hp
  refine ⟨h.exists_evaluate_iff hctx, fun e he => ?_, fun fault => h.evaluate_eq_error_iff hctx,
    fun kind => ⟨fun name => h.mem_namesOf, ?_, fun values hvalues name v =>
      h.find?_evaluateKind hvalues, fun fault => h.evaluateKind_eq_error_iff hctx⟩⟩
  · have hfind : ∀ kind name v, (e.ofKind kind).find? name = some v ↔
        schema.DeclaresKind kind name ∧ p.evaluateBinding ctx name = .ok v := fun kind name v =>
      h.find?_evaluateKind (Program.evaluateKind_of_evaluate he kind)
    refine ⟨hfind, fun name hname => ?_⟩
    obtain ⟨d, hd, rfl⟩ := List.mem_map.1 hname
    obtain ⟨v, hv⟩ := (h.exists_evaluate_iff hctx).1 ⟨e, he⟩ d.name hname
    have hkind : schema.DeclaresKind d.kind d.name := ⟨d, hd, rfl, rfl⟩
    refine ⟨d.kind, NameMap.mem_names_of_find? ((hfind d.kind d.name v).2 ⟨hkind, hv⟩), ?_⟩
    intro kind hmem
    obtain ⟨w, hw⟩ := Option.isSome_iff_exists.1 (NameMap.mem_names_iff.1 hmem)
    exact h.kind_unique ((hfind kind d.name w).1 hw).1 hkind
  · constructor
    · rintro ⟨values, hvalues⟩ name hkind
      exact h.exists_value_of_evaluateKind hvalues hkind
    · exact h.exists_evaluateKind hctx

end Schema

namespace Example

/-- A context that says where the customer is, and nothing else. -/
def unratedOverseas : Context := .ofMap (.ofList [("region", .string "us")])

/-- Without a tier the offer has no value, and neither has the trait that looks at the tier,
which comes before the offer. So the attributes stop with the offer, and everything stops
with the trait; the functions, of which there are none, have their values. -/
theorem evaluate_iff_evaluateBinding_offers :
    ∃ p, offers.compile .builtins = .ok p ∧ unratedOverseas.isMapping = true ∧
      p.executionOrder = ["eu", "fallback", "gold", "offer"] ∧
      p.namesOf .attribute = ["fallback", "offer"] ∧
      p.evaluateBinding unratedOverseas "eu" = .ok (.bool false) ∧
      p.evaluateBinding unratedOverseas "fallback" = .ok (.string "none in us") ∧
      p.evaluateBinding unratedOverseas "gold" = .error (.missingField "tier" ["region"]) ∧
      p.evaluate unratedOverseas = .error (.missingField "tier" ["region"]) ∧
      p.evaluateKind unratedOverseas .attribute = .error (.missingField "tier" ["region"]) ∧
      ∃ values, p.evaluateKind unratedOverseas .function = .ok values := by
  have hruns : (offers.compile .builtins).toOption.map (fun p =>
      (p.executionOrder, p.namesOf .attribute)) =
        some (["eu", "fallback", "gold", "offer"], ["fallback", "offer"]) := by
    decide +kernel
  obtain ⟨p, hp, hpair⟩ := Option.map_eq_some_iff.1 hruns
  obtain ⟨horder, hattributes⟩ := Prod.mk.inj hpair
  rw [toOption_eq_some_iff] at hp
  have hctx : unratedOverseas.isMapping = true := rfl
  have hvalue : ∀ {name r}, name ∈ offers.names →
      offers.meaning .builtins unratedOverseas 4 name = some r →
      p.evaluateBinding unratedOverseas name = r := fun hname hr =>
    (Schema.accepted_of_compile hp).evaluateBinding_of_meaning hctx hname hr
  have heu : p.evaluateBinding unratedOverseas "eu" = .ok (.bool false) :=
    hvalue (by decide) rfl
  have hfallback : p.evaluateBinding unratedOverseas "fallback" = .ok (.string "none in us") :=
    hvalue (by decide) rfl
  have hgold : p.evaluateBinding unratedOverseas "gold" =
      .error (.missingField "tier" ["region"]) := hvalue (by decide) rfl
  have hoffer : p.evaluateBinding unratedOverseas "offer" =
      .error (.missingField "tier" ["region"]) := hvalue (by decide) rfl
  obtain ⟨-, -, hstops, hkinds⟩ := Schema.evaluate_iff_evaluateBinding hp hctx
  obtain ⟨-, -, -, hstopsAttributes⟩ := hkinds .attribute
  obtain ⟨-, hfunctions, -⟩ := hkinds .function
  refine ⟨p, hp, hctx, horder, hattributes, heu, hfallback, hgold, (hstops _).2 ?_,
    (hstopsAttributes _).2 ?_, hfunctions.2 ?_⟩
  · refine ⟨["eu", "fallback"], "gold", ["offer"], horder, ?_, hgold⟩
    simp [heu, hfallback]
  · refine ⟨["fallback"], "offer", [], hattributes, ?_, hoffer⟩
    simp [hfallback]
  · rintro name ⟨d, hd, -, hkind⟩
    exact absurd hkind (by revert d; decide)

end Example

end Rulebook
