/-
# Conditions on traits

The conditions that ask for nothing but traits, and what they come to. What the set
of the true traits says of such a condition is what its evaluation gives, with one
exception: a conjunction called on one trait alone looks into the value of the trait
if that is a list, and the set does not.
-/

import Rulebook.Builtin
import Rulebook.Proofs.Meaning
import Rulebook.Proofs.Traversal

namespace Rulebook

/-! ## Conjunctions -/

/-- The conjunctions of a registry are the builtin ones. -/
structure Registry.BuiltinConjunctions (registry : Registry) : Prop where
  and : registry.find? "and" = Registry.builtins.find? "and"
  all : registry.find? "all?" = Registry.builtins.find? "all?"

theorem Registry.BuiltinConjunctions.applyFunction {registry : Registry}
    (h : registry.BuiltinConjunctions) {function : String}
    (hfunction : function = "and" ∨ function = "all?") (args : List Value) :
    Expr.applyFunction registry function args =
      (.ok (.bool ((Builtin.spread args).all Value.isTruthy)) : Except Fault Value) := by
  rcases hfunction with rfl | rfl
  · rw [Expr.applyFunction, h.and]
    rfl
  · rw [Expr.applyFunction, h.all]
    rfl

theorem Registry.builtinConjunctions_builtins : Registry.builtins.BuiltinConjunctions := ⟨rfl, rfl⟩

/-- A conjunction holds of arguments that are true, but of a single list only if its
items are true as well. -/
theorem Builtin.all_spread {args : List Value} :
    (spread args).all Value.isTruthy = true ↔
      args.all Value.isTruthy = true ∧
        ¬ ∃ items, args = [.list items] ∧ ∃ v ∈ items, v.isTruthy = false := by
  unfold spread
  split
  · rename_i items
    simp [Value.isTruthy]
  · rename_i hargs
    have hsingle : ¬ ∃ items, args = [.list items] ∧ ∃ v ∈ items, v.isTruthy = false := by
      rintro ⟨items, heq, -⟩
      exact hargs items heq
    simp only [hsingle, not_false_eq_true, and_true]

namespace Schema

variable {schema : Schema} {registry : Registry} {ctx : Context}
  {value : String → Except Fault Value} {satisfied : NameSet}

/-! ## True traits -/

/-- The set holds the traits that are true and nothing else, and every trait has a
value. -/
structure TrueTraits (schema : Schema) (value : String → Except Fault Value)
    (satisfied : NameSet) : Prop where
  is_trait : ∀ name ∈ satisfied, schema.DeclaresKind .trait name
  decided : ∀ name, schema.DeclaresKind .trait name →
    ∃ v, value name = .ok v ∧ (name ∈ satisfied ↔ v.isTruthy = true)

theorem declaresKind_of_isTrait {name : String} (h : schema.isTrait name = true) :
    schema.DeclaresKind .trait name := by
  rw [isTrait] at h
  split at h
  · rename_i d hd
    obtain ⟨hmem, hname⟩ := mem_of_find? hd
    exact ⟨d, hmem, hname, by simpa using h⟩
  · cases h

/-! ## What a condition requires -/

theorem traitReference?_eq_some_iff {e : Expr} {name : String} :
    schema.traitReference? e = some name ↔ e = .binding name ∧ schema.isTrait name = true := by
  cases e with
  | binding target =>
      by_cases htrait : schema.isTrait target = true
      · simp only [traitReference?, htrait, if_true, Option.some.injEq, Expr.binding.injEq]
        exact ⟨fun heq => ⟨heq, heq ▸ htrait⟩, And.left⟩
      · simp only [traitReference?, htrait, Bool.false_eq_true, if_false, Expr.binding.injEq]
        exact ⟨nofun, fun ⟨heq, h⟩ => absurd (heq ▸ h) htrait⟩
  | _ => simp [traitReference?]

theorem traitReferences_eq_some_iff {es : List Expr} {names : List String} :
    es.mapM schema.traitReference? = some names ↔
      es = names.map .binding ∧ ∀ name ∈ names, schema.isTrait name = true := by
  rw [mapM_eq_some_iff]
  induction es generalizing names with
  | nil => cases names <;> simp
  | cons e rest ih =>
      cases names with
      | nil => simp
      | cons name names =>
          simp only [List.map_cons, List.cons.injEq, traitReference?_eq_some_iff, ih,
            List.forall_mem_cons]
          exact and_and_and_comm

/-- A condition with required traits is the literal `true`, a reference to a trait, or
a conjunction of such references. -/
theorem of_requiredTraits? {condition : Expr} {required : NameSet}
    (h : schema.requiredTraits? condition = some required) :
    (condition = .literal (.bool true) ∧ required = ∅) ∨
    (∃ name, condition = .binding name ∧ schema.isTrait name = true ∧
      required = .ofNames [name]) ∨
    ∃ function args names, condition = .call function args ∧
      (function = "and" ∨ function = "all?") ∧
      conjuncts args = names.map .binding ∧ (∀ name ∈ names, schema.isTrait name = true) ∧
      required = .ofNames names := by
  unfold requiredTraits? at h
  split at h
  · exact .inl ⟨rfl, (Option.some.inj h).symm⟩
  · rename_i name
    obtain ⟨n, href, rfl⟩ := Option.map_eq_some_iff.1 h
    obtain ⟨heq, htrait⟩ := traitReference?_eq_some_iff.1 href
    cases heq
    exact .inr (.inl ⟨name, rfl, htrait, rfl⟩)
  · rename_i function args
    split at h
    · rename_i hfunction
      obtain ⟨names, hrefs, rfl⟩ := Option.map_eq_some_iff.1 h
      obtain ⟨heq, htraits⟩ := traitReferences_eq_some_iff.1 hrefs
      exact .inr (.inr ⟨function, args, names, rfl, hfunction, heq, htraits, rfl⟩)
    · cases h
  · cases h

theorem ofNames_subset_iff {names : List String} :
    (NameSet.ofNames names).subset satisfied = true ↔ ∀ name ∈ names, name ∈ satisfied := by
  simp only [NameSet.subset_iff, NameSet.mem_ofNames]

/-! ## Conditions -/

/-- A call on one name alone whose value is a list with a false item: a conjunction
called like that is false, although its one argument counts as true. -/
def SpreadsFalse (value : String → Except Fault Value) (condition : Expr) : Prop :=
  ∃ function name items, condition = .call function [.binding name] ∧
    value name = .ok (.list items) ∧ ∃ v ∈ items, v.isTruthy = false

/-- The one name that such a call is on is a trait, if the call is a conjunction of
traits at all. -/
theorem SpreadsFalse.exists_trait {condition : Expr} (h : SpreadsFalse value condition)
    {required : NameSet} (hrequired : schema.requiredTraits? condition = some required) :
    ∃ name items, schema.DeclaresKind .trait name ∧ value name = .ok (.list items) := by
  obtain ⟨function, name, items, rfl, hvalue, -⟩ := h
  rcases of_requiredTraits? hrequired with ⟨heq, -⟩ | ⟨_, heq, -⟩ |
    ⟨_, _, names, heq, -, hargs, hnames, -⟩
  · cases heq
  · cases heq
  · cases heq
    obtain ⟨n, rfl, hn⟩ := List.map_eq_singleton_iff.1 hargs.symm
    cases hn
    exact ⟨name, items, declaresKind_of_isTrait (hnames name List.mem_cons_self), hvalue⟩

/-- The values of several traits are all true if the set holds all of them. -/
theorem TrueTraits.meaningOfList (hsat : schema.TrueTraits value satisfied)
    (registry : Registry) (ctx : Context) {names : List String}
    (hnames : ∀ name ∈ names, schema.isTrait name = true) :
    ∃ values, Expr.meaningOfList registry ctx value (names.map .binding) = .ok values ∧
      names.map value = values.map .ok ∧
      (values.all Value.isTruthy = true ↔ ∀ name ∈ names, name ∈ satisfied) := by
  induction names with
  | nil => exact ⟨[], rfl, rfl, by simp⟩
  | cons name rest ih =>
      rw [List.forall_mem_cons] at hnames
      obtain ⟨v, hv, htrue⟩ := hsat.decided name (declaresKind_of_isTrait hnames.1)
      obtain ⟨values, hvalues, hmap, hall⟩ := ih hnames.2
      refine ⟨v :: values, ?_, by rw [List.map_cons, hv, hmap]; rfl, ?_⟩
      · rw [List.map_cons, Expr.meaningOfList, Expr.meaning, hv, hvalues]
        rfl
      · rw [List.all_cons, Bool.and_eq_true, hall, List.forall_mem_cons, htrue]

/-- A conjunction of traits is true if its traits are, unless it is called on one
trait whose value is a list with a false item. -/
theorem TrueTraits.meaning_call (hsat : schema.TrueTraits value satisfied)
    (hbuiltin : registry.BuiltinConjunctions) (ctx : Context) {function : String}
    (hfunction : function = "and" ∨ function = "all?") {args : List Expr} {names : List String}
    (hargs : conjuncts args = names.map .binding)
    (hnames : ∀ name ∈ names, schema.isTrait name = true) :
    ∃ v, (Expr.call function args).meaning registry ctx value = .ok v ∧
      (v.isTruthy = true ↔ (∀ name ∈ names, name ∈ satisfied) ∧
        ¬ SpreadsFalse value (.call function args)) := by
  obtain ⟨values, hvalues, hmap, hall⟩ := hsat.meaningOfList registry ctx hnames
  unfold conjuncts at hargs
  split at hargs
  -- A list of references is spread, but over its own items, which are the traits.
  · rename_i items
    have hspread : ¬ SpreadsFalse value (.call function [.list items]) := by
      rintro ⟨_, _, _, heq, -⟩
      cases heq
    refine ⟨.bool (values.all Value.isTruthy), ?_, ?_⟩
    · rw [Expr.meaning, Expr.meaningOfList, Expr.meaning, hargs, hvalues]
      exact hbuiltin.applyFunction hfunction [.list values]
    · simp only [Value.isTruthy, hall, hspread, not_false_eq_true, and_true]
  -- Bare references are not spread, unless there is one alone and its value is a list.
  · have hspread : SpreadsFalse value (.call function args) ↔
        ∃ items, values = [.list items] ∧ ∃ v ∈ items, v.isTruthy = false := by
      rw [hargs]
      constructor
      · rintro ⟨_, name, items, heq, hname, hfalse⟩
        obtain ⟨n, rfl, hn⟩ := List.map_eq_singleton_iff.1 (Expr.call.inj heq).2
        cases hn
        rw [List.map_singleton, hname] at hmap
        obtain ⟨v, rfl, hv⟩ := List.map_eq_singleton_iff.1 hmap.symm
        exact ⟨items, by rw [Except.ok.inj hv], hfalse⟩
      · rintro ⟨items, rfl, hfalse⟩
        obtain ⟨name, rfl, hname⟩ := List.map_eq_singleton_iff.1 hmap
        exact ⟨function, name, items, rfl, hname, hfalse⟩
    refine ⟨.bool ((Builtin.spread values).all Value.isTruthy), ?_, ?_⟩
    · rw [Expr.meaning, hargs, hvalues]
      exact hbuiltin.applyFunction hfunction values
    · rw [hspread, ← hall]
      exact Builtin.all_spread

/-- A condition with required traits has a value, and it is true if the set holds the
traits, unless it looks into the value of its one trait. -/
theorem TrueTraits.meaning_condition (hsat : schema.TrueTraits value satisfied)
    (hbuiltin : registry.BuiltinConjunctions) (ctx : Context) {condition : Expr}
    {required : NameSet}
    (hrequired : schema.requiredTraits? condition = some required) :
    ∃ v, condition.meaning registry ctx value = .ok v ∧
      (v.isTruthy = true ↔
        required.subset satisfied = true ∧ ¬ SpreadsFalse value condition) := by
  rcases of_requiredTraits? hrequired with ⟨rfl, rfl⟩ | ⟨name, rfl, htrait, rfl⟩ |
    ⟨function, args, names, rfl, hfunction, hargs, hnames, rfl⟩
  · refine ⟨.bool true, rfl, ?_⟩
    simp [SpreadsFalse, Value.isTruthy, NameSet.subset_iff]
  · obtain ⟨v, hv, htrue⟩ := hsat.decided name (declaresKind_of_isTrait htrait)
    refine ⟨v, hv, ?_⟩
    simp [SpreadsFalse, ofNames_subset_iff, htrue]
  · rw [ofNames_subset_iff]
    exact hsat.meaning_call hbuiltin ctx hfunction hargs hnames

end Schema

end Rulebook
