/-
# Contexts

The input of an evaluation: a read-only view of named values. Any data can be
looked at through a `Context`; maps of values and dynamic values are here,
nested records have a module of their own.
-/

import Rulebook.Fault
import Rulebook.Value

namespace Rulebook

/-- A view of named values. `keys` serves messages only; a view that is no mapping
is turned away before anything is looked up. -/
structure Context where
  find? : String → Option Value
  keys : List String
  isMapping : Bool := true
  /-- What the view looks at, for the message when it is no mapping. -/
  description : String := "mapping"

namespace Context

/-- A flat map of values. -/
def ofMap (m : NameMap Value) : Context where
  find? := m.find?
  keys := m.names

/-- A dynamic value, which is a mapping only if it is a map. -/
def ofValue (v : Value) : Context :=
  match v with
  | .map entries =>
    { find? := fun name => Entries.find? name entries
      keys := entries.map Prod.fst
      description := v.typeName }
  | _ =>
    { find? := fun _ => none
      keys := []
      isMapping := false
      description := v.typeName }

/-- Turn away a view that is no mapping. -/
def check (ctx : Context) : Except Fault Unit :=
  if ctx.isMapping then .ok () else .error (.invalidContext ctx.description)

theorem check_eq_ok_iff {ctx : Context} : ctx.check = .ok () ↔ ctx.isMapping = true := by
  unfold check
  split <;> simp_all

theorem mem_keys_ofMap (m : NameMap Value) (name : String) :
    name ∈ (ofMap m).keys ↔ ((ofMap m).find? name).isSome = true :=
  NameMap.mem_names_iff

end Context

end Rulebook
