/-
# Function registry

The functions and operators that calls may invoke, each under one name and with
the number of arguments it takes. A function is opaque: it is applied to values
and gives a value or a failure.
-/

import Rulebook.Text.Quoted
import Rulebook.Value

namespace Rulebook

/-! ## Functions -/

/-- Why a function gave no value. -/
inductive Failure where
  /-- The function reported a failure of its own. -/
  | reported (message : String)
  /-- The function broke off, with or without a text. -/
  | crashed (text : Option String)
  deriving DecidableEq

def Failure.message : Failure → String
  | .reported message => message
  | .crashed (some text) => text
  | .crashed none => "function panicked"

/-- How many arguments a function takes. -/
inductive Arity where
  | exactly (count : Nat)
  /-- Any number; calls are not checked. -/
  | any
  deriving DecidableEq

def Arity.accepts : Arity → Nat → Bool
  | .exactly n, count => n == count
  | .any, _ => true

def Arity.render : Arity → String
  | .exactly n => toString n
  | .any => "*"

/-- The body of a function. -/
abbrev Callable := List Value → Except Failure Value

/-- A function as it is registered. The arity binds the static analysis, not the
body. -/
structure HostFunction where
  arity : Arity
  body : Callable

namespace HostFunction

/-- Answers every call with one value. -/
def constant (arity : Arity) (value : Value) : HostFunction := ⟨arity, fun _ => .ok value⟩

/-- Reports the same failure on every call. -/
def failing (arity : Arity) (message : String) : HostFunction :=
  ⟨arity, fun _ => .error (.reported message)⟩

/-- Breaks off on every call. -/
def crashing (arity : Arity) (text : Option String) : HostFunction :=
  ⟨arity, fun _ => .error (.crashed text)⟩

/-- Gives back one of its arguments, counted from zero. -/
def argument (arity : Arity) (index : Nat) : HostFunction :=
  ⟨arity, fun args =>
    match args[index]? with
    | some value => .ok value
    | none => .error (.reported "no such arg")⟩

/-- Gives back all its arguments as a list. -/
def arguments (arity : Arity) : HostFunction := ⟨arity, fun args => .ok (.list args)⟩

/-- The number of its arguments. -/
def count (arity : Arity) : HostFunction :=
  ⟨arity, fun args => .ok (.int (Int64.ofNat args.length))⟩

end HostFunction

/-! ## Registries -/

/-- What can go wrong with a name in a registry. -/
inductive RegistryError where
  | alreadyRegistered (name : String)
  | unknownName (name : String)
  deriving DecidableEq

def RegistryError.message : RegistryError → String
  | .alreadyRegistered name => s!"function '{name}' is already registered"
  | .unknownName name => s!"unknown function name '{name}'"

/-- Functions by name. -/
structure Registry where
  functions : NameMap HostFunction

namespace Registry

instance : EmptyCollection Registry := ⟨⟨∅⟩⟩

def find? (r : Registry) (name : String) : Option HostFunction := r.functions.find? name

def contains (r : Registry) (name : String) : Bool := r.functions.contains name

/-- Add a function under a free name. -/
def register (r : Registry) (name : String) (f : HostFunction) : Except RegistryError Registry :=
  if r.contains name then .error (.alreadyRegistered name)
  else .ok ⟨r.functions.insert name f⟩

/-- The function under a name that has to be there. -/
def fetch (r : Registry) (name : String) : Except RegistryError HostFunction :=
  match r.find? name with
  | some f => .ok f
  | none => .error (.unknownName name)

/-- The registered names, ascending. -/
def names (r : Registry) : List String := r.functions.names

def size (r : Registry) : Nat := r.functions.size

def isEmpty (r : Registry) : Bool := r.functions.isEmpty

/-- An outline that shows the names alone. -/
def outline (r : Registry) : String :=
  "FunctionRegistry \x7b functions: " ++ Text.quotedList r.names ++ " \x7d"

theorem find?_register_self {r s : Registry} {name : String} {f : HostFunction}
    (h : r.register name f = .ok s) : s.find? name = some f := by
  unfold register at h
  split at h
  · cases h
  · cases h
    exact NameMap.find?_insert_self _ _ _

theorem find?_register_of_ne {r s : Registry} {name n : String} {f : HostFunction}
    (h : r.register name f = .ok s) (hn : n ≠ name) : s.find? n = r.find? n := by
  unfold register at h
  split at h
  · cases h
  · cases h
    exact NameMap.find?_insert_of_ne _ hn _

end Registry

end Rulebook
