/-
# Schemas

What a rulebook declares: named attributes, traits and functions, each with an
expression and the place it was read from. A schema keeps three lists of
declarations; read in the order attributes, traits, functions they are the
encounter order, in which everything about a schema is reported.
-/

import Rulebook.Expr

namespace Rulebook

/-! ## Declarations -/

/-- A place in a source text. -/
structure Location where
  file : String
  line : UInt32
  column : UInt32
  deriving DecidableEq

def Location.render (l : Location) : String :=
  l.file ++ ":" ++ toString l.line.toNat ++ ":" ++ toString l.column.toNat

/-- What a declaration declares. -/
inductive Kind where
  | attribute
  | trait
  | function
  deriving DecidableEq

def Kind.render : Kind → String
  | .attribute => "attribute"
  | .trait => "trait"
  | .function => "function"

/-- A named attribute, trait or function. The expression may be absent, so that an
incomplete declaration can be reported. -/
structure Declaration where
  kind : Kind
  name : String
  expression : Option Expr
  location : Option Location

/-! ## Schemas -/

/-- The declarations of a rulebook, in three lists. A list may hold declarations of
any kind when it does not come from `declare`. -/
structure Schema where
  attributes : List Declaration
  traits : List Declaration
  functions : List Declaration

namespace Schema

instance : EmptyCollection Schema := ⟨⟨[], [], []⟩⟩

/-- Every declaration in encounter order. -/
def declarations (s : Schema) : List Declaration := s.attributes ++ s.traits ++ s.functions

/-- Add a declaration at the end of the list of its kind. -/
def declare (s : Schema) (d : Declaration) : Schema :=
  match d.kind with
  | .attribute => { s with attributes := s.attributes ++ [d] }
  | .trait => { s with traits := s.traits ++ [d] }
  | .function => { s with functions := s.functions ++ [d] }

/-- The schema of declarations in any order. -/
def ofDeclarations (declarations : List Declaration) : Schema := declarations.foldl declare ∅

def size (s : Schema) : Nat := s.declarations.length

def isEmpty (s : Schema) : Bool := s.size == 0

/-- The declared names in encounter order, repeated as often as they are declared. -/
def names (s : Schema) : List String := s.declarations.map (·.name)

/-- The last declaration of a name in encounter order. -/
def find? (s : Schema) (name : String) : Option Declaration :=
  s.declarations.reverse.find? (·.name = name)

end Schema

end Rulebook
