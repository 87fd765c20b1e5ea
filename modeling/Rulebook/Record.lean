/-
# Records

Nested input data under dotted paths. A record is a tree whose edges are path
segments: writing below a leaf turns the leaf into a branch, writing at a branch
turns it into a leaf. Empty segments are segments like any other.
-/

import Rulebook.Context

namespace Rulebook

/-! ## Paths -/

/-- The segments of a path, cut at every dot. -/
def splitAtDots : List Char → List (List Char)
  | [] => [[]]
  | c :: rest =>
    if c = '.' then [] :: splitAtDots rest
    else
      match splitAtDots rest with
      | [] => [[c]]
      | segment :: segments => (c :: segment) :: segments

/-- The segments of a path; there is at least one. -/
def segments (path : String) : List String := (splitAtDots path.toList).map String.ofList

/-! ## The tree -/

/-- What stands at a place in a record. -/
inductive RecordNode where
  | leaf (value : Value)
  | branch (children : List (String × RecordNode))

namespace RecordNode

/-- Put a value at the end of a path below a branch, making the branches on the
way. -/
def insertBelow (value : Value) :
    List String → List (String × RecordNode) → List (String × RecordNode)
  | [], children => children
  | [last], children => Entries.insert last (.leaf value) children
  | first :: rest, children =>
    let below := match Entries.find? first children with
      | some (.branch grandchildren) => grandchildren
      | _ => []
    Entries.insert first (.branch (insertBelow value rest below)) children

/-- The leaf at the end of a path below a branch. -/
def findBelow : List String → List (String × RecordNode) → Option Value
  | [], _ => none
  | [last], children =>
    match Entries.find? last children with
    | some (.leaf value) => some value
    | _ => none
  | first :: rest, children =>
    match Entries.find? first children with
    | some (.branch grandchildren) => findBelow rest grandchildren
    | _ => none

/-- The text of a path one segment longer. While the text is empty no dot is
written, so leading empty segments leave no trace. -/
def extendPath (path segment : String) : String :=
  if path = "" then segment else path ++ "." ++ segment

mutual

/-- The path texts of the leaves at and below a place. -/
def paths (path : String) : RecordNode → List String
  | .leaf _ => [path]
  | .branch children => pathsBelow path children

/-- The path texts of the leaves below a branch. -/
def pathsBelow (path : String) : List (String × RecordNode) → List String
  | [] => []
  | (segment, node) :: rest => paths (extendPath path segment) node ++ pathsBelow path rest

end

end RecordNode

/-! ## Records -/

/-- A tree of values, reached by dotted paths. -/
structure Record where
  children : List (String × RecordNode)

namespace Record

instance : EmptyCollection Record := ⟨⟨[]⟩⟩

/-- Put a value at a path. -/
def insert (r : Record) (path : String) (value : Value) : Record :=
  ⟨RecordNode.insertBelow value (segments path) r.children⟩

/-- The value at a path; nothing at a branch. -/
def find? (r : Record) (path : String) : Option Value :=
  RecordNode.findBelow (segments path) r.children

/-- The path texts of all leaves, ascending. -/
def keys (r : Record) : List String :=
  (RecordNode.pathsBelow "" r.children).mergeSort fun a b => decide (a ≤ b)

def toContext (r : Record) : Context where
  find? := r.find?
  keys := r.keys

end Record

end Rulebook
