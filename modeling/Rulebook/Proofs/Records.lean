/-
# Insertion into records

A record is a map from paths, but one in which a path and a longer one that it begins
cannot both have a value. To put a value at a path gives the path the value, takes away
the values of all paths that it begins and of all that begin it, and leaves every other
path as it was. Paths are compared by their segments, and no two paths have the same
segments, wherever their dots stand.
-/

import Rulebook.Record

namespace Rulebook

/-! ## Paths and their segments -/

theorem splitAtDots_eq_splitOn (text : List Char) : splitAtDots text = text.splitOn '.' := by
  induction text with
  | nil => rfl
  | cons c rest ih =>
      rw [splitAtDots, ih, List.splitOn_cons_eq_if_modifyHead]
      by_cases hdot : c = '.'
      · simp [hdot]
      · obtain ⟨segment, segments, hsegments⟩ :=
          List.exists_cons_of_ne_nil (List.splitOn_ne_nil '.' rest)
        simp [hdot, hsegments]

theorem segments_ne_nil (path : String) : segments path ≠ [] := by
  simp [segments, splitAtDots_eq_splitOn, List.splitOn_ne_nil]

/-- The path with the given segments. -/
def joinSegments (path : List String) : String := String.intercalate "." path

theorem joinSegments_cons (segment : String) {rest : List String} (h : rest ≠ []) :
    joinSegments (segment :: rest) = segment ++ "." ++ joinSegments rest := by
  cases rest with
  | nil => exact absurd rfl h
  | cons next rest => exact String.intercalate_cons_cons

@[simp] theorem joinSegments_segments (path : String) : joinSegments (segments path) = path := by
  apply String.toList_inj.1
  simp [joinSegments, segments, splitAtDots_eq_splitOn, String.toList_intercalate,
    Function.comp_def, List.intercalate_splitOn]

theorem segments_joinSegments {way : List String} (hne : way ≠ [])
    (hdotless : ∀ segment ∈ way, '.' ∉ segment.toList) : segments (joinSegments way) = way := by
  have hsplit : (['.'].intercalate (way.map String.toList)).splitOn '.' = way.map String.toList :=
    List.splitOn_intercalate '.' (by simpa using hdotless) (by simpa using hne)
  simp [segments, joinSegments, splitAtDots_eq_splitOn, String.toList_intercalate, hsplit,
    Function.comp_def]

/-- There is no dot in a segment. -/
theorem not_mem_of_mem_splitAtDots {text segment : List Char} (h : segment ∈ splitAtDots text) :
    '.' ∉ segment := by
  induction text generalizing segment with
  | nil => simp_all [splitAtDots]
  | cons c rest ih =>
      rw [splitAtDots] at h
      split at h
      · rcases List.mem_cons.1 h with rfl | h
        · exact List.not_mem_nil
        · exact ih h
      · rename_i hdot
        obtain ⟨first, others, hsplit⟩ : ∃ first others, splitAtDots rest = first :: others := by
          rw [splitAtDots_eq_splitOn]
          exact List.exists_cons_of_ne_nil (List.splitOn_ne_nil '.' rest)
        simp only [hsplit, List.mem_cons] at h ih
        rcases h with rfl | h
        · have hfirst := ih (.inl rfl)
          simp [hfirst, Ne.symm hdot]
        · exact ih (.inr h)

theorem not_mem_of_mem_segments {path segment : String} (h : segment ∈ segments path) :
    '.' ∉ segment.toList := by
  obtain ⟨characters, hcharacters, rfl⟩ := List.mem_map.1 h
  simpa using not_mem_of_mem_splitAtDots hcharacters

theorem segments_inj {path path' : String} : segments path = segments path' ↔ path = path' := by
  refine ⟨fun h => ?_, fun h => by rw [h]⟩
  rw [← joinSegments_segments path, h, joinSegments_segments]

/-! ## The tree -/

namespace RecordNode

/-- What stands below a child that is a branch; nothing else does. -/
def childrenAt (segment : String) (children : List (String × RecordNode)) :
    List (String × RecordNode) :=
  match Entries.find? segment children with
  | some (.branch grandchildren) => grandchildren
  | _ => []

/-- The value of a child that is a leaf. -/
def leafAt (segment : String) (children : List (String × RecordNode)) : Option Value :=
  match Entries.find? segment children with
  | some (.leaf value) => some value
  | _ => none

theorem insertBelow_singleton (value : Value) (last : String)
    (children : List (String × RecordNode)) :
    insertBelow value [last] children = Entries.insert last (.leaf value) children := rfl

theorem insertBelow_cons (value : Value) (first : String) {rest : List String} (h : rest ≠ [])
    (children : List (String × RecordNode)) :
    insertBelow value (first :: rest) children =
      Entries.insert first (.branch (insertBelow value rest (childrenAt first children)))
        children := by
  cases rest with
  | nil => exact absurd rfl h
  | cons second rest => rfl

theorem findBelow_nil (path : List String) : findBelow path [] = none := by
  cases path with
  | nil => rfl
  | cons first rest => cases rest <;> rfl

theorem findBelow_singleton (last : String) (children : List (String × RecordNode)) :
    findBelow [last] children = leafAt last children := rfl

theorem findBelow_cons (first : String) {rest : List String} (h : rest ≠ [])
    (children : List (String × RecordNode)) :
    findBelow (first :: rest) children = findBelow rest (childrenAt first children) := by
  cases rest with
  | nil => exact absurd rfl h
  | cons second rest =>
      simp only [findBelow, childrenAt]
      rcases Entries.find? first children with _ | ⟨value⟩ | ⟨grandchildren⟩
      · exact (findBelow_nil _).symm
      · exact (findBelow_nil _).symm
      · rfl

section Insert

variable (segment : String) (children : List (String × RecordNode))

@[simp] theorem leafAt_insert_leaf (value : Value) :
    leafAt segment (Entries.insert segment (.leaf value) children) = some value := by
  simp [leafAt]

@[simp] theorem leafAt_insert_branch (grandchildren : List (String × RecordNode)) :
    leafAt segment (Entries.insert segment (.branch grandchildren) children) = none := by
  simp [leafAt]

@[simp] theorem childrenAt_insert_leaf (value : Value) :
    childrenAt segment (Entries.insert segment (.leaf value) children) = [] := by
  simp [childrenAt]

@[simp] theorem childrenAt_insert_branch (grandchildren : List (String × RecordNode)) :
    childrenAt segment (Entries.insert segment (.branch grandchildren) children) =
      grandchildren := by
  simp [childrenAt]

end Insert

/-- A path that begins with another segment is not touched. -/
theorem findBelow_insert_of_ne {first segment : String} (h : first ≠ segment)
    (rest : List String) (node : RecordNode) (children : List (String × RecordNode)) :
    findBelow (first :: rest) (Entries.insert segment node children) =
      findBelow (first :: rest) children := by
  cases rest <;> simp only [findBelow, Entries.find?_insert_of_ne h]

/-- What the paths below a branch come to when a value is put at one of them. -/
theorem findBelow_insertBelow (value : Value) {path query : List String} (hpath : path ≠ [])
    (hquery : query ≠ []) (children : List (String × RecordNode)) :
    findBelow query (insertBelow value path children) =
      if query = path then some value
      else if path <+: query ∨ query <+: path then none
      else findBelow query children := by
  induction path generalizing query children with
  | nil => exact absurd rfl hpath
  | cons first rest ih =>
      obtain ⟨first', rest', rfl⟩ := List.exists_cons_of_ne_nil hquery
      by_cases hfirst : first' = first
      · subst hfirst
        by_cases hrest : rest = []
        · subst hrest
          rw [insertBelow_singleton]
          by_cases hrest' : rest' = []
          · subst hrest'
            simp [findBelow_singleton]
          · rw [findBelow_cons first' hrest', childrenAt_insert_leaf, findBelow_nil]
            simp [hrest', List.cons_prefix_cons]
        · rw [insertBelow_cons value first' hrest]
          by_cases hrest' : rest' = []
          · subst hrest'
            rw [findBelow_singleton, leafAt_insert_branch]
            simp [Ne.symm hrest, List.cons_prefix_cons]
          · rw [findBelow_cons first' hrest', childrenAt_insert_branch, ih hrest hrest',
              findBelow_cons first' hrest']
            simp [List.cons_prefix_cons]
      · have hkept : findBelow (first' :: rest') (insertBelow value (first :: rest) children) =
            findBelow (first' :: rest') children := by
          by_cases hrest : rest = []
          · subst hrest
            exact findBelow_insert_of_ne hfirst rest' _ children
          · rw [insertBelow_cons value first hrest]
            exact findBelow_insert_of_ne hfirst rest' _ children
        rw [hkept]
        simp [List.cons_prefix_cons, hfirst, Ne.symm hfirst]

end RecordNode

/-! ## The law -/

/-- To put a value at a path gives the path the value. A path whose segments begin those of
the path, or begin with them, has none afterwards; it is another path, so the beginning is a
proper one. Every other path has what it had. -/
theorem Record.find?_insert (r : Record) (path query : String) (value : Value) :
    (r.insert path value).find? query =
      if query = path then some value
      else if segments path <+: segments query ∨ segments query <+: segments path then none
      else r.find? query := by
  rw [find?, insert, RecordNode.findBelow_insertBelow value (segments_ne_nil path)
    (segments_ne_nil query), find?]
  simp only [segments_inj]

namespace Example

/-- A customer of whom two things are known. -/
def customer : Record :=
  ((∅ : Record).insert "user.age" (.int 30)).insert "region" (.string "eu")

/-- A user as a whole takes the place of what was known of the user, and the region stays. -/
example : (customer.insert "user" .null).find? "user" = some .null ∧
    (customer.insert "user" .null).find? "user.age" = none ∧
    (customer.insert "user" .null).find? "region" = some (.string "eu") :=
  ⟨rfl, rfl, rfl⟩

end Example

end Rulebook
