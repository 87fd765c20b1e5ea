/-
# Maps and sets of names

Ordered maps from names, kept as association lists whose names strictly ascend
in code point order. The order is part of what the library shows, so it is part
of the type: two maps with the same entries are equal. The operations on bare
association lists stand apart, because dynamic values hold such lists too.
-/

namespace Rulebook

/-! ## Association lists -/

namespace Entries

variable {α β : Type}

/-- Every name is strictly below all later ones. -/
def Ascending (entries : List (String × α)) : Prop :=
  (entries.map Prod.fst).Pairwise (· < ·)

instance (entries : List (String × α)) : Decidable (Ascending entries) :=
  inferInstanceAs (Decidable ((entries.map Prod.fst).Pairwise (· < ·)))

/-- Put a value under a name, in place of the one that is there or between its
neighbours. -/
def insert (name : String) (value : α) : List (String × α) → List (String × α)
  | [] => [(name, value)]
  | (n, v) :: rest =>
    if name < n then (name, value) :: (n, v) :: rest
    else if name = n then (name, value) :: rest
    else (n, v) :: insert name value rest

/-- The value under a name. -/
def find? (name : String) : List (String × α) → Option α
  | [] => none
  | (n, v) :: rest => if name = n then some v else find? name rest

/-- Entries in any order; of two with one name the later counts. -/
def ofList (entries : List (String × α)) : List (String × α) :=
  entries.foldl (fun sorted e => insert e.1 e.2 sorted) []

theorem mem_insert_names {name n : String} {value : α} {entries : List (String × α)} :
    n ∈ (insert name value entries).map Prod.fst ↔ n = name ∨ n ∈ entries.map Prod.fst := by
  induction entries with
  | nil => simp [insert]
  | cons e rest ih =>
      obtain ⟨m, v⟩ := e
      unfold insert
      split
      · simp
      · split
        · simp_all
        · simp only [List.map_cons, List.mem_cons, ih]
          grind

theorem Ascending.tail {e : String × α} {entries : List (String × α)}
    (h : Ascending (e :: entries)) : Ascending entries :=
  (List.pairwise_cons.1 h).2

theorem Ascending.insert {entries : List (String × α)} (h : Ascending entries)
    (name : String) (value : α) : Ascending (Entries.insert name value entries) := by
  induction entries with
  | nil => simp [Entries.insert, Ascending]
  | cons e rest ih =>
      obtain ⟨n, v⟩ := e
      have hrest := List.pairwise_cons.1 h
      unfold Entries.insert
      split
      · rename_i hlt
        refine List.pairwise_cons.2 ⟨fun m hm => ?_, h⟩
        rcases List.mem_cons.1 hm with rfl | hm
        · exact hlt
        · exact String.lt_trans hlt (hrest.1 m hm)
      · split
        · rename_i heq
          subst heq
          exact h
        · rename_i hlt hne
          refine List.pairwise_cons.2 ⟨fun m hm => ?_, ih hrest.2⟩
          rcases mem_insert_names.1 hm with rfl | hm
          · grind
          · exact hrest.1 m hm

theorem ascending_ofList (entries : List (String × α)) : Ascending (ofList entries) := by
  suffices h : ∀ sorted : List (String × α), Ascending sorted →
      Ascending (entries.foldl (fun s e => Entries.insert e.1 e.2 s) sorted) from
    h [] List.Pairwise.nil
  induction entries with
  | nil => exact fun _ h => h
  | cons e rest ih => exact fun _ h => ih _ (h.insert e.1 e.2)

@[simp] theorem find?_insert_self (name : String) (value : α) (entries : List (String × α)) :
    find? name (insert name value entries) = some value := by
  induction entries with
  | nil => simp [insert, find?]
  | cons e rest ih =>
      obtain ⟨n, v⟩ := e
      unfold insert
      split
      · simp [find?]
      · split
        · simp [find?]
        · simp_all [find?]

theorem find?_insert_of_ne {name n : String} (h : n ≠ name) (value : α)
    (entries : List (String × α)) : find? n (insert name value entries) = find? n entries := by
  induction entries with
  | nil => simp [insert, find?, h]
  | cons e rest ih =>
      obtain ⟨m, v⟩ := e
      unfold insert
      split
      · simp [find?, h]
      · split
        · simp_all [find?]
        · simp [find?, ih]

/-- Of several entries with one name the last counts. -/
theorem find?_ofList (entries : List (String × α)) (name : String) :
    find? name (ofList entries) = (entries.reverse.find? (·.1 = name)).map (·.2) := by
  suffices h : ∀ sorted : List (String × α),
      find? name (entries.foldl (fun s e => insert e.1 e.2 s) sorted) =
        ((entries.reverse.find? (·.1 = name)).map (·.2)).or (find? name sorted) by
    simpa [ofList, find?] using h []
  induction entries with
  | nil => simp
  | cons e rest ih =>
      intro sorted
      rw [List.foldl_cons, ih, List.reverse_cons, List.find?_append]
      by_cases he : e.1 = name
      · subst he
        cases rest.reverse.find? (·.1 = e.1) <;> simp
      · rw [find?_insert_of_ne (Ne.symm he)]
        cases rest.reverse.find? (·.1 = name) <;> simp [he]

/-- An entry is what its name leads to, since no name has two. -/
theorem mem_iff_find? {entries : List (String × α)} (h : Ascending entries) {name : String}
    {value : α} : (name, value) ∈ entries ↔ find? name entries = some value := by
  induction entries with
  | nil => simp [find?]
  | cons e rest ih =>
      obtain ⟨n, v⟩ := e
      have hbelow := (List.pairwise_cons.1 h).1
      unfold find?
      split
      · rename_i heq
        subst heq
        have hrest : (name, value) ∉ rest := fun hmem =>
          String.lt_irrefl _ (hbelow name (List.mem_map_of_mem hmem))
        simp [hrest, eq_comm]
      · rename_i hne
        simp [hne, ih h.tail]

theorem find?_isSome_iff {name : String} {entries : List (String × α)} :
    (find? name entries).isSome = true ↔ name ∈ entries.map Prod.fst := by
  induction entries with
  | nil => simp [find?]
  | cons e rest ih =>
      obtain ⟨n, v⟩ := e
      unfold find?
      split
      · simp_all
      · simp_all

end Entries

/-! ## Maps -/

/-- A finite map from names, its entries in ascending order of their names. -/
structure NameMap (α : Type) where
  entries : List (String × α)
  ascending : Entries.Ascending entries

namespace NameMap

variable {α β : Type}

instance : EmptyCollection (NameMap α) := ⟨[], List.Pairwise.nil⟩
instance : Inhabited (NameMap α) := ⟨∅⟩

def find? (m : NameMap α) (name : String) : Option α := Entries.find? name m.entries

def contains (m : NameMap α) (name : String) : Bool := (m.find? name).isSome

def insert (m : NameMap α) (name : String) (value : α) : NameMap α :=
  ⟨Entries.insert name value m.entries, m.ascending.insert name value⟩

/-- Change the value under a name, which is `initial` if there is none yet. -/
def update (m : NameMap α) (name : String) (initial : α) (f : α → α) : NameMap α :=
  m.insert name (f ((m.find? name).getD initial))

/-- The names, ascending. -/
def names (m : NameMap α) : List String := m.entries.map Prod.fst

def size (m : NameMap α) : Nat := m.entries.length

def isEmpty (m : NameMap α) : Bool := m.entries.isEmpty

def ofList (entries : List (String × α)) : NameMap α :=
  ⟨Entries.ofList entries, Entries.ascending_ofList entries⟩

@[simp] theorem find?_empty (name : String) : (∅ : NameMap α).find? name = none := rfl

@[simp] theorem find?_insert_self (m : NameMap α) (name : String) (value : α) :
    (m.insert name value).find? name = some value :=
  Entries.find?_insert_self name value m.entries

theorem find?_insert_of_ne (m : NameMap α) {name n : String} (h : n ≠ name) (value : α) :
    (m.insert name value).find? n = m.find? n :=
  Entries.find?_insert_of_ne h value m.entries

theorem mem_names_iff {m : NameMap α} {name : String} :
    name ∈ m.names ↔ (m.find? name).isSome = true :=
  Entries.find?_isSome_iff.symm

theorem mem_names_of_find? {m : NameMap α} {name : String} {value : α}
    (h : m.find? name = some value) : name ∈ m.names :=
  mem_names_iff.2 (by simp [h])

theorem mem_names_insert {m : NameMap α} {name n : String} {value : α} :
    n ∈ (m.insert name value).names ↔ n = name ∨ n ∈ m.names :=
  Entries.mem_insert_names

theorem names_ascending (m : NameMap α) : m.names.Pairwise (· < ·) := m.ascending

theorem names_nodup (m : NameMap α) : m.names.Nodup :=
  m.names_ascending.imp String.ne_of_lt

theorem contains_iff {m : NameMap α} {name : String} :
    m.contains name = true ↔ ∃ value, m.find? name = some value :=
  Option.isSome_iff_exists

@[simp] theorem find?_update_self (m : NameMap α) (name : String) (initial : α) (f : α → α) :
    (m.update name initial f).find? name = some (f ((m.find? name).getD initial)) :=
  m.find?_insert_self name _

theorem find?_update_of_ne (m : NameMap α) {name n : String} (h : n ≠ name) (initial : α)
    (f : α → α) : (m.update name initial f).find? n = m.find? n :=
  m.find?_insert_of_ne h _

/-- Of several entries with one name the last counts. -/
theorem find?_ofList (entries : List (String × α)) (name : String) :
    (ofList entries).find? name = (entries.reverse.find? (·.1 = name)).map (·.2) :=
  Entries.find?_ofList entries name

/-- If all entries with one name agree, each of them counts. -/
theorem find?_ofList_eq_some_iff {entries : List (String × α)} {name : String} {value : α}
    (h : ∀ v w, (name, v) ∈ entries → (name, w) ∈ entries → v = w) :
    (ofList entries).find? name = some value ↔ (name, value) ∈ entries := by
  have hmem : ∀ v, (ofList entries).find? name = some v → (name, v) ∈ entries := by
    intro v hv
    rw [find?_ofList, Option.map_eq_some_iff] at hv
    obtain ⟨⟨n, v⟩, hfind, rfl⟩ := hv
    obtain rfl : n = name := by simpa using List.find?_some hfind
    exact List.mem_reverse.1 (List.mem_of_find?_eq_some hfind)
  refine ⟨hmem value, fun hvalue => ?_⟩
  cases hfind : (ofList entries).find? name with
  | some v => rw [h v value (hmem v hfind) hvalue]
  | none =>
      rw [find?_ofList, Option.map_eq_none_iff, List.find?_eq_none] at hfind
      exact absurd (decide_eq_true rfl) (hfind (name, value) (List.mem_reverse.2 hvalue))

/-- An entry is what its name leads to, since no name has two. -/
theorem mem_entries_iff {m : NameMap α} {name : String} {value : α} :
    (name, value) ∈ m.entries ↔ m.find? name = some value :=
  Entries.mem_iff_find? m.ascending

end NameMap

/-! ## Sets -/

/-- A finite set of names: a map that holds nothing but its names. -/
abbrev NameSet := NameMap Unit

namespace NameSet

instance : Membership String NameSet := ⟨fun s name => s.contains name = true⟩

instance (s : NameSet) (name : String) : Decidable (name ∈ s) :=
  inferInstanceAs (Decidable (s.contains name = true))

def add (s : NameSet) (name : String) : NameSet := s.insert name ()

def ofNames (names : List String) : NameSet := names.foldl add ∅

/-- Every name of the first set is in the second. -/
def subset (s t : NameSet) : Bool := s.names.all t.contains

theorem mem_iff_mem_names {s : NameSet} {name : String} : name ∈ s ↔ name ∈ s.names :=
  NameMap.mem_names_iff.symm

@[simp] theorem mem_add {s : NameSet} {name n : String} : n ∈ s.add name ↔ n = name ∨ n ∈ s := by
  simp only [mem_iff_mem_names]
  exact NameMap.mem_names_insert

@[simp] theorem not_mem_empty (name : String) : ¬ name ∈ (∅ : NameSet) := by
  simp [mem_iff_mem_names, NameMap.names, EmptyCollection.emptyCollection]

@[simp] theorem mem_ofNames {names : List String} {name : String} :
    name ∈ ofNames names ↔ name ∈ names := by
  suffices h : ∀ s : NameSet, name ∈ names.foldl add s ↔ name ∈ names ∨ name ∈ s by
    simpa [ofNames] using h ∅
  induction names with
  | nil => simp
  | cons n rest ih =>
      intro s
      rw [List.foldl_cons, ih, mem_add, List.mem_cons]
      grind

theorem subset_iff {s t : NameSet} : s.subset t = true ↔ ∀ name ∈ s, name ∈ t := by
  simp only [subset, List.all_eq_true, mem_iff_mem_names]
  constructor
  · exact fun h name hs => mem_iff_mem_names.1 (h name hs)
  · exact fun h name hs => mem_iff_mem_names.2 (h name hs)

end NameSet

end Rulebook
