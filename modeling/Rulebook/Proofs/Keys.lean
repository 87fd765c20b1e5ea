/-
# The keys of a context

What a context lists beside what it answers. A map lists every key that it answers, once
and in ascending order. A record writes the paths of its leaves while it goes down the tree,
and it writes no dot as long as it has written nothing; so a path that begins with dots is
listed without them. Records therefore list what they answer exactly if no path with a
value begins with a dot. Otherwise a key is listed that is not answered, or is listed
twice, and an evaluation that asks for it can be told that it is missing and available.
-/

import Mathlib.Data.List.DropRight
import Mathlib.Data.List.Nodup
import Rulebook.Proofs.Dependence
import Rulebook.Proofs.Failures
import Rulebook.Proofs.Records

namespace Rulebook

namespace RecordNode

/-! ## What holds on every level of a tree -/

/-- On every level the names of the children ascend, and there is no dot in them. -/
inductive WellKept : List (String × RecordNode) → Prop
  | intro {children : List (String × RecordNode)} : Entries.Ascending children →
      (∀ segment ∈ children.map Prod.fst, '.' ∉ segment.toList) →
      (∀ segment grandchildren, (segment, .branch grandchildren) ∈ children →
        WellKept grandchildren) → WellKept children

variable {children : List (String × RecordNode)}

theorem wellKept_nil : WellKept [] :=
  .intro .nil (List.forall_mem_nil _) (fun _ _ => nofun)

theorem WellKept.ascending (h : WellKept children) : Entries.Ascending children := by
  cases h
  assumption

theorem WellKept.childrenAt (h : WellKept children) (segment : String) :
    WellKept (childrenAt segment children) := by
  obtain ⟨hascending, -, hbelow⟩ := h
  rw [RecordNode.childrenAt]
  rcases hfind : Entries.find? segment children with _ | ⟨value⟩ | ⟨grandchildren⟩
  · exact wellKept_nil
  · exact wellKept_nil
  · exact hbelow segment grandchildren ((Entries.mem_iff_find? hascending).2 hfind)

theorem WellKept.insert (h : WellKept children) {segment : String}
    (hsegment : '.' ∉ segment.toList) {node : RecordNode}
    (hnode : ∀ grandchildren, node = .branch grandchildren → WellKept grandchildren) :
    WellKept (Entries.insert segment node children) := by
  obtain ⟨hascending, hdotless, hbelow⟩ := h
  have hinsert := hascending.insert segment node
  refine .intro hinsert ?_ ?_
  · intro segment' hsegment'
    rcases Entries.mem_insert_names.1 hsegment' with rfl | hold
    · exact hsegment
    · exact hdotless segment' hold
  · intro segment' grandchildren hmem
    rw [Entries.mem_iff_find? hinsert] at hmem
    by_cases heq : segment' = segment
    · rw [heq, Entries.find?_insert_self] at hmem
      exact hnode grandchildren (Option.some.inj hmem)
    · rw [Entries.find?_insert_of_ne heq, ← Entries.mem_iff_find? hascending] at hmem
      exact hbelow segment' grandchildren hmem

/-- To put a value at the end of a path keeps all levels as they should be. -/
theorem WellKept.insertBelow {path : List String}
    (hpath : ∀ segment ∈ path, '.' ∉ segment.toList) (h : WellKept children) (value : Value) :
    WellKept (insertBelow value path children) := by
  induction path generalizing children with
  | nil => exact h
  | cons first rest ih =>
      obtain ⟨hfirst, hrest⟩ := List.forall_mem_cons.1 hpath
      by_cases hend : rest = []
      · subst hend
        exact h.insert hfirst fun _ => nofun
      · rw [insertBelow_cons value first hend]
        apply h.insert hfirst
        rintro grandchildren ⟨⟩
        exact ih hrest (h.childrenAt first)

/-! ## The ways to the leaves -/

mutual

/-- The segments on the way to each leaf at and below a place. -/
def ways : RecordNode → List (List String)
  | .leaf _ => [[]]
  | .branch children => waysBelow children

/-- The segments on the way to each leaf below a branch. -/
def waysBelow : List (String × RecordNode) → List (List String)
  | [] => []
  | (segment, node) :: rest => (ways node).map (segment :: ·) ++ waysBelow rest

end

theorem waysBelow_eq (children : List (String × RecordNode)) :
    waysBelow children = children.flatMap fun child => (ways child.2).map (child.1 :: ·) := by
  induction children with
  | nil => rfl
  | cons child rest ih =>
      obtain ⟨segment, node⟩ := child
      rw [waysBelow, ih, List.flatMap_cons]

theorem cons_mem_waysBelow {first : String} {rest : List String} :
    first :: rest ∈ waysBelow children ↔ ∃ node, (first, node) ∈ children ∧ rest ∈ ways node := by
  rw [waysBelow_eq]
  simp

theorem nil_not_mem_waysBelow : [] ∉ waysBelow children := by
  rw [waysBelow_eq]
  simp

/-- The ways that lead to leaves are those on which something is found. -/
theorem WellKept.mem_waysBelow (h : WellKept children) {way : List String} :
    way ∈ waysBelow children ↔ (findBelow way children).isSome = true := by
  induction h generalizing way with
  | @intro children hascending _ _ ih =>
      cases way with
      | nil => simp [nil_not_mem_waysBelow, findBelow]
      | cons first rest =>
          have hcons : first :: rest ∈ waysBelow children ↔
              ∃ node, Entries.find? first children = some node ∧ rest ∈ ways node := by
            simp only [cons_mem_waysBelow, Entries.mem_iff_find? hascending]
          rw [hcons]
          by_cases hend : rest = []
          · subst hend
            rw [findBelow_singleton, leafAt]
            rcases Entries.find? first children with _ | ⟨value⟩ | ⟨grandchildren⟩ <;>
              simp [ways, nil_not_mem_waysBelow]
          · rw [findBelow_cons first hend, RecordNode.childrenAt]
            rcases hfind : Entries.find? first children with _ | ⟨value⟩ | ⟨grandchildren⟩
            · simp [findBelow_nil]
            · simp [findBelow_nil, ways, hend]
            · have hmem := (Entries.mem_iff_find? hascending).2 hfind
              simpa [ways] using ih first grandchildren hmem

theorem WellKept.nodup_waysBelow (h : WellKept children) : (waysBelow children).Nodup := by
  induction h with
  | @intro children hascending _ _ ih =>
      rw [waysBelow_eq, List.nodup_flatMap]
      constructor
      · rintro ⟨segment, node⟩ hmem
        refine List.Nodup.map (List.cons_injective) ?_
        cases node with
        | leaf value => exact List.nodup_singleton _
        | branch grandchildren => exact ih segment grandchildren hmem
      · refine (List.pairwise_map.1 hascending).imp ?_
        intro child child' hless way hway hway'
        obtain ⟨rest, -, rfl⟩ := List.mem_map.1 hway
        obtain ⟨rest', -, heq⟩ := List.mem_map.1 hway'
        have hsame : child'.1 = child.1 := (List.cons.inj heq).1
        exact String.lt_irrefl _ (hsame ▸ hless)

theorem WellKept.dotless (h : WellKept children) {way : List String}
    (hway : way ∈ waysBelow children) : ∀ segment ∈ way, '.' ∉ segment.toList := by
  induction h generalizing way with
  | @intro children _ hdotless _ ih =>
      cases way with
      | nil => exact List.forall_mem_nil _
      | cons first rest =>
          obtain ⟨node, hmem, hrest⟩ := cons_mem_waysBelow.1 hway
          refine List.forall_mem_cons.2 ⟨hdotless first (List.mem_map_of_mem hmem), ?_⟩
          cases node with
          | leaf value =>
              rw [ways, List.mem_singleton] at hrest
              rw [hrest]
              exact List.forall_mem_nil _
          | branch grandchildren => exact ih first grandchildren hmem hrest

/-! ## The text of a way -/

mutual

theorem paths_eq : ∀ (path : String) (node : RecordNode),
    paths path node = (ways node).map fun way => way.foldl extendPath path
  | _, .leaf _ => rfl
  | path, .branch children => pathsBelow_eq path children

theorem pathsBelow_eq : ∀ (path : String) (children : List (String × RecordNode)),
    pathsBelow path children = (waysBelow children).map fun way => way.foldl extendPath path
  | _, [] => rfl
  | path, (segment, node) :: rest => by
    rw [pathsBelow, waysBelow, paths_eq (extendPath path segment) node, pathsBelow_eq path rest,
      List.map_append, List.map_map]
    rfl

end

end RecordNode

/-- The text of a path begins with a dot, and so its first segment is empty. -/
def BeginsWithDot (path : String) : Prop := path.toList.head? = some '.'

/-- A path without the dots that it begins with. -/
def withoutLeadingDots (path : String) : String :=
  String.ofList (path.toList.dropWhile (· = '.'))

theorem withoutLeadingDots_idem (path : String) :
    withoutLeadingDots (withoutLeadingDots path) = withoutLeadingDots path := by
  rw [withoutLeadingDots, withoutLeadingDots, String.toList_ofList, List.dropWhile_idempotent]

theorem withoutLeadingDots_eq_self_iff {path : String} :
    withoutLeadingDots path = path ↔ ¬ BeginsWithDot path := by
  rw [withoutLeadingDots, BeginsWithDot, ← String.toList_inj, String.toList_ofList]
  cases path.toList with
  | nil => simp
  | cons c rest =>
      by_cases hdot : c = '.'
      · have hlength := (List.dropWhile_sublist (l := rest) (fun c => decide (c = '.'))).length_le
        simp only [hdot, List.dropWhile_cons_of_pos, decide_true, List.head?_cons,
          not_true_eq_false, iff_false]
        intro heq
        rw [heq, List.length_cons] at hlength
        omega
      · simp [hdot]

namespace RecordNode

/-- Once something is written, every segment is written after a dot. -/
theorem foldl_extendPath_of_ne {path : String} (hpath : path ≠ "") (way : List String) :
    way.foldl extendPath path = joinSegments (path :: way) := by
  induction way generalizing path with
  | nil => simp [joinSegments]
  | cons segment rest ih =>
      have hextended : path ++ "." ++ segment ≠ "" := by simp
      rw [List.foldl_cons, extendPath, if_neg hpath, ih hextended,
        joinSegments_cons path (List.cons_ne_nil segment rest)]
      by_cases hend : rest = []
      · subst hend
        simp [joinSegments]
      · rw [joinSegments_cons _ hend, joinSegments_cons _ hend]
        simp [String.append_assoc]

/-- Before that, no dot is written. -/
theorem foldl_extendPath {way : List String} (h : ∀ segment ∈ way, '.' ∉ segment.toList) :
    way.foldl extendPath "" = withoutLeadingDots (joinSegments way) := by
  induction way with
  | nil => rfl
  | cons segment rest ih =>
      obtain ⟨hsegment, hrest⟩ := List.forall_mem_cons.1 h
      have hstart : extendPath "" segment = segment := rfl
      rw [List.foldl_cons, hstart]
      by_cases hempty : segment = ""
      · subst hempty
        rw [ih hrest]
        by_cases hend : rest = []
        · subst hend
          rfl
        · rw [joinSegments_cons "" hend]
          simp [withoutLeadingDots]
      -- The first character that is written is no dot, so none is left out.
      · rw [foldl_extendPath_of_ne hempty, eq_comm, withoutLeadingDots_eq_self_iff, BeginsWithDot]
        obtain ⟨c, others, hsplit⟩ : ∃ c others, segment.toList = c :: others :=
          List.exists_cons_of_ne_nil (by simpa using hempty)
        rw [hsplit] at hsegment
        have hfirst : c ≠ '.' := fun hc => hsegment (hc ▸ List.mem_cons_self)
        by_cases hend : rest = []
        · subst hend
          simpa [joinSegments, hsplit] using hfirst
        · rw [joinSegments_cons segment hend]
          simpa [hsplit] using hfirst

end RecordNode

/-! ## What contexts list -/

/-- A context lists what it answers: its keys ascend, so none comes twice, and they are the
keys that have a value. -/
structure Context.ListsAnswers (ctx : Context) : Prop where
  ascending : ctx.keys.Pairwise (· < ·)
  mem_keys_iff : ∀ key, key ∈ ctx.keys ↔ (ctx.find? key).isSome = true

theorem Context.listsAnswers_ofMap (m : NameMap Value) : (Context.ofMap m).ListsAnswers :=
  ⟨m.names_ascending, mem_keys_ofMap m⟩

theorem Context.listsAnswers_ofValue {v : Value} (h : v.Ordered) :
    (Context.ofValue v).ListsAnswers := by
  cases h with
  | map hascending _ => exact ⟨hascending, fun _ => Entries.find?_isSome_iff.symm⟩
  | _ => exact ⟨.nil, fun _ => by simp [ofValue]⟩

namespace Record

theorem find?_toContext (r : Record) (path : String) :
    r.toContext.find? path = r.find? path := rfl

/-- Values put in at paths, one after the other. -/
def ofList (entries : List (String × Value)) : Record :=
  entries.foldl (fun r entry => r.insert entry.1 entry.2) ∅

theorem wellKept_ofList (entries : List (String × Value)) :
    RecordNode.WellKept (ofList entries).children := by
  suffices h : ∀ r : Record, RecordNode.WellKept r.children →
      RecordNode.WellKept
        (entries.foldl (fun r entry => r.insert entry.1 entry.2) r).children from
    h ∅ RecordNode.wellKept_nil
  induction entries with
  | nil => exact fun _ h => h
  | cons entry rest ih =>
      exact fun r h => ih _ (h.insertBelow (fun _ => not_mem_of_mem_segments) entry.2)

/-- Only paths at which a value was put in have one. -/
theorem mem_of_find?_ofList {entries : List (String × Value)} {path : String}
    (h : ((ofList entries).find? path).isSome = true) : path ∈ entries.map Prod.fst := by
  suffices hfold : ∀ r : Record,
      ((entries.foldl (fun r entry => r.insert entry.1 entry.2) r).find? path).isSome = true →
        path ∈ entries.map Prod.fst ∨ (r.find? path).isSome = true by
    refine (hfold ∅ h).resolve_right ?_
    simp [find?, EmptyCollection.emptyCollection, RecordNode.findBelow_nil]
  clear h
  induction entries with
  | nil => exact fun _ => .inr
  | cons entry rest ih =>
      intro r hpath
      rcases ih (r.insert entry.1 entry.2) hpath with hrest | hinsert
      · exact .inl (List.mem_cons_of_mem _ hrest)
      · rw [find?, insert, RecordNode.findBelow_insertBelow entry.2 (segments_ne_nil entry.1)
          (segments_ne_nil path)] at hinsert
        split at hinsert
        · rename_i heq
          exact .inl (segments_inj.1 heq ▸ List.mem_cons_self)
        · split at hinsert
          · cases hinsert
          · exact .inr hinsert

theorem keys_sorted (r : Record) : r.keys.Pairwise (· ≤ ·) := by
  have hsorted : r.keys.Pairwise fun a b => decide (a ≤ b) = true := by
    apply List.pairwise_mergeSort
    · intro a b c hab hbc
      exact decide_eq_true (String.le_trans (of_decide_eq_true hab) (of_decide_eq_true hbc))
    · intro a b
      simpa using String.le_total a b
  exact hsorted.imp of_decide_eq_true

section Kept

variable {r : Record} (h : RecordNode.WellKept r.children)

include h

/-- A record lists the paths that have a value, each without the dots that it begins with. -/
theorem exists_answered : ∃ paths : List String, paths.Nodup ∧
    (∀ path, path ∈ paths ↔ (r.find? path).isSome = true) ∧
    r.keys.Perm (paths.map withoutLeadingDots) := by
  have hsegments : ∀ way ∈ RecordNode.waysBelow r.children, segments (joinSegments way) = way := by
    intro way hway
    refine segments_joinSegments ?_ (h.dotless hway)
    rintro rfl
    exact RecordNode.nil_not_mem_waysBelow hway
  refine ⟨(RecordNode.waysBelow r.children).map joinSegments, ?_, fun path => ?_, ?_⟩
  · refine h.nodup_waysBelow.map_on fun way hway way' hway' heq => ?_
    rw [← hsegments way hway, heq, hsegments way' hway']
  · rw [find?, ← h.mem_waysBelow, List.mem_map]
    constructor
    · rintro ⟨way, hway, rfl⟩
      rwa [hsegments way hway]
    · exact fun hway => ⟨_, hway, joinSegments_segments path⟩
  · rw [keys, RecordNode.pathsBelow_eq, List.map_map]
    have htexts : (RecordNode.waysBelow r.children).map (fun way =>
          way.foldl RecordNode.extendPath "") =
        (RecordNode.waysBelow r.children).map (withoutLeadingDots ∘ joinSegments) :=
      List.map_congr_left fun way hway => RecordNode.foldl_extendPath (h.dotless hway)
    rw [← htexts]
    exact List.mergeSort_perm _ _

/-- A record lists what it answers exactly if no path with a value begins with a dot. -/
theorem listsAnswers_iff : r.toContext.ListsAnswers ↔
    ∀ path, (r.find? path).isSome = true → ¬ BeginsWithDot path := by
  obtain ⟨paths, hnodup, hmem, hperm⟩ := exists_answered h
  constructor
  · intro hlists path hpath
    rw [← withoutLeadingDots_eq_self_iff]
    -- Both the path and what is left of it have values, and both are listed as the latter.
    have hlisted : withoutLeadingDots path ∈ r.keys :=
      hperm.mem_iff.2 (List.mem_map_of_mem ((hmem path).2 hpath))
    have hanswered : withoutLeadingDots path ∈ paths := by
      rw [hmem, ← find?_toContext, ← hlists.mem_keys_iff]
      exact hlisted
    have honce : (paths.map withoutLeadingDots).Nodup :=
      hperm.nodup_iff.1 (hlists.ascending.imp String.ne_of_lt)
    have hinj : ∀ a ∈ paths, ∀ b ∈ paths, withoutLeadingDots a = withoutLeadingDots b → a = b :=
      fun a ha b hb => List.inj_on_of_nodup_map honce ha hb
    exact hinj _ hanswered path ((hmem path).2 hpath) (withoutLeadingDots_idem path)
  · intro hdots
    have hself : paths.map withoutLeadingDots = paths :=
      (List.map_congr_left fun path hpath =>
        withoutLeadingDots_eq_self_iff.2 (hdots path ((hmem path).1 hpath))).trans (List.map_id' _)
    rw [hself] at hperm
    have hne : r.keys.Pairwise (· ≠ ·) := hperm.nodup_iff.2 hnodup
    refine ⟨((keys_sorted r).and hne).imp ?_, fun key => ?_⟩
    · rintro a b ⟨hle, hab⟩
      exact String.not_le.1 fun hba => hab (String.le_antisymm hle hba)
    · rw [find?_toContext, ← hmem]
      exact hperm.mem_iff

end Kept

/-- A record lists what it answers if no value was put in at a path that begins with a
dot. -/
theorem listsAnswers_ofList {entries : List (String × Value)}
    (h : ∀ entry ∈ entries, ¬ BeginsWithDot entry.1) :
    (ofList entries).toContext.ListsAnswers := by
  rw [listsAnswers_iff (wellKept_ofList entries)]
  intro path hpath
  obtain ⟨entry, hentry, rfl⟩ := List.mem_map.1 (mem_of_find?_ofList hpath)
  exact h entry hentry

end Record

/-! ## Missing fields -/

/-- If the fault is a missing field, the context lacks the field, and its keys are told. -/
def Fault.TellsKeys (ctx : Context) (fault : Fault) : Prop :=
  ∀ field available, fault = .missingField field available →
    ctx.find? field = none ∧ available = ctx.keys

theorem Fault.OwnOver.tellsKeys {ctx : Context} {fault : Fault} (h : fault.OwnOver ctx) :
    fault.TellsKeys ctx := by
  cases h with
  | missingField hnone =>
      rintro field available ⟨⟩
      exact ⟨hnone, rfl⟩
  | _ => exact nofun

namespace Schema.Compiled

variable {schema : Schema} {registry : Registry} {p : Program} {ctx : Context} {fault : Fault}
  (h : schema.Compiled registry p)

include h

theorem tellsKeys_of_fails (hfails : p.Fails ctx fault) : fault.TellsKeys ctx := by
  have hslots : ∀ walk slot, True → ∀ fault, p.resolve ctx walk slot = .error fault →
      fault.TellsKeys ctx :=
    h.of_error_of_resolve (fun fault hown => hown.tellsKeys) (fun _ _ _ _ => nofun)
      fun _ _ _ _ _ _ _ _ _ _ => trivial
  exact hfails.of_slots (fun _ => nofun) nofun fun slot => hslots [] slot trivial

theorem tellsKeys_of_failsInSession (hfails : p.FailsInSession ctx fault) :
    fault.TellsKeys ctx := by
  have hslots : ∀ walk slot memo, True → ∀ fault,
      (p.resolveWith ctx walk slot memo).1 = .error fault → fault.TellsKeys ctx :=
    h.of_error_of_resolveWith (fun fault hown => hown.tellsKeys) (fun _ _ _ _ => nofun)
      fun _ _ _ _ _ _ _ _ => trivial
  exact hfails.of_slots (fun _ => nofun) fun slot memo => hslots [] slot memo trivial

end Schema.Compiled

/-- What contexts list. A map and a dynamic value list exactly what they answer, ascending
and each key once. A record into which values were put at any paths lists, ascending, the
paths that have a value, each without the dots that it begins with; so it lists exactly what
it answers if and only if no such path begins with a dot. When a field is missing, in an
evaluation or in a session, the context has no value for it and its keys are what is told;
so where it lists exactly what it answers, the field is not told to be available. -/
theorem listsAnswers_iff_not_beginsWithDot (m : NameMap Value) {v : Value} (hv : v.Ordered)
    (entries : List (String × Value)) {schema : Schema} {passes : List Pass}
    {registry : Registry} {p : Program} (hp : schema.compileWith passes registry = .ok p) :
    (Context.ofMap m).ListsAnswers ∧ (Context.ofValue v).ListsAnswers ∧
    ((Record.ofList entries).keys.Pairwise (· ≤ ·) ∧
      (∃ paths : List String, paths.Nodup ∧
        (∀ path, path ∈ paths ↔ ((Record.ofList entries).find? path).isSome = true) ∧
        (Record.ofList entries).keys.Perm (paths.map withoutLeadingDots)) ∧
      ((Record.ofList entries).toContext.ListsAnswers ↔
        ∀ path, ((Record.ofList entries).find? path).isSome = true → ¬ BeginsWithDot path)) ∧
    ∀ ctx field available,
      p.Fails ctx (.missingField field available) ∨
        p.FailsInSession ctx (.missingField field available) →
      ctx.find? field = none ∧ available = ctx.keys ∧
        (ctx.ListsAnswers → field ∉ available) := by
  have h := Schema.compiled_of_compileWith hp
  have hkept := Record.wellKept_ofList entries
  refine ⟨Context.listsAnswers_ofMap m, Context.listsAnswers_ofValue hv,
    ⟨Record.keys_sorted _, Record.exists_answered hkept, Record.listsAnswers_iff hkept⟩, ?_⟩
  intro ctx field available hfails
  have htells : (Fault.missingField field available).TellsKeys ctx :=
    hfails.elim h.tellsKeys_of_fails h.tellsKeys_of_failsInSession
  obtain ⟨hnone, rfl⟩ := htells field available rfl
  refine ⟨hnone, rfl, fun hlists hlisted => ?_⟩
  have hsome := (hlists.mem_keys_iff field).1 hlisted
  rw [hnone] at hsome
  cases hsome

namespace Example

/-- A rulebook that looks at one field. -/
def fares : Schema where
  attributes := [⟨.attribute, "fare", some (.field "zone"), none⟩]
  traits := []
  functions := []

/-- A journey whose zone was put in with a dot too many. -/
def misspelt : List (String × Value) := [(".zone", .int 2)]

/-- The zone is listed, but there is none: it is told to be missing and available at once. -/
theorem listsAnswers_iff_not_beginsWithDot_fares :
    ∃ p, fares.compileWith Pass.standard .builtins = .ok p ∧
      (Record.ofList misspelt).find? ".zone" = some (.int 2) ∧
      (Record.ofList misspelt).keys = ["zone"] ∧
      (Record.ofList misspelt).find? "zone" = none ∧
      ¬ (Record.ofList misspelt).toContext.ListsAnswers ∧
      p.Fails (Record.ofList misspelt).toContext (.missingField "zone" ["zone"]) := by
  obtain ⟨p, hp⟩ : ∃ p, fares.compile .builtins = .ok p :=
    Schema.exists_compile (by decide +kernel)
  obtain ⟨-, -, ⟨-, -, hlists⟩, hmissing⟩ :=
    listsAnswers_iff_not_beginsWithDot ∅ Value.Ordered.null misspelt hp
  have hzone : (Record.ofList misspelt).find? ".zone" = some (.int 2) := rfl
  have hkeys : (Record.ofList misspelt).keys = ["zone"] := by
    have hpaths : RecordNode.pathsBelow "" (Record.ofList misspelt).children = ["zone"] := rfl
    rw [Record.keys, hpaths, List.mergeSort_singleton]
  have hdot : ¬ (Record.ofList misspelt).toContext.ListsAnswers := fun h =>
    hlists.1 h ".zone" (by rw [hzone]; rfl) rfl
  have hname : "fare" ∈ fares.names := by decide
  have hmeaning : fares.meaning .builtins (Record.ofList misspelt).toContext 1 "fare" =
      some (.error (.missingField "zone" (Record.ofList misspelt).keys)) := rfl
  have hfault := (Schema.accepted_of_compile hp).evaluateBinding_of_meaning rfl hname hmeaning
  rw [hkeys] at hfault
  have hfails : p.Fails (Record.ofList misspelt).toContext (.missingField "zone" ["zone"]) :=
    .binding hfault
  obtain ⟨hnone, -, -⟩ := hmissing _ "zone" ["zone"] (.inl hfails)
  exact ⟨p, hp, hzone, hkeys, hnone, hdot, hfails⟩

end Example

end Rulebook
