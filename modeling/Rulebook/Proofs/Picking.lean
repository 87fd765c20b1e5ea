/-
# Picking rows

The row that a decision table picks is the first one that fits. It depends on the traits
that some row requires and on no others; with more traits satisfied a row is picked that
does not come later; and rows at the end of a table matter only where no row fitted before.
Nothing is assumed of a table: rows may overlap, repeat or shadow each other, require
nothing, or be missing altogether.
-/

import Rulebook.Proofs.Tables

namespace Rulebook

namespace DecisionTable

variable {R : Type} {t : DecisionTable R} {satisfied satisfied' : NameSet}

/-- A table picks the row at a place, which is the first that requires nothing but satisfied
traits. -/
structure Selects (t : DecisionTable R) (satisfied : NameSet) (place : Nat) (row : Row R) :
    Prop where
  at_place : t.rows[place]? = some row
  fits : ∀ name ∈ row.required, name ∈ satisfied
  first : ∀ earlier < place, ∀ other, t.rows[earlier]? = some other →
    ∃ name ∈ other.required, name ∉ satisfied
  picks_row : t.pickRow satisfied = .ok row
  picks : t.pick satisfied = .ok row.resolver

theorem selects_of_picked {row : Row R} (hrow : t.rows[t.picked satisfied]? = some row) :
    t.Selects satisfied (t.picked satisfied) row where
  at_place := hrow
  fits := NameSet.subset_iff.1 (subset_of_picked hrow)
  first earlier hearlier other hother := by
    have hfits := subset_of_lt_picked hearlier hother
    by_contra hall
    push Not at hall
    rw [NameSet.subset_iff.2 hall] at hfits
    cases hfits
  picks_row := pickRow_eq_ok_iff.2 hrow
  picks := by rw [pick, pickRow_eq_ok_iff.2 hrow]; rfl

/-- Where no row fits, the satisfied traits are reported. -/
theorem pick_of_none (h : t.rows[t.picked satisfied]? = none) :
    t.pick satisfied = .error (.noDecisionMatch satisfied.names) := by
  rw [picked, ← List.find?_eq_getElem?_findIdx] at h
  rw [pick, pickRow, h]
  rfl

/-- If all rows that fit one set of traits fit another, the row picked for the other is no
later one. -/
theorem picked_le_picked
    (h : ∀ row ∈ t.rows, (∀ name ∈ row.required, name ∈ satisfied) →
      ∀ name ∈ row.required, name ∈ satisfied') :
    t.picked satisfied' ≤ t.picked satisfied := by
  cases hrow : t.rows[t.picked satisfied]? with
  | some row =>
      have hfits := (selects_of_picked hrow).fits
      exact picked_le hrow (NameSet.subset_iff.2 (h row (List.mem_of_getElem? hrow) hfits))
  | none => exact Nat.le_trans List.findIdx_le_length (List.getElem?_eq_none_iff.1 hrow)

theorem mem_referencedTraits {row : Row R} (hrow : row ∈ t.rows) {name : String}
    (hname : name ∈ row.required) : name ∈ t.referencedTraits := by
  rw [referencedTraits, NameSet.mem_ofNames, List.mem_flatMap]
  exact ⟨row, hrow, NameSet.mem_iff_mem_names.1 hname⟩

/-- Only traits that some row requires have a say. -/
theorem picked_congr
    (h : ∀ name ∈ t.referencedTraits, name ∈ satisfied ↔ name ∈ satisfied') :
    t.picked satisfied = t.picked satisfied' := by
  apply Nat.le_antisymm
  · exact picked_le_picked fun row hrow hfits name hname =>
      (h name (mem_referencedTraits hrow hname)).2 (hfits name hname)
  · exact picked_le_picked fun row hrow hfits name hname =>
      (h name (mem_referencedTraits hrow hname)).1 (hfits name hname)

namespace Selects

variable {place : Nat} {row : Row R}

theorem picked_eq (h : t.Selects satisfied place row) : t.picked satisfied = place := by
  apply Nat.le_antisymm (picked_le h.at_place (NameSet.subset_iff.2 h.fits))
  by_contra hlt
  have hpicked := pickRow_eq_ok_iff.1 h.picks_row
  obtain ⟨name, hname, hmissing⟩ := h.first _ (Nat.lt_of_not_le hlt) row hpicked
  exact hmissing (h.fits name hname)

theorem picked_lt (h : t.Selects satisfied place row) : t.picked satisfied < t.rows.length :=
  h.picked_eq ▸ (List.getElem?_eq_some_iff.1 h.at_place).1

/-- With more traits satisfied a row is picked that does not come later. -/
theorem of_subset (h : t.Selects satisfied place row)
    (hsubset : ∀ name ∈ satisfied, name ∈ satisfied') :
    ∃ place' ≤ place, ∃ row', t.Selects satisfied' place' row' := by
  have hle : t.picked satisfied' ≤ t.picked satisfied :=
    picked_le_picked fun row _ hfits name hname => hsubset name (hfits name hname)
  have hrow := List.getElem?_eq_getElem (Nat.lt_of_le_of_lt hle h.picked_lt)
  exact ⟨_, h.picked_eq ▸ hle, _, selects_of_picked hrow⟩

/-- Rows after one that fits are not looked at. -/
theorem append (h : t.Selects satisfied place row) (extra : List (Row R)) :
    Selects ⟨t.rows ++ extra⟩ satisfied place row := by
  have hpicked : DecisionTable.picked ⟨t.rows ++ extra⟩ satisfied = place := by
    rw [← h.picked_eq, picked, List.findIdx_append]
    exact if_pos h.picked_lt
  have hlt : place < t.rows.length := h.picked_eq ▸ h.picked_lt
  rw [← hpicked]
  apply selects_of_picked
  rw [hpicked, List.getElem?_append_left hlt, h.at_place]

end Selects

/-- What picking depends on. Two sets with the same members among the referenced traits have
the same row picked, or none for either; a larger set has the same or an earlier row picked;
rows that are appended leave every row picked that was; and where none is, exactly the
satisfied traits are reported, in ascending order. -/
theorem selection_laws (t : DecisionTable R) :
    (∀ satisfied satisfied' : NameSet,
      (∀ name ∈ t.referencedTraits, name ∈ satisfied ↔ name ∈ satisfied') →
      (∃ place row, t.Selects satisfied place row ∧ t.Selects satisfied' place row) ∨
        ∃ fault fault', t.pick satisfied = .error fault ∧ t.pick satisfied' = .error fault') ∧
    (∀ satisfied satisfied' : NameSet, (∀ name ∈ satisfied, name ∈ satisfied') →
      ∀ place row, t.Selects satisfied place row →
        ∃ place' ≤ place, ∃ row', t.Selects satisfied' place' row') ∧
    (∀ satisfied place row, t.Selects satisfied place row →
      ∀ extra, Selects ⟨t.rows ++ extra⟩ satisfied place row) ∧
    ∀ satisfied fault, t.pick satisfied = .error fault →
      ∃ reported, fault = .noDecisionMatch reported ∧ reported.Pairwise (· < ·) ∧
        ∀ name, name ∈ reported ↔ name ∈ satisfied := by
  refine ⟨?_, fun _ _ hsubset _ _ h => h.of_subset hsubset, fun _ _ _ h => h.append, ?_⟩
  · intro satisfied satisfied' hsame
    have hpicked := picked_congr hsame
    cases hrow : t.rows[t.picked satisfied]? with
    | some row =>
        left
        refine ⟨t.picked satisfied, row, selects_of_picked hrow, ?_⟩
        rw [hpicked] at hrow ⊢
        exact selects_of_picked hrow
    | none => exact .inr ⟨_, _, pick_of_none hrow, pick_of_none (hpicked ▸ hrow)⟩
  · intro satisfied fault hfault
    cases hrow : t.rows[t.picked satisfied]? with
    | some row =>
        rw [(selects_of_picked hrow).picks] at hfault
        cases hfault
    | none =>
        rw [pick_of_none hrow] at hfault
        cases hfault
        exact ⟨satisfied.names, rfl, satisfied.names_ascending,
          fun name => NameSet.mem_iff_mem_names.symm⟩

end DecisionTable

namespace Example

/-- Fares by trait, without a catch-all: the third row is shadowed by the second. -/
def fareTable : DecisionTable Value where
  rows :=
    [⟨.ofNames ["senior", "local"], .int 0⟩, ⟨.ofNames ["local"], .int 1⟩,
      ⟨.ofNames ["local", "staff"], .int 2⟩]

/-- A trait that no row requires changes nothing, a further trait that one requires brings an
earlier row, an appended row that always fits comes too late, and without any of these
traits the satisfied ones are reported. -/
theorem selection_laws_fares :
    fareTable.Selects (.ofNames ["staff", "local"]) 1 ⟨.ofNames ["local"], .int 1⟩ ∧
    (∃ place row, fareTable.Selects (.ofNames ["local", "staff"]) place row ∧
      fareTable.Selects (.ofNames ["local", "staff", "guest"]) place row) ∧
    (∃ place ≤ 1, ∃ row, fareTable.Selects (.ofNames ["local", "staff", "senior"]) place row) ∧
    DecisionTable.Selects ⟨fareTable.rows ++ [⟨∅, .null⟩]⟩ (.ofNames ["staff", "local"]) 1
      ⟨.ofNames ["local"], .int 1⟩ ∧
    ∃ reported, fareTable.pick (.ofNames ["staff", "senior"]) =
        .error (.noDecisionMatch reported) ∧ reported = ["senior", "staff"] := by
  obtain ⟨hreferenced, hlarger, happended, -⟩ := DecisionTable.selection_laws fareTable
  have hlocal : fareTable.Selects (.ofNames ["staff", "local"]) 1 ⟨.ofNames ["local"], .int 1⟩ :=
    DecisionTable.selects_of_picked rfl
  refine ⟨hlocal, ?_, ?_, happended _ _ _ hlocal _, _, rfl, by decide⟩
  · refine (hreferenced (.ofNames ["local", "staff"]) (.ofNames ["local", "staff", "guest"])
      ?_).resolve_right ?_
    · intro name hname
      have hguest : name ≠ "guest" := by
        intro heq
        subst heq
        exact absurd hname (by decide)
      simp [hguest]
    · rintro ⟨fault, -, hfault, -⟩
      cases hfault
  · refine hlarger (.ofNames ["staff", "local"]) _ ?_ 1 _ hlocal
    intro name
    simp only [NameSet.mem_ofNames, List.mem_cons, List.not_mem_nil, or_false]
    tauto

end Example

end Rulebook
