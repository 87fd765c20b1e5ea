/-
# Bounded integers

Integers of the rulebook have sixty-four bits. An exact result is kept if it fits
and refused if it does not; nothing wraps around.
-/

namespace Rulebook

/-- The sixty-four-bit integer with this value, if there is one. -/
def checkedInt64 (n : Int) : Option Int64 :=
  if Int64.minValue.toInt ≤ n ∧ n ≤ Int64.maxValue.toInt then some (Int64.ofInt n) else none

theorem toInt_of_checkedInt64 {n : Int} {i : Int64} (h : checkedInt64 n = some i) :
    i.toInt = n := by
  unfold checkedInt64 at h
  split at h
  · rename_i hn
    cases h
    simp only [Int64.toInt_minValue, Int64.toInt_maxValue] at hn
    exact Int64.toInt_ofInt_of_le hn.1 (by omega)
  · cases h

theorem checkedInt64_eq_none_iff {n : Int} :
    checkedInt64 n = none ↔ n < Int64.minValue.toInt ∨ Int64.maxValue.toInt < n := by
  unfold checkedInt64
  split <;> grind

theorem checkedInt64_toInt (i : Int64) : checkedInt64 i.toInt = some i := by
  unfold checkedInt64
  rw [if_pos ⟨Int64.minValue_le_toInt i, Int64.toInt_le i⟩, Int64.ofInt_toInt]

end Rulebook
