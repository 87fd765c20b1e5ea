/-
# Integers as doubles

Converting an integer to a double rounds it, so two integers may become one double; but it
never turns them around, and it never gives a NaN. The significand of a number lies between
one and two units of the exponent, which is why a larger exponent always means a larger
magnitude.
-/

import Rulebook.Binary64

namespace Rulebook.Binary64

/-! ## Rounded quotients -/

theorem le_roundDiv (n d : Nat) : n / d ≤ roundDiv n d := by
  unfold roundDiv
  grind

theorem roundDiv_le (n d : Nat) : roundDiv n d ≤ n / d + 1 := by
  unfold roundDiv
  grind

theorem roundDiv_mono {m n : Nat} (d : Nat) (h : m ≤ n) : roundDiv m d ≤ roundDiv n d := by
  have hle : m / d ≤ n / d := Nat.div_le_div_right h
  cases Nat.lt_or_eq_of_le hle with
  | inl hlt => exact Nat.le_trans (roundDiv_le m d) (Nat.le_trans hlt (le_roundDiv n d))
  | inr heq =>
      have hrest : m % d ≤ n % d := by
        have hm := Nat.div_add_mod m d
        have hn := Nat.div_add_mod n d
        rw [heq] at hm
        omega
      unfold roundDiv
      rw [heq]
      grind

/-- A quotient that is a bound for the exact result is one for the rounded result, too. -/
theorem roundDiv_le_of_lt_mul {n d bound : Nat} (h : n < bound * d) : roundDiv n d ≤ bound :=
  Nat.le_trans (roundDiv_le n d) (Nat.div_lt_of_lt_mul (Nat.mul_comm bound d ▸ h))

theorem le_roundDiv_of_mul_le {n d bound : Nat} (hd : 0 < d) (h : bound * d ≤ n) :
    bound ≤ roundDiv n d :=
  Nat.le_trans ((Nat.le_div_iff_mul_le hd).2 h) (le_roundDiv n d)

/-! ## Magnitudes -/

/-- The fifty-three leading bits of a natural number, rounded. -/
def significand (n : Nat) : Nat :=
  if n.log2 ≤ 52 then n <<< (52 - n.log2) else roundDiv n (1 <<< (n.log2 - 52))

theorem magnitudeOfNat_eq {n : Nat} (hn : n ≠ 0) :
    magnitudeOfNat n = min ((n.log2 + 1022) * exponentUnit + significand n) infinity := by
  rw [magnitudeOfNat, if_neg hn]
  rfl

theorem significand_bounds {n : Nat} (hn : n ≠ 0) :
    exponentUnit ≤ significand n ∧ significand n ≤ 2 * exponentUnit := by
  have hlow : 2 ^ n.log2 ≤ n := Nat.log2_self_le hn
  have hhigh : n < 2 ^ (n.log2 + 1) := Nat.lt_log2_self
  show 2 ^ 52 ≤ significand n ∧ significand n ≤ 2 * 2 ^ 52
  rw [significand]
  split
  · rename_i hsmall
    have hunit : (2 : Nat) ^ 52 = 2 ^ n.log2 * 2 ^ (52 - n.log2) := by
      rw [← Nat.pow_add, Nat.add_sub_cancel' hsmall]
    rw [Nat.shiftLeft_eq, hunit, ← Nat.mul_assoc]
    rw [Nat.pow_succ, Nat.mul_comm] at hhigh
    exact ⟨Nat.mul_le_mul_right _ hlow, Nat.mul_le_mul_right _ (Nat.le_of_lt hhigh)⟩
  · rename_i hlarge
    have hsplit : 2 ^ n.log2 = 2 ^ 52 * 2 ^ (n.log2 - 52) := by
      rw [← Nat.pow_add, Nat.add_sub_cancel' (Nat.le_of_not_le hlarge)]
    rw [Nat.shiftLeft_eq, Nat.one_mul]
    rw [hsplit] at hlow
    rw [Nat.pow_succ, hsplit, Nat.mul_comm, ← Nat.mul_assoc] at hhigh
    exact ⟨le_roundDiv_of_mul_le (Nat.two_pow_pos _) hlow, roundDiv_le_of_lt_mul hhigh⟩

theorem significand_mono {m n : Nat} (hlog : m.log2 = n.log2) (h : m ≤ n) :
    significand m ≤ significand n := by
  rw [significand, significand, hlog]
  split
  · rw [Nat.shiftLeft_eq, Nat.shiftLeft_eq]
    exact Nat.mul_le_mul_right _ h
  · exact roundDiv_mono _ h

theorem magnitudeOfNat_mono {m n : Nat} (h : m ≤ n) : magnitudeOfNat m ≤ magnitudeOfNat n := by
  by_cases hm : m = 0
  · subst hm
    exact Nat.zero_le _
  have hn : n ≠ 0 := by omega
  have hlog : m.log2 ≤ n.log2 := (Nat.le_log2 hn).2 (Nat.le_trans (Nat.log2_self_le hm) h)
  rw [magnitudeOfNat_eq hm, magnitudeOfNat_eq hn]
  have hsum : (m.log2 + 1022) * exponentUnit + significand m ≤
      (n.log2 + 1022) * exponentUnit + significand n := by
    cases Nat.lt_or_eq_of_le hlog with
    | inr heq =>
        rw [heq]
        exact Nat.add_le_add_left (significand_mono heq h) _
    | inl hlt =>
        -- the next exponent makes up for the whole range of significands
        have hstep : (m.log2 + 1022 + 1) * exponentUnit ≤ (n.log2 + 1022) * exponentUnit :=
          Nat.mul_le_mul_right _ (by omega)
        rw [Nat.succ_mul] at hstep
        have hhigh := (significand_bounds hm).2
        have hlow := (significand_bounds hn).1
        omega
  omega

theorem magnitudeOfNat_le_infinity (n : Nat) : magnitudeOfNat n ≤ infinity := by
  by_cases hn : n = 0
  · subst hn
    exact Nat.zero_le _
  · rw [magnitudeOfNat_eq hn]
    exact Nat.min_le_right _ _

/-! ## Places on the line -/

section OfMagnitude

variable {magnitude : Nat} (h : magnitude ≤ infinity) (negative : Bool)

include h

theorem lt_signUnit : magnitude < signUnit := Nat.lt_of_le_of_lt h (by decide)

theorem toNat_bits_ofMagnitude : (ofMagnitude negative magnitude).bits.toNat =
    (if negative then signUnit else 0) + magnitude := by
  have hlt := lt_signUnit h
  rw [ofMagnitude, UInt64.toNat_ofNat', Nat.mod_eq_of_lt]
  show _ < 2 * signUnit
  split <;> omega

theorem magnitude_ofMagnitude : (ofMagnitude negative magnitude).magnitude = magnitude := by
  rw [Binary64.magnitude, toNat_bits_ofMagnitude h]
  cases negative with
  | false =>
      rw [if_neg Bool.false_ne_true, Nat.zero_add]
      exact Nat.mod_eq_of_lt (lt_signUnit h)
  | true =>
      rw [if_pos rfl, Nat.add_mod_left]
      exact Nat.mod_eq_of_lt (lt_signUnit h)

theorem isNegative_ofMagnitude : (ofMagnitude negative magnitude).isNegative = negative := by
  have hlt := lt_signUnit h
  rw [isNegative, toNat_bits_ofMagnitude h]
  cases negative with
  | false =>
      rw [if_neg Bool.false_ne_true]
      exact decide_eq_false (by omega)
  | true =>
      rw [if_pos rfl]
      exact decide_eq_true (by omega)

end OfMagnitude

/-- An integer is no NaN. -/
theorem isNaN_ofInt (n : Int) : (ofInt n).isNaN = false := by
  have h := magnitudeOfNat_le_infinity n.natAbs
  rw [isNaN, ofInt, magnitude_ofMagnitude h]
  simpa using h

theorem rank_ofInt (n : Int) : (ofInt n).rank =
    if n < 0 then -(magnitudeOfNat n.natAbs : Int) else magnitudeOfNat n.natAbs := by
  have h := magnitudeOfNat_le_infinity n.natAbs
  rw [rank, ofInt, magnitude_ofMagnitude h, isNegative_ofMagnitude h]
  simp only [decide_eq_true_eq]

/-- Rounding keeps the order of integers, if only weakly. -/
theorem rank_ofInt_mono {m n : Int} (h : m ≤ n) : (ofInt m).rank ≤ (ofInt n).rank := by
  rw [rank_ofInt, rank_ofInt]
  by_cases hm : m < 0
  · by_cases hn : n < 0
    · have hmagnitude : magnitudeOfNat n.natAbs ≤ magnitudeOfNat m.natAbs :=
        magnitudeOfNat_mono (by omega)
      rw [if_pos hm, if_pos hn]
      omega
    · rw [if_pos hm, if_neg hn]
      omega
  · have hn : ¬ n < 0 := by omega
    have hmagnitude : magnitudeOfNat m.natAbs ≤ magnitudeOfNat n.natAbs :=
      magnitudeOfNat_mono (by omega)
    rw [if_neg hm, if_neg hn]
    omega

end Rulebook.Binary64
