/-
# Exact arithmetic

The arithmetic builtins on integers give the exact result or report an overflow. Sums and
products are built up from left to right, so it is the partial results that decide: one that
leaves the range is an overflow, also if the whole would be back in it. Division is toward
zero, with two ways to fail. And whatever the arguments are, an integer that is answered is
the exact result for integer arguments; as soon as a double takes part the answer is a
double, of which nothing is claimed here.
-/

import Mathlib.Algebra.Ring.Int.Defs
import Rulebook.Builtin
import Rulebook.Proofs.Traversal

namespace Rulebook

/-! ## The range -/

/-- An integer of sixty-four bits. -/
def FitsInt64 (n : Int) : Prop := -2 ^ 63 ≤ n ∧ n < 2 ^ 63

theorem fitsInt64_toInt (i : Int64) : FitsInt64 i.toInt := ⟨i.le_toInt, i.toInt_lt⟩

theorem checkedInt64_eq_none_iff_not_fits {n : Int} : checkedInt64 n = none ↔ ¬ FitsInt64 n := by
  rw [checkedInt64_eq_none_iff, FitsInt64, Int64.toInt_minValue, Int64.toInt_maxValue]
  omega

theorem exists_checkedInt64_iff {n : Int} : (∃ i, checkedInt64 n = some i) ↔ FitsInt64 n := by
  rw [← Option.isSome_iff_exists, Option.isSome_iff_ne_none, Ne,
    checkedInt64_eq_none_iff_not_fits, Classical.not_not]

/-- What a division toward zero leaves is smaller than the divisor, and has the sign of the
dividend if it is anything. -/
theorem exists_rest_of_tdiv (a : Int) {b : Int} (hb : b ≠ 0) :
    ∃ r : Int, a = a.tdiv b * b + r ∧ r.natAbs < b.natAbs ∧ (r = 0 ∨ r.sign = a.sign) := by
  refine ⟨a.tmod b, (Int.tdiv_mul_add_tmod a b).symm, ?_, ?_⟩
  · rw [Int.natAbs_tmod]
    exact Nat.mod_lt _ (Int.natAbs_pos.2 hb)
  · by_cases hdvd : b ∣ a
    · exact .inl (Int.tmod_eq_zero_of_dvd hdvd)
    · right
      rw [Int.sign_tmod, if_neg hdvd]

/-- A quotient is in the range unless the smallest integer is negated. -/
theorem fitsInt64_tdiv_iff {a b : Int} (ha : FitsInt64 a) (hb : b ≠ 0) :
    FitsInt64 (a.tdiv b) ↔ ¬ (a = -2 ^ 63 ∧ b = -1) := by
  constructor
  · intro hfits hmin
    rw [hmin.1, hmin.2] at hfits
    exact absurd hfits.2 (by decide)
  · intro hmin
    -- in magnitude a quotient does not grow, so there is one value it may not have
    have habs : (a.tdiv b).natAbs ≤ a.natAbs := Int.natAbs_tdiv_le_natAbs a b
    have hne : a.tdiv b ≠ 2 ^ 63 := by
      intro hq
      obtain ⟨r, hr, hlt, -⟩ := exists_rest_of_tdiv a hb
      rw [hq] at hr
      unfold FitsInt64 at ha
      omega
    unfold FitsInt64 at ha ⊢
    omega

namespace Builtin

/-! ## Answers -/

/-- What the builtin that is registered under a name answers. -/
def Answers (name : String) (args : List Value) (answer : Except Failure Value) : Prop :=
  ∃ f, Registry.builtins.find? name = some f ∧ f.body args = answer

/-- The answer is an integer with this value. -/
def AnswersInt (name : String) (args : List Value) (n : Int) : Prop :=
  ∃ i : Int64, i.toInt = n ∧ Answers name args (.ok (.int i))

/-- The answer is an integer with this value if a condition holds, and else an overflow. -/
def AnswersIntIf (name : String) (args : List Value) (n : Int) (fits : Prop) : Prop :=
  (fits → AnswersInt name args n) ∧
    (¬ fits → Answers name args (.error (.reported "integer overflow")))

/-- A builtin has one answer to given arguments. -/
theorem Answers.unique {name : String} {args : List Value} {answer answer' : Except Failure Value}
    (h : Answers name args answer) (h' : Answers name args answer') : answer = answer' := by
  obtain ⟨f, hf, rfl⟩ := h
  obtain ⟨f', hf', rfl⟩ := h'
  cases hf.symm.trans hf'
  rfl

section Answers

variable {name : String} {arity : Arity} {body : Body} {args : List Value}
  (h : Registry.builtins.find? name = some (function arity body))

include h

theorem answers_ok_iff {v : Value} : Answers name args (.ok v) ↔ body args = .ok v := by
  simp only [Answers, h, Option.some.injEq, exists_eq_left', function]
  cases body args with
  | error problem => exact iff_of_false nofun nofun
  | ok w =>
      constructor
      · intro heq
        cases heq
        rfl
      · intro heq
        cases heq
        rfl

theorem answers_error_iff {message : String} :
    Answers name args (.error (.reported message)) ↔
      ∃ problem, body args = .error problem ∧ problem.message = message := by
  simp only [Answers, h, Option.some.injEq, exists_eq_left', function]
  cases body args with
  | ok w => exact iff_of_false nofun nofun
  | error problem =>
      constructor
      · intro heq
        cases heq
        exact ⟨problem, rfl, rfl⟩
      · intro heq
        obtain ⟨problem', hproblem, rfl⟩ := heq
        cases hproblem
        rfl

end Answers

theorem find?_add : Registry.builtins.find? "add" = some (function .any add) := rfl

theorem find?_multiply : Registry.builtins.find? "multiply" = some (function .any multiply) := rfl

theorem find?_subtract :
    Registry.builtins.find? "subtract" = some (function (.exactly 2) subtract) := rfl

theorem find?_divide :
    Registry.builtins.find? "divide" = some (function (.exactly 2) divide) := rfl

/-! ## Two numbers -/

section Combine

variable {onInts : Int → Int → Int} (onFloats : Binary64 → Binary64 → Binary64)

theorem combine_of_fits {a b : Int64} (h : FitsInt64 (onInts a.toInt b.toInt)) :
    ∃ c : Int64, c.toInt = onInts a.toInt b.toInt ∧
      Number.combine onInts onFloats (.int a) (.int b) = .ok (.int c) := by
  obtain ⟨c, hc⟩ := exists_checkedInt64_iff.2 h
  exact ⟨c, toInt_of_checkedInt64 hc, by rw [Number.combine, hc]⟩

theorem combine_of_not_fits {a b : Int64} (h : ¬ FitsInt64 (onInts a.toInt b.toInt)) :
    Number.combine onInts onFloats (.int a) (.int b) = .error .integerOverflow := by
  rw [Number.combine, checkedInt64_eq_none_iff_not_fits.2 h]

variable {onFloats}

/-- An integer comes of two integers, and is their exact result. -/
theorem exact_of_combine {m n : Number} {c : Int64}
    (h : m.combine onInts onFloats n = .ok (.int c)) :
    ∃ a b : Int64, m = .int a ∧ n = .int b ∧ c.toInt = onInts a.toInt b.toInt := by
  cases m with
  | float x => cases n <;> cases h
  | int a =>
      cases n with
      | float y => cases h
      | int b =>
          rw [Number.combine] at h
          cases hchecked : checkedInt64 (onInts a.toInt b.toInt) with
          | none =>
              rw [hchecked] at h
              cases h
          | some c =>
              rw [hchecked] at h
              cases h
              exact ⟨a, b, rfl, rfl, toInt_of_checkedInt64 hchecked⟩

theorem ofValue_eq_int_iff {v : Value} {i : Int64} :
    Number.ofValue v = .ok (.int i) ↔ v = .int i := by
  cases v <;> simp [Number.ofValue]

theorem eq_int_of_toValue {n : Number} {i : Int64} (h : n.toValue = .int i) : n = .int i := by
  cases n <;> cases h
  rfl

/-- A builtin that combines two integers answers exactly, or reports an overflow. -/
theorem answersIntIf_of_combine {name : String} {arity : Arity} {body : Body}
    (h : Registry.builtins.find? name = some (function arity body)) {args : List Value}
    {a b : Int64}
    (hbody : body args =
      (Number.combine onInts onFloats (.int a) (.int b)).map Number.toValue) :
    AnswersIntIf name args (onInts a.toInt b.toInt) (FitsInt64 (onInts a.toInt b.toInt)) := by
  constructor
  · intro hfits
    obtain ⟨c, hc, hcombine⟩ := combine_of_fits onFloats hfits
    refine ⟨c, hc, (answers_ok_iff h).2 ?_⟩
    rw [hbody, hcombine]
    rfl
  · intro hfits
    refine (answers_error_iff h).2 ⟨.integerOverflow, ?_, rfl⟩
    rw [hbody, combine_of_not_fits onFloats hfits]
    rfl

end Combine

/-! ## Sums and products -/

/-- Integers as arguments. -/
def ints (xs : List Int64) : List Value := xs.map Value.int

theorem spread_ints (xs : List Int64) : spread (ints xs) = ints xs := by
  cases xs with
  | nil => rfl
  | cons x rest => cases rest <;> rfl

section Accumulate

variable (onInts : Int → Int → Int) (onFloats : Binary64 → Binary64 → Binary64)

/-- One more argument is taken into a total. -/
def takeIn (total : Number) (arg : Value) : Except Problem Number := do
  total.combine onInts onFloats (← Number.ofValue arg)

theorem accumulate_eq (start : Int64) (args : List Value) :
    accumulate start onInts onFloats args =
      ((spread args).foldlM (takeIn onInts onFloats) (.int start)).map Number.toValue := by
  show ((spread args).foldlM (takeIn onInts onFloats) (.int start)).bind _ = _
  cases (spread args).foldlM (takeIn onInts onFloats) (.int start) <;> rfl

theorem takeIn_int (total x : Int64) :
    takeIn onInts onFloats (.int total) (.int x) =
      Number.combine onInts onFloats (.int total) (.int x) := rfl

/-- Every partial result is in the range. -/
def PartialsFit (start : Int) (xs : List Int64) : Prop :=
  ∀ part, part <+: xs → FitsInt64 ((part.map Int64.toInt).foldl onInts start)

theorem partialsFit_nil (start : Int64) : PartialsFit onInts start.toInt [] := by
  intro part hpart
  rw [List.prefix_nil.1 hpart]
  exact fitsInt64_toInt start

theorem partialsFit_cons_iff {start x : Int64} {rest : List Int64} :
    PartialsFit onInts start.toInt (x :: rest) ↔
      PartialsFit onInts (onInts start.toInt x.toInt) rest := by
  constructor
  · intro h part hpart
    exact h (x :: part) (List.prefix_cons_iff.2 (.inr ⟨part, rfl, hpart⟩))
  · intro h part hpart
    rcases List.prefix_cons_iff.1 hpart with rfl | ⟨part, rfl, hrest⟩
    · exact fitsInt64_toInt start
    · exact h part hrest

variable {onInts}

/-- Integers are combined exactly as long as every partial result is in the range. -/
theorem foldlM_ints_of_fit {start : Int64} {xs : List Int64}
    (h : PartialsFit onInts start.toInt xs) :
    ∃ total : Int64, total.toInt = (xs.map Int64.toInt).foldl onInts start.toInt ∧
      (ints xs).foldlM (takeIn onInts onFloats) (.int start) = .ok (.int total) := by
  induction xs generalizing start with
  | nil => exact ⟨start, rfl, rfl⟩
  | cons x rest ih =>
      rw [partialsFit_cons_iff] at h
      obtain ⟨next, hnext, hcombine⟩ :=
        combine_of_fits onFloats (h [] List.nil_prefix)
      rw [← hnext] at h
      obtain ⟨total, htotal, hfold⟩ := ih h
      refine ⟨total, ?_, ?_⟩
      · rw [htotal, hnext]
        rfl
      · rw [ints, List.map_cons, List.foldlM_cons, takeIn_int, hcombine]
        exact hfold

/-- As soon as one is not, that is an overflow. -/
theorem foldlM_ints_of_not_fit {start : Int64} {xs : List Int64}
    (h : ¬ PartialsFit onInts start.toInt xs) :
    (ints xs).foldlM (takeIn onInts onFloats) (.int start) = .error .integerOverflow := by
  induction xs generalizing start with
  | nil => exact absurd (partialsFit_nil onInts start) h
  | cons x rest ih =>
      rw [partialsFit_cons_iff] at h
      rw [ints, List.map_cons, List.foldlM_cons, takeIn_int]
      by_cases hfits : FitsInt64 (onInts start.toInt x.toInt)
      · obtain ⟨next, hnext, hcombine⟩ := combine_of_fits onFloats hfits
        rw [← hnext] at h
        rw [hcombine]
        exact ih h
      · rw [combine_of_not_fits onFloats hfits]
        rfl

variable {onFloats}

/-- A double stays a double, whatever else is taken in. -/
theorem ne_int_of_foldlM_float {x : Binary64} {args : List Value} {total : Int64} :
    args.foldlM (takeIn onInts onFloats) (.float x) ≠ .ok (.int total) := by
  induction args generalizing x with
  | nil => exact nofun
  | cons arg rest ih =>
      rw [List.foldlM_cons]
      cases arg with
      | int i => exact ih
      | float y => exact ih
      | _ => exact nofun

/-- So an integer comes of integers, and is their exact result. -/
theorem exact_of_foldlM {start total : Int64} {args : List Value}
    (h : args.foldlM (takeIn onInts onFloats) (.int start) = .ok (.int total)) :
    ∃ xs, args = ints xs ∧
      total.toInt = (xs.map Int64.toInt).foldl onInts start.toInt := by
  induction args generalizing start with
  | nil =>
      cases h
      exact ⟨[], rfl, rfl⟩
  | cons arg rest ih =>
      rw [List.foldlM_cons, bind_eq_ok_iff] at h
      obtain ⟨next, htaken, hrest⟩ := h
      cases next with
      | float x => exact absurd hrest ne_int_of_foldlM_float
      | int next =>
          obtain ⟨n, hn, hcombine⟩ := bind_eq_ok_iff.1 htaken
          obtain ⟨a, x, hstart, rfl, hnext⟩ := exact_of_combine hcombine
          obtain ⟨xs, rfl, htotal⟩ := ih hrest
          cases hstart
          refine ⟨x :: xs, ?_, ?_⟩
          · rw [ofValue_eq_int_iff.1 hn]
            rfl
          · rw [htotal, hnext]
            rfl

variable {name : String} {arity : Arity} {start : Int64}
  (h : Registry.builtins.find? name = some (function arity (accumulate start onInts onFloats)))

include h

/-- A builtin that accumulates integers answers exactly, or reports an overflow. -/
theorem answersIntIf_of_accumulate {xs : List Int64} {args : List Value}
    (hargs : spread args = ints xs) :
    AnswersIntIf name args ((xs.map Int64.toInt).foldl onInts start.toInt)
      (PartialsFit onInts start.toInt xs) := by
  constructor
  · intro hfit
    obtain ⟨total, htotal, hfold⟩ := foldlM_ints_of_fit onFloats hfit
    refine ⟨total, htotal, (answers_ok_iff h).2 ?_⟩
    rw [accumulate_eq, hargs, hfold]
    rfl
  · intro hfit
    refine (answers_error_iff h).2 ⟨.integerOverflow, ?_, rfl⟩
    rw [accumulate_eq, hargs, foldlM_ints_of_not_fit onFloats hfit]
    rfl

/-- And an integer is its answer to integers only, whose exact result it is. -/
theorem exact_of_accumulate {args : List Value} {i : Int64}
    (hi : Answers name args (.ok (.int i))) :
    ∃ xs, spread args = ints xs ∧
      i.toInt = (xs.map Int64.toInt).foldl onInts start.toInt := by
  rw [answers_ok_iff h, accumulate_eq] at hi
  cases hfold : (spread args).foldlM (takeIn onInts onFloats) (.int start) with
  | error problem =>
      rw [hfold] at hi
      cases hi
  | ok total =>
      rw [hfold] at hi
      rw [eq_int_of_toValue (Except.ok.inj hi)] at hfold
      exact exact_of_foldlM hfold

end Accumulate

/-! ## Differences and quotients -/

/-- A builtin that combines two numbers, if it gives a value at all, gives an integer for two
integers only, and then their exact result. -/
theorem exact_of_operands {onInts : Int → Int → Int}
    (onFloats : Binary64 → Binary64 → Binary64) {f : Number → Number → Except Problem Value}
    (hf : ∀ a b v, f a b = .ok v → (a.combine onInts onFloats b).map Number.toValue = .ok v)
    {args : List Value} {i : Int64}
    (h : (do
      let a ← Number.ofValue (← argument args 0)
      let b ← Number.ofValue (← argument args 1)
      f a b) = .ok (.int i)) :
    ∃ a b rest, args = .int a :: .int b :: rest ∧ i.toInt = onInts a.toInt b.toInt := by
  obtain ⟨x, hx, hleft⟩ := bind_eq_ok_iff.1 h
  obtain ⟨m, hm, hright⟩ := bind_eq_ok_iff.1 hleft
  obtain ⟨y, hy, hboth⟩ := bind_eq_ok_iff.1 hright
  obtain ⟨n, hn, hresult⟩ := bind_eq_ok_iff.1 hboth
  have hmap := hf m n _ hresult
  cases hcombine : m.combine onInts onFloats n with
  | error problem =>
      rw [hcombine] at hmap
      cases hmap
  | ok total =>
      rw [hcombine] at hmap
      rw [eq_int_of_toValue (Except.ok.inj hmap)] at hcombine
      obtain ⟨a, b, rfl, rfl, hi⟩ := exact_of_combine hcombine
      cases ofValue_eq_int_iff.1 hm
      cases ofValue_eq_int_iff.1 hn
      clear h hleft hright hboth
      match args, hx, hy with
      | _ :: _ :: rest, hx, hy =>
          cases hx
          cases hy
          exact ⟨a, b, rest, rfl, hi⟩

theorem subtract_ints (a b : Int64) : subtract [.int a, .int b] =
    (Number.combine (· - ·) (· - ·) (.int a) (.int b)).map Number.toValue := by
  show (Number.combine (· - ·) (· - ·) (.int a) (.int b)).bind _ = _
  cases Number.combine (· - ·) (· - ·) (.int a) (.int b) <;> rfl

theorem exact_of_subtract {args : List Value} {i : Int64}
    (hi : Answers "subtract" args (.ok (.int i))) :
    ∃ a b rest, args = .int a :: .int b :: rest ∧ i.toInt = a.toInt - b.toInt := by
  rw [answers_ok_iff find?_subtract] at hi
  refine exact_of_operands (· - ·) ?_ hi
  intro a b v h
  obtain ⟨total, htotal, hv⟩ := bind_eq_ok_iff.1 h
  rw [htotal]
  exact hv

/-- What becomes of two numbers in a division. -/
def quotient (a : Number) : Number → Except Problem Value
  | .int 0 => .error .divisionByZero
  | b => do return (← a.combine Int.tdiv (· / ·) b).toValue

theorem quotient_of_ne_zero (a : Number) {b : Number} (hb : b ≠ .int 0) :
    quotient a b = (a.combine Int.tdiv (· / ·) b).map Number.toValue := by
  unfold quotient
  split
  · exact absurd rfl hb
  · cases a.combine Int.tdiv (· / ·) b <;> rfl

theorem divide_ints (a b : Int64) : divide [.int a, .int b] = quotient (.int a) (.int b) := rfl

theorem exact_of_divide {args : List Value} {i : Int64}
    (hi : Answers "divide" args (.ok (.int i))) :
    ∃ a b rest, args = .int a :: .int b :: rest ∧ i.toInt = a.toInt.tdiv b.toInt := by
  rw [answers_ok_iff find?_divide] at hi
  refine exact_of_operands (f := quotient) (· / ·) ?_ hi
  intro a b v h
  by_cases hb : b = .int 0
  · subst hb
    cases h
  · rw [quotient_of_ne_zero a hb] at h
    exact h

theorem answersIntIf_subtract (a b : Int64) :
    AnswersIntIf "subtract" [.int a, .int b] (a.toInt - b.toInt) (FitsInt64 (a.toInt - b.toInt)) :=
  answersIntIf_of_combine find?_subtract (subtract_ints a b)

theorem answers_divide_zero (a : Int64) :
    Answers "divide" [.int a, .int 0] (.error (.reported "division by zero")) :=
  (answers_error_iff find?_divide).2 ⟨.divisionByZero, rfl, rfl⟩

theorem answersIntIf_divide (a : Int64) {b : Int64} (hb : b ≠ 0) :
    AnswersIntIf "divide" [.int a, .int b] (a.toInt.tdiv b.toInt)
      (¬ (a.toInt = -2 ^ 63 ∧ b.toInt = -1)) := by
  have hzero : b.toInt ≠ 0 := fun h => hb (Int64.toInt_inj.1 h)
  rw [← fitsInt64_tdiv_iff (fitsInt64_toInt a) hzero]
  apply answersIntIf_of_combine find?_divide
  rw [divide_ints]
  apply quotient_of_ne_zero
  intro h
  cases h
  exact hb rfl

theorem divisionByZero_ne_integerOverflow :
    (.error (.reported "division by zero") : Except Failure Value) ≠
      .error (.reported "integer overflow") := by
  simp

theorem answers_divisionByZero_iff (a b : Int64) :
    Answers "divide" [.int a, .int b] (.error (.reported "division by zero")) ↔ b = 0 := by
  by_cases hb : b = 0
  · subst hb
    exact iff_of_true (answers_divide_zero a) rfl
  · refine iff_of_false (fun h => ?_) hb
    by_cases hmin : a.toInt = -2 ^ 63 ∧ b.toInt = -1
    · exact divisionByZero_ne_integerOverflow
        (h.unique ((answersIntIf_divide a hb).2 (not_not_intro hmin)))
    · have ⟨q, _, hq⟩ := (answersIntIf_divide a hb).1 hmin
      cases h.unique hq

theorem answers_overflow_divide_iff (a b : Int64) :
    Answers "divide" [.int a, .int b] (.error (.reported "integer overflow")) ↔
      a.toInt = -2 ^ 63 ∧ b.toInt = -1 := by
  by_cases hb : b = 0
  · subst hb
    refine iff_of_false (fun h => ?_) nofun
    exact divisionByZero_ne_integerOverflow ((answers_divide_zero a).unique h)
  · by_cases hmin : a.toInt = -2 ^ 63 ∧ b.toInt = -1
    · exact iff_of_true ((answersIntIf_divide a hb).2 (not_not_intro hmin)) hmin
    · refine iff_of_false (fun h => ?_) hmin
      have ⟨q, _, hq⟩ := (answersIntIf_divide a hb).1 hmin
      cases h.unique hq

/-! ## All four -/

theorem answersIntIf_add {xs : List Int64} {args : List Value} (hargs : spread args = ints xs) :
    AnswersIntIf "add" args (xs.map Int64.toInt).sum
      (∀ part, part <+: xs → FitsInt64 (part.map Int64.toInt).sum) := by
  have h := answersIntIf_of_accumulate find?_add hargs
  simp only [PartialsFit, Int64.toInt_zero, ← List.sum_eq_foldl] at h
  exact h

theorem answersIntIf_multiply {xs : List Int64} {args : List Value}
    (hargs : spread args = ints xs) :
    AnswersIntIf "multiply" args (xs.map Int64.toInt).prod
      (∀ part, part <+: xs → FitsInt64 (part.map Int64.toInt).prod) := by
  have h := answersIntIf_of_accumulate find?_multiply hargs
  simp only [PartialsFit, Int64.toInt_one, ← List.prod_eq_foldl] at h
  exact h

/-- Integer arithmetic is exact or fails. Sums and products of integers, given one by one or
as a list, are exact if all partial results from the left are in the range, and an overflow
otherwise; a difference is exact if it is in the range itself; a quotient is rounded toward
zero unless the divisor is zero, or the smallest integer is negated. And an integer that any
of the four answers, to whatever arguments, is the exact result for integers. -/
theorem exact_arithmetic :
    (∀ xs args, args = ints xs ∨ args = [.list (ints xs)] →
      AnswersIntIf "add" args (xs.map Int64.toInt).sum
        (∀ part, part <+: xs → FitsInt64 (part.map Int64.toInt).sum) ∧
      AnswersIntIf "multiply" args (xs.map Int64.toInt).prod
        (∀ part, part <+: xs → FitsInt64 (part.map Int64.toInt).prod)) ∧
    (∀ a b : Int64,
      AnswersIntIf "subtract" [.int a, .int b] (a.toInt - b.toInt)
        (FitsInt64 (a.toInt - b.toInt)) ∧
      (Answers "divide" [.int a, .int b] (.error (.reported "division by zero")) ↔ b = 0) ∧
      (Answers "divide" [.int a, .int b] (.error (.reported "integer overflow")) ↔
        a.toInt = -2 ^ 63 ∧ b.toInt = -1) ∧
      (b ≠ 0 → ¬ (a.toInt = -2 ^ 63 ∧ b.toInt = -1) →
        ∃ q r : Int, AnswersInt "divide" [.int a, .int b] q ∧ a.toInt = q * b.toInt + r ∧
          r.natAbs < b.toInt.natAbs ∧ (r = 0 ∨ r.sign = a.toInt.sign))) ∧
    ∀ args i,
      (Answers "add" args (.ok (.int i)) →
        ∃ xs, spread args = ints xs ∧ i.toInt = (xs.map Int64.toInt).sum) ∧
      (Answers "multiply" args (.ok (.int i)) →
        ∃ xs, spread args = ints xs ∧ i.toInt = (xs.map Int64.toInt).prod) ∧
      (Answers "subtract" args (.ok (.int i)) →
        ∃ a b rest, args = .int a :: .int b :: rest ∧ i.toInt = a.toInt - b.toInt) ∧
      (Answers "divide" args (.ok (.int i)) →
        ∃ a b rest, args = .int a :: .int b :: rest ∧ i.toInt = a.toInt.tdiv b.toInt) := by
  refine ⟨?_, ?_, ?_⟩
  · intro xs args hargs
    have hspread : spread args = ints xs := by
      cases hargs with
      | inl h => rw [h, spread_ints]
      | inr h => rw [h]; rfl
    exact ⟨answersIntIf_add hspread, answersIntIf_multiply hspread⟩
  · intro a b
    refine ⟨answersIntIf_subtract a b, answers_divisionByZero_iff a b,
      answers_overflow_divide_iff a b, ?_⟩
    intro hb hmin
    have hzero : b.toInt ≠ 0 := fun h => hb (Int64.toInt_inj.1 h)
    obtain ⟨r, hr⟩ := exists_rest_of_tdiv a.toInt hzero
    exact ⟨_, r, (answersIntIf_divide a hb).1 hmin, hr⟩
  · intro args i
    refine ⟨?_, ?_, exact_of_subtract, exact_of_divide⟩
    · intro hi
      simp only [List.sum_eq_foldl]
      exact exact_of_accumulate find?_add hi
    · intro hi
      simp only [List.prod_eq_foldl]
      exact exact_of_accumulate find?_multiply hi

/-- The whole sum would be in the range; the partial sum of the first two is not. -/
example : add (ints [Int64.maxValue, 1, -1]) = .error .integerOverflow ∧
    add (ints [Int64.maxValue, -1, 1]) = .ok (.int Int64.maxValue) := ⟨rfl, rfl⟩

end Builtin

end Rulebook
