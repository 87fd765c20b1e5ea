/-
# Coherence of comparison

Equality and order are decided by different functions: equality by structure, order only
between numbers or texts, and between an integer and a double only after rounding. They agree
all the same. Wherever two values are ordered, they are equal exactly if the order says so,
and the order is transitive over any mix of the two shapes of numbers, although equality
across them is not.
-/

import Rulebook.Value.Compare
import Rulebook.Proofs.Rounding

namespace Rulebook

namespace Binary64

variable {x y : Binary64}

theorem compare?_of_numbers (hx : x.isNaN = false) (hy : y.isNaN = false) :
    x.compare? y = some (compare x.rank y.rank) := by
  rw [compare?, hx, hy]
  rfl

theorem numbers_of_compare? {o : Ordering} (h : x.compare? y = some o) :
    x.isNaN = false ∧ y.isNaN = false ∧ compare x.rank y.rank = o := by
  have hnan : (x.isNaN || y.isNaN) = false := by
    cases hnan : x.isNaN || y.isNaN with
    | false => rfl
    | true =>
        rw [compare?, hnan] at h
        cases h
  rw [Bool.or_eq_false_iff] at hnan
  rw [compare?_of_numbers hnan.1 hnan.2] at h
  exact ⟨hnan.1, hnan.2, Option.some.inj h⟩

theorem compare?_swap (x y : Binary64) : (x.compare? y).map Ordering.swap = y.compare? x := by
  unfold compare?
  rw [Bool.or_comm]
  split
  · rfl
  · exact congrArg some (Int.compare_swap _ _)

theorem same_comm (x y : Binary64) : x.same y = y.same x := by
  rw [same, same, ← compare?_swap x y]
  cases x.compare? y with
  | none => rfl
  | some o => cases o <;> rfl

theorem same_iff {x y : Binary64} :
    x.same y = true ↔ x.isNaN = false ∧ y.isNaN = false ∧ x.rank = y.rank := by
  rw [same, beq_iff_eq]
  constructor
  · intro h
    obtain ⟨hx, hy, hrank⟩ := numbers_of_compare? h
    exact ⟨hx, hy, Std.compare_eq_iff_eq.1 hrank⟩
  · rintro ⟨hx, hy, hrank⟩
    rw [compare?_of_numbers hx hy, Std.compare_eq_iff_eq.2 hrank]

theorem same_trans {x y z : Binary64} (hxy : x.same y = true) (hyz : y.same z = true) :
    x.same z = true := by
  obtain ⟨hx, -, hrank⟩ := same_iff.1 hxy
  obtain ⟨-, hz, hrank'⟩ := same_iff.1 hyz
  exact same_iff.2 ⟨hx, hz, hrank.trans hrank'⟩

end Binary64

namespace Value

/-! ## Equality -/

mutual

theorem same_comm (a b : Value) : a.same b = b.same a := by
  cases a with
  | list as =>
      cases b with
      | list bs => exact sameItems_comm as bs
      | _ => rfl
  | map as =>
      cases b with
      | map bs => exact sameEntries_comm as bs
      | _ => rfl
  | bool p =>
      cases b with
      | bool q => exact Bool.beq_comm
      | _ => rfl
  | int i =>
      cases b with
      | int j => exact Bool.beq_comm
      | _ => rfl
  | float x =>
      cases b with
      | float y => exact x.same_comm y
      | _ => rfl
  | string s =>
      cases b with
      | string t => exact Bool.beq_comm
      | _ => rfl
  | null => cases b <;> rfl

theorem sameItems_comm (as bs : List Value) : sameItems as bs = sameItems bs as := by
  cases as with
  | nil => cases bs <;> rfl
  | cons a as =>
      cases bs with
      | nil => rfl
      | cons b bs => rw [sameItems, sameItems, same_comm a b, sameItems_comm as bs]

theorem sameEntries_comm (as bs : List (String × Value)) :
    sameEntries as bs = sameEntries bs as := by
  cases as with
  | nil => cases bs <;> rfl
  | cons entry as =>
      cases bs with
      | nil => rfl
      | cons entry' bs =>
          rw [sameEntries, sameEntries, same_comm entry.2 entry'.2, sameEntries_comm as bs,
            Bool.beq_comm]

end

mutual

theorem same_trans {a b c : Value} (hab : a.same b = true) (hbc : b.same c = true) :
    a.same c = true := by
  cases b with
  | list bs =>
      cases a with
      | list as =>
          cases c with
          | list cs => exact sameItems_trans hab hbc
          | _ => cases hbc
      | _ => cases hab
  | map bs =>
      cases a with
      | map as =>
          cases c with
          | map cs => exact sameEntries_trans hab hbc
          | _ => cases hbc
      | _ => cases hab
  | float y =>
      cases a with
      | float x =>
          cases c with
          | float z => exact Binary64.same_trans hab hbc
          | _ => cases hbc
      | _ => cases hab
  | null =>
      cases a with
      | null => exact hbc
      | _ => cases hab
  | bool q =>
      cases a with
      | bool p => exact (beq_iff_eq.1 hab : p = q) ▸ hbc
      | _ => cases hab
  | int j =>
      cases a with
      | int i => exact (beq_iff_eq.1 hab : i = j) ▸ hbc
      | _ => cases hab
  | string t =>
      cases a with
      | string s => exact (beq_iff_eq.1 hab : s = t) ▸ hbc
      | _ => cases hab
termination_by structural b

theorem sameItems_trans {as bs cs : List Value} (hab : sameItems as bs = true)
    (hbc : sameItems bs cs = true) : sameItems as cs = true := by
  cases bs with
  | nil =>
      cases as with
      | nil => exact hbc
      | cons a as => cases hab
  | cons b bs =>
      cases as with
      | nil => cases hab
      | cons a as =>
          cases cs with
          | nil => cases hbc
          | cons c cs =>
              simp only [sameItems, Bool.and_eq_true] at hab hbc ⊢
              exact ⟨same_trans hab.1 hbc.1, sameItems_trans hab.2 hbc.2⟩
termination_by structural bs

theorem sameEntries_trans {as bs cs : List (String × Value)} (hab : sameEntries as bs = true)
    (hbc : sameEntries bs cs = true) : sameEntries as cs = true := by
  cases bs with
  | nil =>
      cases as with
      | nil => exact hbc
      | cons a as => cases hab
  | cons b bs =>
      cases as with
      | nil => cases hab
      | cons a as =>
          cases cs with
          | nil => cases hbc
          | cons c cs =>
              simp only [sameEntries, Bool.and_eq_true, beq_iff_eq] at hab hbc ⊢
              exact ⟨⟨hab.1.1.trans hbc.1.1, same_trans hab.1.2 hbc.1.2⟩,
                sameEntries_trans hab.2 hbc.2⟩
termination_by structural bs

end

/-! ## Order -/

theorem order?_swap (a b : Value) : (a.order? b).map Ordering.swap = b.order? a := by
  cases a with
  | int i =>
      cases b with
      | int j => exact congrArg some (Int.compare_swap _ _)
      | float y => exact Binary64.compare?_swap _ y
      | _ => rfl
  | float x =>
      cases b with
      | int j => exact Binary64.compare?_swap x _
      | float y => exact Binary64.compare?_swap x y
      | _ => rfl
  | string s =>
      cases b with
      | string t => exact congrArg some Std.OrientedOrd.eq_swap.symm
      | _ => rfl
  | _ => cases b <;> rfl

/-- What is read off the order from one side may be read off it from the other. -/
theorem map_order?_swap {f g : Ordering → Bool} (h : ∀ o : Ordering, f o = g o.swap)
    (a b : Value) : (a.order? b).map f = (b.order? a).map g := by
  rw [← order?_swap a b, Option.map_map]
  congr 1
  funext o
  exact h o

theorem looselyEqual_comm (a b : Value) : a.looselyEqual b = b.looselyEqual a := by
  have hmixed : (a.order? b == some .eq) = (b.order? a == some .eq) := by
    rw [← order?_swap a b]
    cases a.order? b with
    | none => rfl
    | some o => cases o <;> rfl
  cases a with
  | int i =>
      cases b with
      | float y => exact hmixed
      | _ => exact same_comm _ _
  | float x =>
      cases b with
      | int j => exact hmixed
      | _ => exact same_comm _ _
  | _ => cases b <;> exact same_comm _ _

/-- Where two values have an order, it decides their equality, too. -/
theorem looselyEqual_of_order? {a b : Value} {o : Ordering} (h : a.order? b = some o) :
    a.looselyEqual b = (o == .eq) := by
  cases a with
  | int i =>
      cases b with
      | int j =>
          cases h
          show (i == j) = (compare i.toInt j.toInt == .eq)
          rw [Bool.eq_iff_iff, beq_iff_eq, beq_iff_eq, Std.compare_eq_iff_eq, Int64.toInt_inj]
      | float y =>
          show ((int i).order? (float y) == some .eq) = _
          rw [h]
          rfl
      | _ => cases h
  | float x =>
      cases b with
      | int j =>
          show ((float x).order? (int j) == some .eq) = _
          rw [h]
          rfl
      | float y =>
          show (x.compare? y == some .eq) = _
          rw [show x.compare? y = some o from h]
          rfl
      | _ => cases h
  | string s =>
      cases b with
      | string t =>
          cases h
          show (s == t) = (compare s t == .eq)
          rw [Bool.eq_iff_iff, beq_iff_eq, beq_iff_eq, Std.compare_eq_iff_eq]
      | _ => cases h
  | _ => cases b <;> cases h

/-- Two numbers, neither of them a NaN, or two texts. -/
def Comparable (a b : Value) : Prop :=
  (∃ x y, a.asFloat = some x ∧ b.asFloat = some y ∧ x.isNaN = false ∧ y.isNaN = false) ∨
    ∃ s t, a.asString = some s ∧ b.asString = some t

theorem ints_or_mixed (a b : Value) :
    (∃ i j, a = .int i ∧ b = .int j) ∨ (a.asInt = none ∨ b.asInt = none) := by
  cases a with
  | int i =>
      cases b with
      | int j => exact .inl ⟨i, j, rfl, rfl⟩
      | _ => exact .inr (.inr rfl)
  | _ => exact .inr (.inl rfl)

theorem comparable_of_floats {a b : Value} {x y : Binary64} {o : Ordering}
    (ha : a.asFloat = some x) (hb : b.asFloat = some y) (h : x.compare? y = some o) :
    a.Comparable b :=
  have hnumbers := Binary64.numbers_of_compare? h
  .inl ⟨x, y, ha, hb, hnumbers.1, hnumbers.2.1⟩

theorem comparable_of_order? {a b : Value} {o : Ordering} (h : a.order? b = some o) :
    a.Comparable b := by
  cases a with
  | int i =>
      cases b with
      | int j =>
          exact .inl ⟨_, _, rfl, rfl, Binary64.isNaN_ofInt _, Binary64.isNaN_ofInt _⟩
      | float y => exact comparable_of_floats rfl rfl h
      | _ => cases h
  | float x =>
      cases b with
      | int j => exact comparable_of_floats rfl rfl h
      | float y => exact comparable_of_floats rfl rfl h
      | _ => cases h
  | string s =>
      cases b with
      | string t => exact .inr ⟨s, t, rfl, rfl⟩
      | _ => cases h
  | _ => cases b <;> cases h

section Numbers

variable {a b c : Value} {x y z : Binary64} (ha : a.asFloat = some x) (hb : b.asFloat = some y)

include ha hb

/-- An order between numbers of which one is a double is that of the doubles. -/
theorem order?_of_floats (hmixed : a.asInt = none ∨ b.asInt = none) :
    a.order? b = x.compare? y := by
  cases a with
  | int i =>
      cases ha
      cases b with
      | int j => cases hmixed <;> contradiction
      | float y => cases hb; rfl
      | _ => cases hb
  | float x =>
      cases ha
      cases b with
      | int j => cases hb; rfl
      | float y => cases hb; rfl
      | _ => cases hb
  | _ => cases ha

/-- Two integers may be ordered and yet be one number as doubles. Where one of the two is a
double already, that cannot be. -/
theorem rank_lt_of_lt (hmixed : a.asInt = none ∨ b.asInt = none)
    (h : a.order? b = some .lt) : x.rank < y.rank := by
  rw [order?_of_floats ha hb hmixed] at h
  exact Int.compare_eq_lt.1 (Binary64.numbers_of_compare? h).2.2

theorem rank_le_of_lt (h : a.order? b = some .lt) : x.rank ≤ y.rank := by
  cases ints_or_mixed a b with
  | inl hints =>
      obtain ⟨i, j, rfl, rfl⟩ := hints
      cases ha
      cases hb
      have hlt : i.toInt < j.toInt := Int.compare_eq_lt.1 (Option.some.inj h)
      exact Binary64.rank_ofInt_mono (Int.le_of_lt hlt)
  | inr hmixed => exact Int.le_of_lt (rank_lt_of_lt ha hb hmixed h)

/-- Numbers that differ as doubles are ordered as these are. -/
theorem lt_of_rank_lt (hx : x.isNaN = false) (hy : y.isNaN = false) (h : x.rank < y.rank) :
    a.order? b = some .lt := by
  cases ints_or_mixed a b with
  | inl hints =>
      obtain ⟨i, j, rfl, rfl⟩ := hints
      cases ha
      cases hb
      have hlt : i.toInt < j.toInt := by
        apply Int.lt_of_not_ge
        intro hge
        exact absurd (Binary64.rank_ofInt_mono hge) (Int.not_le.2 h)
      exact congrArg some (Int.compare_eq_lt.2 hlt)
  | inr hmixed =>
      rw [order?_of_floats ha hb hmixed, Binary64.compare?_of_numbers hx hy]
      exact congrArg some (Int.compare_eq_lt.2 h)

/-- Two steps between numbers keep their doubles apart, unless both are steps between
integers. -/
theorem lt_trans_of_numbers (hc : c.asFloat = some z) (hx : x.isNaN = false)
    (hz : z.isNaN = false) (hab : a.order? b = some .lt) (hbc : b.order? c = some .lt) :
    a.order? c = some .lt := by
  have hle := rank_le_of_lt ha hb hab
  have hle' := rank_le_of_lt hb hc hbc
  cases ints_or_mixed a b with
  | inr hmixed =>
      have hlt := rank_lt_of_lt ha hb hmixed hab
      exact lt_of_rank_lt ha hc hx hz (Int.lt_of_lt_of_le hlt hle')
  | inl hints =>
      cases ints_or_mixed b c with
      | inr hmixed =>
          have hlt := rank_lt_of_lt hb hc hmixed hbc
          exact lt_of_rank_lt ha hc hx hz (Int.lt_of_le_of_lt hle hlt)
      | inl hints' =>
          obtain ⟨i, j, rfl, rfl⟩ := hints
          obtain ⟨j', k, hj, rfl⟩ := hints'
          cases hj
          have hij : i.toInt < j.toInt := Int.compare_eq_lt.1 (Option.some.inj hab)
          have hjk : j.toInt < k.toInt := Int.compare_eq_lt.1 (Option.some.inj hbc)
          exact congrArg some (Int.compare_eq_lt.2 (Int.lt_trans hij hjk))

end Numbers

theorem order?_isSome_iff (a b : Value) : (a.order? b).isSome ↔ a.Comparable b := by
  constructor
  · intro h
    exact comparable_of_order? (Option.some_get h).symm
  · intro h
    cases h with
    | inl hnumbers =>
        obtain ⟨x, y, ha, hb, hx, hy⟩ := hnumbers
        cases ints_or_mixed a b with
        | inl hints =>
            obtain ⟨i, j, rfl, rfl⟩ := hints
            rfl
        | inr hmixed =>
            rw [order?_of_floats ha hb hmixed, Binary64.compare?_of_numbers hx hy]
            rfl
    | inr htexts =>
        obtain ⟨s, t, ha, hb⟩ := htexts
        rw [asString_eq_some_iff.1 ha, asString_eq_some_iff.1 hb]
        rfl

theorem order?_lt_trans {a b c : Value} (hab : a.order? b = some .lt)
    (hbc : b.order? c = some .lt) : a.order? c = some .lt := by
  cases comparable_of_order? hab with
  | inr htexts =>
      obtain ⟨s, t, ha, hb⟩ := htexts
      rw [asString_eq_some_iff] at ha hb
      subst ha hb
      cases c with
      | string u =>
          have hst : compare s t = .lt := Option.some.inj hab
          have htu : compare t u = .lt := Option.some.inj hbc
          exact congrArg some (Std.TransCmp.lt_trans hst htu)
      | _ => cases hbc
  | inl hnumbers =>
      obtain ⟨x, y, ha, hb, hx, -⟩ := hnumbers
      cases comparable_of_order? hbc with
      | inr htexts =>
          obtain ⟨t, u, hb', -⟩ := htexts
          rw [asString_eq_some_iff] at hb'
          subst hb'
          cases hb
      | inl hnumbers =>
          obtain ⟨y', z, hb', hc, -, hz⟩ := hnumbers
          cases hb.symm.trans hb'
          exact lt_trans_of_numbers ha hb hc hx hz hab hbc

/-! ## The operators -/

theorem compare?_lt_iff {a b : Value} : a.compare? .lt b = some true ↔ a.order? b = some .lt := by
  show (a.order? b).map _ = _ ↔ _
  cases a.order? b with
  | none => simp
  | some o => cases o <;> simp

/-- The six operators are coherent. Equality is always defined and symmetric, and inequality
its negation; the ordering operators may be read from either side; they are defined together,
which is for two numbers other than NaN and for two texts; then exactly one of less, equal and
greater holds, and the weak ones follow; and less is transitive. -/
theorem compare?_coherent (a b : Value) :
    (∃ equal : Bool, a.compare? .eq b = some equal ∧ a.compare? .ne b = some (!equal)) ∧
    a.compare? .eq b = b.compare? .eq a ∧
    a.compare? .lt b = b.compare? .gt a ∧
    a.compare? .le b = b.compare? .ge a ∧
    (a.Comparable b →
      ∃ less equal greater : Bool,
        a.compare? .lt b = some less ∧ a.compare? .eq b = some equal ∧
        a.compare? .gt b = some greater ∧ [less, equal, greater].count true = 1 ∧
        a.compare? .ge b = some (greater || equal) ∧
        a.compare? .le b = some (less || equal)) ∧
    (¬ a.Comparable b → ∀ op, op ≠ .eq → op ≠ .ne → a.compare? op b = none) ∧
    ∀ c, a.compare? .lt b = some true → b.compare? .lt c = some true →
      a.compare? .lt c = some true := by
  refine ⟨⟨_, rfl, rfl⟩, congrArg some (looselyEqual_comm a b), ?_, ?_, ?_, ?_, ?_⟩
  · exact map_order?_swap (fun o => by cases o <;> rfl) a b
  · exact map_order?_swap (fun o => by cases o <;> rfl) a b
  · intro h
    obtain ⟨o, ho⟩ := Option.isSome_iff_exists.1 ((order?_isSome_iff a b).2 h)
    have heq := looselyEqual_of_order? ho
    refine ⟨o == .lt, o == .eq, o == .gt, ?_, congrArg some heq, ?_, ?_, ?_, ?_⟩
    -- what is left are the four ordering operators and the count
    · exact congrArg (Option.map _) ho
    · exact congrArg (Option.map _) ho
    · cases o <;> rfl
    · rw [compare?, ho]
      cases o <;> rfl
    · rw [compare?, ho]
      cases o <;> rfl
  · intro h op heq hne
    have hnone : a.order? b = none := by
      rw [← Option.not_isSome_iff_eq_none, order?_isSome_iff]
      exact h
    cases op with
    | eq => contradiction
    | ne => contradiction
    | _ => simp only [compare?, hnone, Option.map_none]
  · intro c hab hbc
    rw [compare?_lt_iff] at hab hbc ⊢
    exact order?_lt_trans hab hbc

end Value

namespace Example

/-- Beyond fifty-three bits: an integer, the next double that is larger, and an integer that is
larger still. The first of them equals the double before, which equals the integer before. -/
theorem compare?_coherent_large :
    (Value.int 9007199254740993).compare? .lt (.int 9007199254740999) = some true ∧
    (Value.int 9007199254740993).compare? .eq (.float ⟨0x4340000000000000⟩) = some true ∧
    (Value.float ⟨0x4340000000000000⟩).compare? .eq (.int 9007199254740992) = some true ∧
    (Value.int 9007199254740993).compare? .eq (.int 9007199254740992) = some false ∧
    ∀ op, op ≠ .eq → op ≠ .ne → (Value.int 1).compare? op (.bool true) = none := by
  have hlarge := Value.compare?_coherent (.int 9007199254740993) (.float ⟨0x4340000000000002⟩)
  have hmixed := Value.compare?_coherent (.int 1) (.bool true)
  refine ⟨hlarge.2.2.2.2.2.2 _ ?_ ?_, ?_, ?_, ?_, hmixed.2.2.2.2.2.1 ?_⟩
  · decide +kernel
  · decide +kernel
  · decide +kernel
  · decide +kernel
  · decide +kernel
  · intro h
    exact absurd ((Value.order?_isSome_iff _ _).2 h) (by decide)

end Example

end Rulebook
