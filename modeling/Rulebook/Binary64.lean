/-
# Double-precision numbers

A `Binary64` is the bit pattern of a binary floating-point number of sixty-four
bits. Order and equality are read off the sign and the magnitude of the pattern,
and integers are converted by rounding in exact arithmetic, so both can be
reasoned about. The four operations `+ - * /` are the machine's; nothing is
claimed of their results.
-/

namespace Rulebook

/-- A double-precision number: a sign bit, eleven exponent bits and fifty-two
fraction bits. -/
structure Binary64 where
  bits : UInt64
  deriving DecidableEq, Inhabited

namespace Binary64

/-- The place value of the sign bit. -/
def signUnit : Nat := 0x8000000000000000

/-- The place value of the lowest exponent bit. -/
def exponentUnit : Nat := 0x10000000000000

/-- The pattern without its sign bit. Among numbers of one sign, the larger
magnitude is the number further from zero. -/
def magnitude (x : Binary64) : Nat := x.bits.toNat % signUnit

/-- The sign bit is set, also on a negative zero. -/
def isNegative (x : Binary64) : Bool := decide (signUnit ≤ x.bits.toNat)

/-- The magnitude of the two infinities; larger ones are not numbers. -/
def infinity : Nat := 2047 * exponentUnit

def isNaN (x : Binary64) : Bool := decide (infinity < x.magnitude)

def isFinite (x : Binary64) : Bool := decide (x.magnitude < infinity)

/-- The pattern with the given sign and magnitude. -/
def ofMagnitude (negative : Bool) (magnitude : Nat) : Binary64 :=
  ⟨UInt64.ofNat ((if negative then signUnit else 0) + magnitude)⟩

/-! ## Order -/

/-- Places the numbers on one line: both zeros are at `0`. -/
def rank (x : Binary64) : Int :=
  if x.isNegative then -(x.magnitude : Int) else x.magnitude

/-- The order of numbers; `none` as soon as one side is not a number. -/
def compare? (x y : Binary64) : Option Ordering :=
  if x.isNaN || y.isNaN then none else some (compare x.rank y.rank)

/-- Numeric equality: a NaN differs from itself and the two zeros are equal. -/
def same (x y : Binary64) : Bool := x.compare? y == some .eq

theorem compare?_eq_none_iff (x y : Binary64) :
    x.compare? y = none ↔ x.isNaN = true ∨ y.isNaN = true := by
  unfold compare?
  cases x.isNaN <;> cases y.isNaN <;> simp

theorem compare?_self (x : Binary64) (h : x.isNaN = false) :
    x.compare? x = some .eq := by
  simp [compare?, h]

/-! ## Integers -/

/-- The quotient `n / d`, rounded to the nearest integer, a half to the even one. -/
def roundDiv (n d : Nat) : Nat :=
  let quotient := n / d
  let rest := n % d
  if 2 * rest < d then quotient
  else if d < 2 * rest then quotient + 1
  else quotient + quotient % 2

/-- The magnitude nearest to a natural number. A significand has fifty-three bits;
one that is rounded up to more carries into the exponent by the addition alone. -/
def magnitudeOfNat (n : Nat) : Nat :=
  if n = 0 then 0
  else
    let exponent := n.log2
    let significand :=
      if exponent ≤ 52 then n <<< (52 - exponent) else roundDiv n (1 <<< (exponent - 52))
    min ((exponent + 1022) * exponentUnit + significand) infinity

/-- The number nearest to an integer. -/
def ofInt (n : Int) : Binary64 := ofMagnitude (decide (n < 0)) (magnitudeOfNat n.natAbs)

/-! ## Arithmetic -/

def toFloat (x : Binary64) : Float := Float.ofBits x.bits

def ofFloat (x : Float) : Binary64 := ⟨x.toBits⟩

instance : Add Binary64 := ⟨fun x y => ofFloat (x.toFloat + y.toFloat)⟩
instance : Sub Binary64 := ⟨fun x y => ofFloat (x.toFloat - y.toFloat)⟩
instance : Mul Binary64 := ⟨fun x y => ofFloat (x.toFloat * y.toFloat)⟩
instance : Div Binary64 := ⟨fun x y => ofFloat (x.toFloat / y.toFloat)⟩

end Binary64

end Rulebook
