/-
# Shortest decimals

The fewest decimal digits that read back as a given double, and of those the
nearest to it. Everything is exact arithmetic on natural numbers: a double is
`significand * 2 ^ exponent`, the reals that round to it form an interval, and
for one to seventeen digits the two neighbours of the double on that decimal
grid are tested against the interval.
-/

import Rulebook.Binary64

namespace Rulebook.Decimal

/-- The reals that round to one positive double, in multiples of `num / den`:
the double is `mid`, the interval runs from `low` to `high`, and its ends
belong to it when `closed`. -/
structure Interval where
  low : Nat
  mid : Nat
  high : Nat
  num : Nat
  den : Nat
  closed : Bool

/-- The interval of a positive finite double, from its magnitude. Below a power
of two the doubles are twice as dense, so there the lower end is nearer. -/
def Interval.ofMagnitude (magnitude : Nat) : Interval :=
  let field := magnitude / Binary64.exponentUnit
  let fraction := magnitude % Binary64.exponentUnit
  let significand := if field = 0 then fraction else Binary64.exponentUnit + fraction
  -- in quarters of the place value of its last bit the double is `4 * significand`
  let scale := if field = 0 then 1 else field
  { low := 4 * significand - (if fraction = 0 ∧ 1 < field then 1 else 2)
    mid := 4 * significand
    high := 4 * significand + 2
    num := 1 <<< (scale - 1077)
    den := 1 <<< (1077 - scale)
    closed := fraction % 2 = 0 }

/-- A positive decimal: `digits * 10 ^ exponent`. -/
structure Numeral where
  digits : Nat
  exponent : Int

/-- Whether `c` grid steps lie in the interval, where `a` units of the grid are
as long as `b` units of the interval. -/
def Interval.admits (i : Interval) (a b c : Nat) : Bool :=
  if i.closed then decide (i.low * b ≤ c * a) && decide (c * a ≤ i.high * b)
  else decide (i.low * b < c * a) && decide (c * a < i.high * b)

/-- The multiple of `10 ^ place` that is nearest to the double among its two
neighbours on that grid, if it lies in the interval. Half way between two
such multiples, the larger one is taken. -/
def Interval.onGrid (i : Interval) (place : Int) : Option Numeral :=
  let a := Nat.pow 10 place.toNat * i.den
  let b := i.num * Nat.pow 10 (-place).toNat
  let below := i.mid * b / a
  let rest := i.mid * b % a
  let pick (c : Nat) : Numeral := ⟨c, place⟩
  match i.admits a b below, i.admits a b (below + 1) with
  | true, true => some (pick (if 2 * rest < a then below else below + 1))
  | true, false => some (pick below)
  | false, true => some (pick (below + 1))
  | false, false => none

/-- The exponent of the least power of ten above the double. No double is below
`10 ^ -340`. -/
def Interval.width (i : Interval) : Int :=
  ((Nat.toDigits 10 (i.mid * i.num * Nat.pow 10 340 / i.den)).length : Int) - 340

/-- The first grid, coarsest first, that has a point in the interval. Seventeen
digits always do. -/
def shortest (i : Interval) : Numeral :=
  let width := i.width
  ((List.range 17).findSome? fun n => i.onGrid (width - (n + 1 : Nat))).getD ⟨0, 0⟩

/-! ## Writing -/

/-- A positive decimal without an exponent: digits, and a point only where a
fraction follows. -/
def Numeral.positional (d : Numeral) : String :=
  let digits := Nat.toDigits 10 d.digits
  match d.exponent with
  | .ofNat zeros => String.ofList (digits ++ List.replicate zeros '0')
  | .negSucc places =>
    let padded := List.replicate (places + 2 - digits.length) '0' ++ digits
    let whole := padded.take (padded.length - (places + 1))
    let fraction := padded.drop (padded.length - (places + 1))
    match (fraction.reverse.dropWhile (· == '0')).reverse with
    | [] => String.ofList whole
    | kept => String.ofList (whole ++ '.' :: kept)

end Rulebook.Decimal

namespace Rulebook.Binary64

open Decimal

/-- The text of a double: always positional, an integral number without a point,
a sign also on a negative zero. -/
def render (x : Binary64) : String :=
  if x.isNaN then "NaN"
  else
    let digits :=
      if x.isFinite then
        if x.magnitude = 0 then "0" else (shortest (.ofMagnitude x.magnitude)).positional
      else "inf"
    if x.isNegative then "-" ++ digits else digits

end Rulebook.Binary64
