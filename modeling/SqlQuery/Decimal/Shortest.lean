/-!
The shortest decimal that reads back as a given binary value: of all decimals that lie closer to
the value than to its neighbours the one with the fewest digits, and of those the nearest.
-/

namespace SqlQuery.Decimal

/-- A positive value `mantissa * 2 ^ exponent` of a binary format. The next smaller value of the
format lies half as far away as the next larger one when `closeBelow` is set. -/
structure Dyadic where
  mantissa : Nat
  exponent : Int
  closeBelow : Bool
  deriving DecidableEq, Repr

structure Digits where
  significand : Nat
  exponent : Int
  deriving DecidableEq, Repr

/-- A value and the ends of the interval of reals that round to it, over one denominator. -/
structure Interval where
  lower : Nat
  value : Nat
  upper : Nat
  denominator : Nat
  closed : Bool

/-- The ends belong to the interval when the mantissa is even, as a tie rounds to even. -/
def Dyadic.interval (x : Dyadic) : Interval :=
  let scale := Nat.pow 2 (x.exponent - 2).toNat
  { lower := (4 * x.mantissa - (if x.closeBelow then 1 else 2)) * scale
    value := 4 * x.mantissa * scale
    upper := (4 * x.mantissa + 2) * scale
    denominator := Nat.pow 2 (2 - x.exponent).toNat
    closed := x.mantissa % 2 == 0 }

def digitCount (n : Nat) : Nat :=
  (Nat.toDigits 10 n).length

namespace Interval

/-- The `p` with `10 ^ (p - 1) ≤ value < 10 ^ p`. -/
def magnitude (i : Interval) : Int :=
  if i.denominator ≤ i.value then
    digitCount (i.value / i.denominator)
  else
    let n := digitCount (i.denominator / i.value)
    if i.denominator ≤ i.value * Nat.pow 10 (n - 1) then 2 - (n : Int) else 1 - (n : Int)

def inUnitsOf (i : Interval) (exponent : Int) : Interval :=
  let up := Nat.pow 10 (-exponent).toNat
  { i with
    lower := i.lower * up
    value := i.value * up
    upper := i.upper * up
    denominator := i.denominator * Nat.pow 10 exponent.toNat }

def contains (i : Interval) (n : Nat) : Bool :=
  let x := n * i.denominator
  if i.closed then i.lower ≤ x && x ≤ i.upper else i.lower < x && x < i.upper

/-- The nearer of the two whole numbers around the value, the larger one on a tie. -/
def nearest (i : Interval) : Nat :=
  let below := i.value / i.denominator
  if 2 * i.value < (2 * below + 1) * i.denominator then below else below + 1

/-- A whole number of the interval next to the value, the nearer one if both are. -/
def wholeNumber? (i : Interval) : Option Nat :=
  let below := i.value / i.denominator
  match i.contains below, i.contains (below + 1) with
  | true, true => some i.nearest
  | true, false => some below
  | false, true => some (below + 1)
  | false, false => none

/-- The decimal with the fewest digits, tried from `count` digits on. -/
def shortestFrom (i : Interval) : Nat → Nat → Digits
  | 0, count =>
      let exponent := i.magnitude - count
      ⟨(i.inUnitsOf exponent).nearest, exponent⟩
  | fuel + 1, count =>
      let exponent := i.magnitude - count
      match (i.inUnitsOf exponent).wholeNumber? with
      | some n => ⟨n, exponent⟩
      | none => i.shortestFrom fuel (count + 1)

end Interval

/-- Seventeen digits tell any two values of a format of at most 53 bits apart. -/
def Dyadic.shortest (x : Dyadic) : Digits :=
  x.interval.shortestFrom 16 1

end SqlQuery.Decimal
