import JavaFragments.Double

/-! # The shortest decimal of a double

The reals that round to a double form an interval around it, whose ends belong to it when the
significand is even. `shortest?` looks for a decimal of this interval on ever finer decimal grids,
with one digit, two digits and so on. On one grid only the two neighbours of the double matter, and
the nearer of them comes first, the greater where both are equally near. -/
set_option autoImplicit false

namespace JavaFragments

/-- The number `coefficient * 10 ^ exponent`. -/
structure Decimal where
  coefficient : Nat
  exponent : Int
deriving DecidableEq

namespace Decimal

/-- The reals from `low / unit` to `high / unit`, with a point `middle / unit` inside. -/
structure Interval where
  low : Nat
  middle : Nat
  high : Nat
  unit : Nat
  closed : Bool

namespace Interval

/-- The magnitudes that round to the magnitude of a finite double. -/
def ofDouble (x : Double) : Interval :=
  let factor := Nat.pow 2 (x.scale - 2).toNat
  { low := (4 * x.significand - (if x.isPowerOfTwo then 1 else 2)) * factor
    middle := 4 * x.significand * factor
    high := (4 * x.significand + 2) * factor
    unit := Nat.pow 2 (2 - x.scale).toNat
    closed := x.significand % 2 = 0 }

/-- Whether `coefficient * 10 ^ exponent` lies in the interval. -/
def contains (within : Interval) (d : Decimal) : Bool :=
  let point := d.coefficient * Nat.pow 10 d.exponent.toNat * within.unit
  let shift := Nat.pow 10 (-d.exponent).toNat
  if within.closed then within.low * shift ≤ point && point ≤ within.high * shift
  else within.low * shift < point && point < within.high * shift

/-- The multiples of `10 ^ exponent` on both sides of the middle, the nearer one first. -/
def neighbours (within : Interval) (exponent : Int) : List Decimal :=
  let step := Nat.pow 10 exponent.toNat * within.unit
  let middle := within.middle * Nat.pow 10 (-exponent).toNat
  let below : Decimal := ⟨middle / step, exponent⟩
  let above : Decimal := ⟨middle / step + 1, exponent⟩
  if 2 * (middle % step) < step then [below, above] else [above, below]

def onGrid? (within : Interval) (exponent : Int) : Option Decimal :=
  (within.neighbours exponent).find? within.contains

/-- The exponent of the least power of ten above a positive middle. -/
def magnitude (within : Interval) : Int :=
  if within.unit ≤ within.middle then (Nat.toDigits 10 (within.middle / within.unit)).length
  else 1 - ((Nat.toDigits 10 ((within.unit - 1) / within.middle)).length : Int)

end Interval

/-- Seventeen digits always tell two doubles apart. -/
def mostDigits : Nat := 17

/-- The decimal with the fewest digits that rounds to the magnitude of `x`, and of those the
nearest to it. -/
def shortest? (x : Double) : Option Decimal :=
  let within := Interval.ofDouble x
  (List.range mostDigits).findSome? fun digits =>
    within.onGrid? (within.magnitude - (digits + 1 : Nat))

theorem contains_of_onGrid? {within : Interval} {exponent : Int} {d : Decimal}
    (h : within.onGrid? exponent = some d) : within.contains d = true :=
  List.find?_some h

/-- What is written reads back. -/
theorem contains_of_shortest? {x : Double} {d : Decimal} (h : shortest? x = some d) :
    (Interval.ofDouble x).contains d = true := by
  obtain ⟨_, _, h⟩ := List.exists_of_findSome?_eq_some h
  exact contains_of_onGrid? h

end Decimal

end JavaFragments
