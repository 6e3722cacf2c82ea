import JavaFragments.Decimal.Shortest

/-! # Writing a decimal

A decimal is written positionally, with at least one digit on both sides of the point, where its
leading digit stands in one of the places of the layout. Elsewhere it is written with one digit
before the point and an exponent. -/
set_option autoImplicit false

namespace JavaFragments.Decimal

/-- The least and the greatest exponent of a leading digit that are written positionally. -/
structure Layout where
  lowest : Int
  highest : Int

def withoutTrailingZeros (digits : List Char) : List Char :=
  (digits.reverse.dropWhile (· = '0')).reverse

/-- The number whose digits stand after a point and which is then multiplied by `10 ^ point`. -/
def positional (digits : List Char) (point : Int) : List Char :=
  let zeros (count : Int) := List.replicate count.toNat '0'
  if point ≤ 0 then '0' :: '.' :: zeros (-point) ++ digits
  else
    let behind := digits.drop point.toNat
    digits.take point.toNat ++ zeros (point - digits.length) ++
      '.' :: (if behind = [] then ['0'] else behind)

def scientific (digits : List Char) (exponent : Int) : List Char :=
  let mantissa := match digits with
    | first :: second :: rest => first :: '.' :: second :: rest
    | single => single
  mantissa ++ 'e' :: exponent.repr.toList

def write (layout : Layout) (d : Decimal) : List Char :=
  let digits := Nat.toDigits 10 d.coefficient
  let point := digits.length + d.exponent
  let leading := withoutTrailingZeros digits
  if layout.lowest < point ∧ point ≤ layout.highest + 1 then positional leading point
  else scientific leading (point - 1)

end JavaFragments.Decimal
