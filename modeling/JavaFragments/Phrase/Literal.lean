import JavaFragments.Decimal.Layout
import JavaFragments.Text.Literal

/-! # Literals

Numbers, characters and strings as they stand in the source. A double that is no decimal is named
by a constant. -/
set_option autoImplicit false

namespace JavaFragments.Literal

def integer (value : Int64) : String :=
  value.toInt.repr

def long (value : Int64) : String :=
  value.toInt.repr ++ "L"

/-- Doubles from `1e-4` up to below `1e16` are written without an exponent. -/
def doubleLayout : Decimal.Layout := ⟨-4, 15⟩

/-- A finite magnitude, with at least one digit behind the point where there is no exponent. -/
def magnitude (value : Double) : List Char :=
  match if value.isZero then none else Decimal.shortest? value with
  | none => ['0', '.', '0']
  | some d => d.write doubleLayout

def double (value : Double) : String :=
  if value.isNaN then "Double.NaN"
  else if value.isInfinite then
    if value.isNegative then "Double.NEGATIVE_INFINITY" else "Double.POSITIVE_INFINITY"
  else String.ofList (if value.isNegative then '-' :: magnitude value else magnitude value)

def character (value : Char) : String :=
  Text.quoted Text.singleQuote (String.ofList [value])

def text (value : String) : String :=
  Text.quoted Text.doubleQuote value

end JavaFragments.Literal
