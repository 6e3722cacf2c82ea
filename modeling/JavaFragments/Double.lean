/-! # Double-precision numbers

A double is its 64 bits: a sign, eleven bits of exponent and fifty-two of fraction. Where it is
finite its magnitude is `significand * 2 ^ scale`. Comparison is by value, so the two zeros are
equal and a value that is no number differs from itself. -/
set_option autoImplicit false

namespace JavaFragments

structure Double where
  bits : UInt64
deriving DecidableEq

namespace Double

def isNegative (x : Double) : Bool :=
  Nat.pow 2 63 ≤ x.bits.toNat

def exponentField (x : Double) : Nat :=
  x.bits.toNat / Nat.pow 2 52 % Nat.pow 2 11

def fractionField (x : Double) : Nat :=
  x.bits.toNat % Nat.pow 2 52

def isNaN (x : Double) : Bool :=
  x.exponentField = 2047 && x.fractionField ≠ 0

def isInfinite (x : Double) : Bool :=
  x.exponentField = 2047 && x.fractionField = 0

def isZero (x : Double) : Bool :=
  x.exponentField = 0 && x.fractionField = 0

def significand (x : Double) : Nat :=
  if x.exponentField = 0 then x.fractionField else Nat.pow 2 52 + x.fractionField

def scale (x : Double) : Int :=
  max 1 (x.exponentField : Int) - 1075

/-- Whether the neighbour towards zero is only half as far away as the other one. -/
def isPowerOfTwo (x : Double) : Bool :=
  1 < x.exponentField && x.fractionField = 0

def equal (x y : Double) : Bool :=
  !x.isNaN && !y.isNaN && (x.bits == y.bits || x.isZero && y.isZero)

/-- `n / 2 ^ places` as the nearest whole number, and the even one of two. -/
def roundedShift (n places : Nat) : Nat :=
  let unit := Nat.pow 2 places
  let below := n / unit
  if 2 * (n % unit) < unit ∨ 2 * (n % unit) = unit ∧ below % 2 = 0 then below else below + 1

/-- The bits of the double nearest to a natural number. A significand that is rounded up to the
next power of two carries into the exponent, and what is too large is infinite. -/
def naturalBits (n : Nat) : Nat :=
  if n = 0 then 0
  else
    let exponent := n.log2
    let significand :=
      if exponent ≤ 52 then n * Nat.pow 2 (52 - exponent) else roundedShift n (exponent - 52)
    min (2047 * Nat.pow 2 52) ((exponent + 1022) * Nat.pow 2 52 + significand)

/-- The double nearest to an integer. -/
def ofInt (n : Int) : Double :=
  ⟨UInt64.ofNat ((if n < 0 then Nat.pow 2 63 else 0) + naturalBits n.natAbs)⟩

/-- A natural number of at most fifty-three bits is a double. -/
theorem ofInt_natCast {n : Nat} (hpos : n ≠ 0) (hn : n < Nat.pow 2 53) :
    ∃ places : Nat, (ofInt n).significand = n * Nat.pow 2 places ∧ (ofInt n).scale = -places := by
  have hlog : n.log2 ≤ 52 := by
    have := (Nat.log2_lt hpos).2 hn
    omega
  have hpower : 2 ^ n.log2 * 2 ^ (52 - n.log2) = 2 ^ 52 := by
    rw [← Nat.pow_add, Nat.add_sub_cancel' hlog]
  have hlow : 2 ^ 52 ≤ n * 2 ^ (52 - n.log2) :=
    hpower ▸ Nat.mul_le_mul_right _ (Nat.log2_self_le hpos)
  have hhigh : n * 2 ^ (52 - n.log2) < 2 ^ 53 := by
    calc n * 2 ^ (52 - n.log2) < 2 ^ (n.log2 + 1) * 2 ^ (52 - n.log2) :=
          Nat.mul_lt_mul_of_pos_right Nat.lt_log2_self (Nat.two_pow_pos _)
      _ = 2 ^ 53 := by rw [← Nat.pow_add, show n.log2 + 1 + (52 - n.log2) = 53 by omega]
  refine ⟨52 - n.log2, ?_⟩
  generalize hshifted : n * 2 ^ (52 - n.log2) = shifted at hlow hhigh
  have hbits : (ofInt n).bits.toNat = (n.log2 + 1022) * 2 ^ 52 + shifted := by
    have hnatural : naturalBits n = (n.log2 + 1022) * 2 ^ 52 + shifted := by
      simp only [naturalBits, if_neg hpos, if_pos hlog, Nat.pow_eq, hshifted]
      omega
    simp only [ofInt, Int.natAbs_natCast, hnatural, UInt64.toNat_ofNat']
    rw [if_neg (by omega)]
    omega
  have hexponent : (ofInt n).exponentField = n.log2 + 1023 := by
    simp only [exponentField, hbits, Nat.pow_eq]
    omega
  have hfraction : (ofInt n).fractionField = shifted - 2 ^ 52 := by
    simp only [fractionField, hbits, Nat.pow_eq]
    omega
  constructor
  · rw [significand, hexponent, if_neg (by omega), hfraction, Nat.pow_eq]
    omega
  · rw [scale, hexponent]
    omega

theorem equal_self (x : Double) : x.equal x = !x.isNaN := by
  cases h : x.isNaN <;> simp [equal, h]

theorem equal_comm (x y : Double) : x.equal y = y.equal x := by
  simp only [equal, Bool.and_comm (!x.isNaN), Bool.and_comm x.isZero, BEq.comm (a := x.bits)]

end Double

end JavaFragments
