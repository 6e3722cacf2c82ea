/-! # Hexadecimal numbers

`digits count n` writes the lowest `count` places of `n` in lower case, `number?` reads digits of
either case, and a number is read back from enough of its digits. -/
set_option autoImplicit false

namespace JavaFragments.Text.Hex

def digit (n : Nat) : Char :=
  if n < 10 then Char.ofNat (48 + n) else Char.ofNat (87 + n)

def value? (c : Char) : Option Nat :=
  if '0' ≤ c ∧ c ≤ '9' then some (c.toNat - 48)
  else if 'a' ≤ c ∧ c ≤ 'f' then some (c.toNat - 87)
  else if 'A' ≤ c ∧ c ≤ 'F' then some (c.toNat - 55)
  else none

def digits : Nat → Nat → List Char
  | 0, _ => []
  | count + 1, n => digits count (n / 16) ++ [digit (n % 16)]

/-- The digits of a number below `16 ^ count` without leading zeros, and none for zero. -/
def shortDigits (count n : Nat) : List Char :=
  (digits count n).dropWhile (· = '0')

/-- Continues reading after digits of the value `high`. -/
def numberFrom? (high : Nat) : List Char → Option Nat
  | [] => some high
  | c :: rest =>
      match value? c with
      | some low => numberFrom? (16 * high + low) rest
      | none => none

/-- At least one digit, and nothing else. -/
def number? : List Char → Option Nat
  | [] => none
  | cs => numberFrom? 0 cs

theorem value?_digit : ∀ {n : Nat}, n < 16 → value? (digit n) = some n := by
  decide

theorem numberFrom?_append (high : Nat) (front back : List Char) :
    numberFrom? high (front ++ back) = (numberFrom? high front).bind (numberFrom? · back) := by
  induction front generalizing high with
  | nil => rfl
  | cons c rest ih =>
      simp only [List.cons_append, numberFrom?]
      cases value? c with
      | none => rfl
      | some low => exact ih _

theorem numberFrom?_digits (high : Nat) : ∀ count n : Nat, n < Nat.pow 16 count →
    numberFrom? high (digits count n) = some (Nat.pow 16 count * high + n) := by
  intro count
  induction count with
  | zero => intro n hn; simp_all [digits, numberFrom?]
  | succ count ih =>
      intro n hn
      have hsucc : Nat.pow 16 (count + 1) = Nat.pow 16 count * 16 := rfl
      have hdiv : n / 16 < Nat.pow 16 count := by
        rw [Nat.div_lt_iff_lt_mul (by decide)]
        rwa [hsucc] at hn
      rw [digits, numberFrom?_append, ih _ hdiv]
      simp only [Option.bind_some, numberFrom?, value?_digit (Nat.mod_lt n (by decide : 16 > 0))]
      congr 1
      have := Nat.div_add_mod n 16
      have : 16 * (Nat.pow 16 count * high) = Nat.pow 16 (count + 1) * high := by
        rw [← Nat.mul_assoc, hsucc, Nat.mul_comm 16 (Nat.pow 16 count)]
      omega

theorem length_digits (count n : Nat) : (digits count n).length = count := by
  induction count generalizing n with
  | zero => rfl
  | succ count ih => simp [digits, ih]

theorem exists_of_mem_digits {count n : Nat} {c : Char} (h : c ∈ digits count n) :
    ∃ k < 16, c = digit k := by
  induction count generalizing n with
  | zero => cases h
  | succ count ih =>
      rcases List.mem_append.1 h with h | h
      · exact ih h
      · exact ⟨n % 16, Nat.mod_lt n (by decide), List.mem_singleton.1 h⟩

/-- Writing at least one place and reading it back. -/
theorem number?_digits {count n : Nat} (hn : n < Nat.pow 16 (count + 1)) :
    number? (digits (count + 1) n) = some n := by
  have hread := numberFrom?_digits 0 (count + 1) n hn
  cases h : digits (count + 1) n with
  | nil =>
      have := length_digits (count + 1) n
      simp [h] at this
  | cons c rest => simpa [number?, h] using hread

end JavaFragments.Text.Hex
