import JavaFragments.Format.Modifiers
import JavaFragments.Format.Vocabulary

/-! # Fields of the tree format

Plain values as documents, and the three ways to read a field of a record: one that must be there,
one that may be missing or null, and one that may be missing and then has a value of its own. A
reader is handed a proof that the field is smaller than the record. -/
set_option autoImplicit false

namespace JavaFragments

namespace Document

def bool? : Document → Option Bool
  | .bool value => some value
  | _ => none

def text? : Document → Option String
  | .text value => some value
  | _ => none

/-- A text of exactly one character. -/
def character? : Document → Option Char
  | .text value =>
      match value.toList with
      | [c] => some c
      | _ => none
  | _ => none

def word32? : Document → Option UInt32
  | .integer n => if 0 ≤ n ∧ n < UInt32.size then some (UInt32.ofNat n.toNat) else none
  | _ => none

def int64? : Document → Option Int64
  | .integer n =>
      if Int64.minValue.toInt ≤ n ∧ n ≤ Int64.maxValue.toInt then some (Int64.ofInt n) else none
  | _ => none

def number? : Document → Option Double
  | .double value => some value
  | .integer n => some (Double.ofInt n)
  | _ => none

def modifiers? : Document → Option Modifiers
  | .text value => Modifiers.ofText? value
  | _ => none

def ofCharacter (c : Char) : Document := .text (String.ofList [c])

def ofWord32 (n : UInt32) : Document := .integer n.toNat

def ofInt64 (n : Int64) : Document := .integer n.toInt

def ofModifiers (m : Modifiers) : Document := .text m.text

def ofOption {α : Type} (write : α → Document) : Option α → Document
  | none => .null
  | some a => write a

/-- Reads every element of a list. -/
def readAll {α : Type} : (items : List Document) →
    ((x : Document) → x ∈ items → Option α) → Option (List α)
  | [], _ => some []
  | x :: rest, read =>
      match read x (List.mem_cons_self ..),
          readAll rest fun y h => read y (List.mem_cons_of_mem _ h) with
      | some a, some as => some (a :: as)
      | _, _ => none

def each {α : Type} (d : Document) (read : (x : Document) → sizeOf x < sizeOf d → Option α) :
    Option (List α) :=
  match d, read with
  | .list items, read => readAll items fun x h => read x (sizeOf_lt_of_mem_list h)
  | _, _ => none

def required {α : Type} (d : Document) (name : String)
    (read : (x : Document) → sizeOf x < sizeOf d → Option α) : Option α :=
  match h : d.find? name with
  | some x => read x (sizeOf_lt_of_find? h)
  | none => none

def optional {α : Type} (d : Document) (name : String)
    (read : (x : Document) → sizeOf x < sizeOf d → Option α) : Option (Option α) :=
  match h : d.find? name with
  | none => some none
  | some .null => some none
  | some x => (read x (sizeOf_lt_of_find? h)).map some

def defaulted {α : Type} (d : Document) (name : String) (value : α)
    (read : (x : Document) → sizeOf x < sizeOf d → Option α) : Option α :=
  match h : d.find? name with
  | some x => read x (sizeOf_lt_of_find? h)
  | none => some value

theorem readAll_cons {α : Type} (read : Document → Option α) (x : Document)
    (rest : List Document) :
    readAll (x :: rest) (fun y _ => read y) =
      match read x, readAll rest (fun y _ => read y) with
      | some a, some as => some (a :: as)
      | _, _ => none := rfl

theorem character?_ofCharacter (c : Char) : character? (ofCharacter c) = some c := by
  simp [character?, ofCharacter]

theorem word32?_ofWord32 (n : UInt32) : word32? (ofWord32 n) = some n := by
  have h : (0 : Int) ≤ n.toNat ∧ (n.toNat : Int) < UInt32.size :=
    ⟨Int.natCast_nonneg _, by exact_mod_cast n.toNat_lt⟩
  rw [ofWord32, word32?, if_pos h]
  simp

theorem int64?_ofInt64 (n : Int64) : int64? (ofInt64 n) = some n := by
  rw [ofInt64, int64?, if_pos ⟨n.minValue_le_toInt, n.toInt_le⟩, Int64.ofInt_toInt]

end Document

end JavaFragments
