import JavaFragments.Modifiers
import JavaFragments.Text.Blank
import JavaFragments.Text.Hex

/-! # Modifiers in the tree format

As text the flags are names between bars, and bits without a name are one hexadecimal number behind
them. -/
set_option autoImplicit false

namespace JavaFragments.Modifiers

def namedBits : UInt32 :=
  flags.foldr (fun (_, flag) bits => flag ||| bits) 0

/-- The bits that no named flag stands for. -/
def unnamedBits (m : Modifiers) : UInt32 :=
  m.bits &&& ~~~namedBits

def parts (m : Modifiers) : List String :=
  (flags.filter fun (_, flag) => m.contains flag).map Prod.fst ++
    if m.unnamedBits = 0 then []
    else [String.ofList ('0' :: 'x' :: Text.Hex.shortDigits 8 m.unnamedBits.toNat)]

def text (m : Modifiers) : String :=
  String.intercalate " | " m.parts

/-- Hexadecimal digits, also behind a plus sign, of a number of 32 bits. -/
def bitsOfHex? (digits : List Char) : Option UInt32 :=
  let number := match digits with
    | '+' :: rest => Text.Hex.number? rest
    | _ => Text.Hex.number? digits
  match number with
  | some n => if n < UInt32.size then some (UInt32.ofNat n) else Option.none
  | Option.none => Option.none

def bitsOfPart? (part : List Char) : Option UInt32 :=
  match Text.trimmed part with
  | [] => Option.none
  | '0' :: 'x' :: digits => bitsOfHex? digits
  | name => flags.lookup (String.ofList name)

def bitsOfParts? : List (List Char) → Option UInt32
  | [] => some 0
  | part :: rest =>
      match bitsOfPart? part, bitsOfParts? rest with
      | some bits, some more => some (bits ||| more)
      | _, _ => Option.none

/-- Nothing but blanks stands for no flags, but a blank part beside a bar is refused. -/
def ofText? (text : String) : Option Modifiers :=
  if text.toList.all Text.isBlank then some Modifiers.none
  else (bitsOfParts? (text.toList.splitOn '|')).map Modifiers.mk

end JavaFragments.Modifiers
