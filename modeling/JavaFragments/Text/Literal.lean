import JavaFragments.Text.Hex

/-! # Characters inside a string or character literal

`escape quote` writes a text so that it can stand between two quotes: a character with a short
escape takes it, the quote itself takes a backslash, any other control character is written as
`u` with four hexadecimal digits after a backslash, and every other character stands for itself. -/
set_option autoImplicit false

namespace JavaFragments.Text

def backslash : Char := '\x5c'
def doubleQuote : Char := '\x22'
def singleQuote : Char := '\x27'

/-- The letter of the two-character escape of a character. -/
def shortEscape? (c : Char) : Option Char :=
  if c = backslash then some backslash
  else if c = '\n' then some 'n'
  else if c = '\r' then some 'r'
  else if c = '\t' then some 't'
  else if c = '\x08' then some 'b'
  else if c = '\x0c' then some 'f'
  else none

/-- The control characters are the code points below 20 and from 7f to 9f, in hexadecimal. -/
def isControl (c : Char) : Bool :=
  c.toNat < 0x20 || (0x7F ≤ c.toNat && c.toNat ≤ 0x9F)

def escapeChar (quote c : Char) : List Char :=
  match shortEscape? c with
  | some letter => [backslash, letter]
  | none =>
      if c = quote then [backslash, c]
      else if isControl c then backslash :: 'u' :: Hex.digits 4 c.toNat
      else [c]

def escape (quote : Char) : List Char → List Char
  | [] => []
  | c :: rest => escapeChar quote c ++ escape quote rest

/-- A text between two quotes. -/
def quoted (quote : Char) (text : String) : String :=
  String.ofList (quote :: escape quote text.toList ++ [quote])

theorem escape_append (quote : Char) (front back : List Char) :
    escape quote (front ++ back) = escape quote front ++ escape quote back := by
  induction front with
  | nil => rfl
  | cons c rest ih => simp [escape, ih]

end JavaFragments.Text
