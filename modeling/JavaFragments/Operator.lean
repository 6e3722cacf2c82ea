/-! # Operators -/
set_option autoImplicit false

namespace JavaFragments

inductive BinaryOperator where
  | add | sub | mul | div | rem
  | eq | notEq | lt | gt | le | ge
  | and | or
  | bitAnd | bitOr | bitXor
  | shl | shr | unsignedShr
deriving DecidableEq

namespace BinaryOperator

def all : List BinaryOperator :=
  [.add, .sub, .mul, .div, .rem, .eq, .notEq, .lt, .gt, .le, .ge, .and, .or, .bitAnd, .bitOr,
   .bitXor, .shl, .shr, .unsignedShr]

def symbol : BinaryOperator → String
  | .add => "+"
  | .sub => "-"
  | .mul => "*"
  | .div => "/"
  | .rem => "%"
  | .eq => "=="
  | .notEq => "!="
  | .lt => "<"
  | .gt => ">"
  | .le => "<="
  | .ge => ">="
  | .and => "&&"
  | .or => "||"
  | .bitAnd => "&"
  | .bitOr => "|"
  | .bitXor => "^"
  | .shl => "<<"
  | .shr => ">>"
  | .unsignedShr => ">>>"

end BinaryOperator

inductive UnaryOperator where
  | neg | not | bitNot | preInc | preDec | postInc | postDec
deriving DecidableEq

namespace UnaryOperator

def all : List UnaryOperator :=
  [.neg, .not, .bitNot, .preInc, .preDec, .postInc, .postDec]

def symbol : UnaryOperator → String
  | .neg => "-"
  | .not => "!"
  | .bitNot => "~"
  | .preInc => "++"
  | .preDec => "--"
  | .postInc => "++"
  | .postDec => "--"

/-- Whether the operator stands behind its operand. -/
def standsBehind : UnaryOperator → Bool
  | .postInc => true
  | .postDec => true
  | _ => false

end UnaryOperator

end JavaFragments
