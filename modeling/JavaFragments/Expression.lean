import JavaFragments.Double
import JavaFragments.Operator
import JavaFragments.Type

/-! # Expressions -/
set_option autoImplicit false

namespace JavaFragments

inductive Expression where
  | boolean (value : Bool)
  | integer (value : Int64)
  | long (value : Int64)
  | double (value : Double)
  | character (value : Char)
  | text (value : String)
  | nullLiteral
  | thisReference
  /-- A local variable or a parameter. -/
  | named (name : String)
  | field (object : Option Expression) (name : String)
  | call (object : Option Expression) (name : String) (arguments : List Expression)
  | new (type : ClassType) (arguments : List Expression)
  | binary (operator : BinaryOperator) (left right : Expression)
  | unary (operator : UnaryOperator) (operand : Expression)
  /-- With an operator it is a compound assignment such as `target += value`. -/
  | assignment (operator : Option BinaryOperator) (target value : Expression)
  | typeCast (type : JavaType) (operand : Expression)
  | instanceOf (operand : Expression) (type : JavaType)
  | conditional (condition whenTrue whenFalse : Expression)
  | arrayAccess (array index : Expression)
  /-- A type that stands as an expression, as in front of a static call. -/
  | typeReference (type : JavaType)
  | lambda (parameters : List String) (body : Expression)

namespace Expression

/-- An expression that takes brackets where it is an operand. -/
def isCompound : Expression → Bool
  | .binary .. => true
  | .conditional .. => true
  | .assignment .. => true
  | .typeCast .. => true
  | .instanceOf .. => true
  | .lambda .. => true
  | _ => false

def isUnary : Expression → Bool
  | .unary .. => true
  | _ => false

def isNew : Expression → Bool
  | .new .. => true
  | _ => false

/-- A call without a receiver. -/
def callOf (name : String) (arguments : List Expression) : Expression :=
  .call none name arguments

def methodOf (object : Expression) (name : String) (arguments : List Expression) : Expression :=
  .call (some object) name arguments

def assign (target value : Expression) : Expression :=
  .assignment none target value

end Expression

end JavaFragments
