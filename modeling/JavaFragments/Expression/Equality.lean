import JavaFragments.Expression
import JavaFragments.Type.Equality

/-! # Equality of expressions

Expressions are equal when they agree in every part, where doubles compare by value. So an
expression that holds a double which is no number differs from itself. -/
set_option autoImplicit false

namespace JavaFragments

mutual

def Expression.equal : Expression → Expression → Bool
  | .boolean a, .boolean b => a == b
  | .integer a, .integer b => a == b
  | .long a, .long b => a == b
  | .double a, .double b => a.equal b
  | .character a, .character b => a == b
  | .text a, .text b => a == b
  | .nullLiteral, .nullLiteral => true
  | .thisReference, .thisReference => true
  | .named a, .named b => a == b
  | .field object name, .field object' name' => equalOptional object object' && name == name'
  | .call object name arguments, .call object' name' arguments' =>
      equalOptional object object' && name == name' && equalExpressions arguments arguments'
  | .new type arguments, .new type' arguments' =>
      type == type' && equalExpressions arguments arguments'
  | .binary operator left right, .binary operator' left' right' =>
      operator == operator' && left.equal left' && right.equal right'
  | .unary operator operand, .unary operator' operand' =>
      operator == operator' && operand.equal operand'
  | .assignment operator target value, .assignment operator' target' value' =>
      operator == operator' && target.equal target' && value.equal value'
  | .typeCast type operand, .typeCast type' operand' => type == type' && operand.equal operand'
  | .instanceOf operand type, .instanceOf operand' type' => operand.equal operand' && type == type'
  | .conditional condition whenTrue whenFalse, .conditional condition' whenTrue' whenFalse' =>
      condition.equal condition' && whenTrue.equal whenTrue' && whenFalse.equal whenFalse'
  | .arrayAccess array index, .arrayAccess array' index' => array.equal array' && index.equal index'
  | .typeReference a, .typeReference b => a == b
  | .lambda parameters body, .lambda parameters' body' =>
      parameters == parameters' && body.equal body'
  | _, _ => false
termination_by structural a => a

def equalOptional : Option Expression → Option Expression → Bool
  | none, none => true
  | some a, some b => a.equal b
  | _, _ => false
termination_by structural a => a

def equalExpressions : List Expression → List Expression → Bool
  | [], [] => true
  | a :: rest, b :: rest' => a.equal b && equalExpressions rest rest'
  | _, _ => false
termination_by structural a => a

end

end JavaFragments
