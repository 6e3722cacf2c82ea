import JavaFragments.Expression
import JavaFragments.Phrase.Literal
import JavaFragments.Phrase.Type
import JavaFragments.Statement

/-! # Phrases of expressions

A compound operand takes brackets. Before a dot or an index a unary operand takes them too, and
before an index so does an allocation. A sign takes them around an operand that begins with the
same sign, since the two would be read as one operator. -/
set_option autoImplicit false

namespace JavaFragments

def firstPrinted? : List Token → Option Char
  | [] => none
  | token :: _ => token.print.toList.head?

/-- Whether the last character of a sign stands first in the tokens behind it. -/
def mergesWith (sign : String) (operand : List Token) : Bool :=
  match sign.toList.getLast? with
  | none => false
  | some last => (last = '-' || last = '+') && firstPrinted? operand == some last

def unaryPhrase (operator : UnaryOperator) (operand : Phrase) : Phrase :=
  if operator.standsBehind then operand ++ .ofToken (.text operator.symbol)
  else
    .ofToken (.text operator.symbol) ++
      .bracketedIf (mergesWith operator.symbol operand.tokens) operand

def assignmentToken : Option BinaryOperator → Token
  | none => .spaceEqualSpace
  | some operator => .text (" " ++ operator.symbol ++ "= ")

/-- One parameter stands alone, any other number between brackets as one text. -/
def lambdaParameters : List String → Phrase
  | [single] => .ofToken (.text single)
  | parameters => .bracketed (.ofToken (.text (String.intercalate ", " parameters)))

def argumentsPhrase (arguments : List Phrase) : Phrase :=
  .parameters (.join .commaSpace arguments)

namespace Expression

/-- The printed form of an expression as an operand. -/
def asOperand (e : Expression) (phrase : Phrase) : Phrase :=
  .bracketedIf e.isCompound phrase

/-- The printed form of an expression in front of a member. -/
def asReceiver (e : Expression) (phrase : Phrase) : Phrase :=
  .bracketedIf (e.isCompound || e.isUnary) phrase

/-- The printed form of an expression in front of an index. -/
def asArray (e : Expression) (phrase : Phrase) : Phrase :=
  .bracketedIf (e.isCompound || e.isUnary || e.isNew) phrase

end Expression

mutual

def Expression.phrase (env : Environment) : Expression → Phrase
  | .boolean true => .ofToken (.keyword "true")
  | .boolean false => .ofToken (.keyword "false")
  | .integer value => .ofToken (.text (Literal.integer value))
  | .long value => .ofToken (.text (Literal.long value))
  | .double value => .ofToken (.text (Literal.double value))
  | .character value => .ofToken (.text (Literal.character value))
  | .text value => .ofToken (.text (Literal.text value))
  | .nullLiteral => .ofToken (.keyword "null")
  | .thisReference => .ofToken (.keyword "this")
  | .named name => .ofToken (.text name)
  | .field object name => receiverPhrase env object ++ .ofToken (.text name)
  | .call object name arguments =>
      receiverPhrase env object ++ .ofToken (.text name) ++
        argumentsPhrase (expressionPhrases env arguments)
  | .new type arguments =>
      .ofTokens [.keyword "new", .space] ++ type.phrase env ++
        argumentsPhrase (expressionPhrases env arguments)
  | .binary operator left right =>
      left.asOperand (left.phrase env) ++
        .ofTokens [.space, .text operator.symbol, .space] ++
        right.asOperand (right.phrase env)
  | .unary operator operand => unaryPhrase operator (operand.asOperand (operand.phrase env))
  | .assignment operator target value =>
      target.phrase env ++ .ofToken (assignmentToken operator) ++ value.phrase env
  | .typeCast type operand =>
      .bracketed (type.phrase env) ++ operand.asOperand (operand.phrase env)
  | .instanceOf operand type =>
      operand.asOperand (operand.phrase env) ++
        .ofTokens [.space, .keyword "instanceof", .space] ++ type.phrase env
  | .conditional condition whenTrue whenFalse =>
      condition.asOperand (condition.phrase env) ++ .ofToken .spaceQuestionSpace ++
        whenTrue.asOperand (whenTrue.phrase env) ++ .ofToken .spaceColonSpace ++
        whenFalse.asOperand (whenFalse.phrase env)
  | .arrayAccess array index =>
      array.asArray (array.phrase env) ++
        .enclosed .openSquare .closeSquare (index.phrase env)
  | .typeReference type => type.phrase env
  | .lambda parameters body =>
      lambdaParameters parameters ++ .ofToken .spaceArrowSpace ++ body.phrase env

/-- What stands before a member, with its dot, and nothing for a member without a receiver. -/
def receiverPhrase (env : Environment) : Option Expression → Phrase
  | none => .empty
  | some object => object.asReceiver (object.phrase env) ++ .ofToken .dot

def expressionPhrases (env : Environment) : List Expression → List Phrase
  | [] => []
  | e :: rest => e.phrase env :: expressionPhrases env rest

end

namespace LocalVariableDeclaration

def declaratorPhrase (env : Environment) (d : Declarator) : Phrase :=
  .ofToken (.text d.name) ++ dimensionPhrase d.dimension ++
    match d.initializer with
    | none => .empty
    | some initializer => .ofToken .spaceEqualSpace ++ initializer.phrase env

/-- The declaration without the semicolon behind it. -/
def phrase (env : Environment) (d : LocalVariableDeclaration) : Phrase :=
  (if d.isFinal then .ofTokens [.keyword "final", .space] else .empty) ++
    d.type.phrase env ++ .ofToken .space ++
    .join .commaSpace (d.declarators.map (declaratorPhrase env))

end LocalVariableDeclaration

end JavaFragments
