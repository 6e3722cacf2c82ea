import JavaFragments.Declaration
import JavaFragments.Format.Document
import JavaFragments.Operator
import JavaFragments.Type

/-! # Words of the tree format

Operators and kinds are written as words. A node of a tree gives its kind in a tag, by its word or
by its place in the list of all kinds. Inside a node a word may also stand as the only field of a
record that holds nothing. -/
set_option autoImplicit false

namespace JavaFragments

/-- A finite set of values that are written as words. -/
class Worded (α : Type) where
  all : List α
  word : α → String

namespace Worded

def ofWord? {α : Type} [Worded α] (text : String) : Option α :=
  (Worded.all (α := α)).find? fun a => Worded.word a == text

def ofPlace? {α : Type} [Worded α] (place : Int) : Option α :=
  if place < 0 then none else (Worded.all (α := α))[place.toNat]?

end Worded

namespace Document

def ofWorded {α : Type} [Worded α] (a : α) : Document :=
  .text (Worded.word a)

/-- A word that stands by itself. -/
def word? {α : Type} [Worded α] : Document → Option α
  | .text word => Worded.ofWord? word
  | _ => none

/-- A word inside a node. -/
def nodeWord? {α : Type} [Worded α] : Document → Option α
  | .record [(word, .null)] => Worded.ofWord? word
  | .record [(word, .record [])] => Worded.ofWord? word
  | d => d.word?

def tag? {α : Type} [Worded α] (d : Document) (name : String) : Option α :=
  match d.find? name with
  | some (.text word) => Worded.ofWord? word
  | some (.integer place) => Worded.ofPlace? place
  | _ => none

end Document

instance : Worded Primitive where
  all := Primitive.all
  word := Primitive.keyword

instance : Worded TypeKind where
  all := [.classType, .interfaceType, .enumType, .annotationType]
  word
    | .classType => "class"
    | .interfaceType => "interface"
    | .enumType => "enum"
    | .annotationType => "annotation"

instance : Worded BinaryOperator where
  all := BinaryOperator.all
  word
    | .add => "add"
    | .sub => "sub"
    | .mul => "mul"
    | .div => "div"
    | .rem => "rem"
    | .eq => "eq"
    | .notEq => "not_eq"
    | .lt => "lt"
    | .gt => "gt"
    | .le => "le"
    | .ge => "ge"
    | .and => "and"
    | .or => "or"
    | .bitAnd => "bit_and"
    | .bitOr => "bit_or"
    | .bitXor => "bit_xor"
    | .shl => "shl"
    | .shr => "shr"
    | .unsignedShr => "u_shr"

instance : Worded UnaryOperator where
  all := UnaryOperator.all
  word
    | .neg => "neg"
    | .not => "not"
    | .bitNot => "bit_not"
    | .preInc => "pre_inc"
    | .preDec => "pre_dec"
    | .postInc => "post_inc"
    | .postDec => "post_dec"

inductive TypeTag where
  | primitive | classType | memberType | typeVariable
deriving DecidableEq

instance : Worded TypeTag where
  all := [.primitive, .classType, .memberType, .typeVariable]
  word
    | .primitive => "primitive"
    | .classType => "object"
    | .memberType => "inner_object"
    | .typeVariable => "generic"

inductive ArgumentTag where
  | type | wildcard | wildcardExtends | wildcardSuper | list
deriving DecidableEq

instance : Worded ArgumentTag where
  all := [.type, .wildcard, .wildcardExtends, .wildcardSuper, .list]
  word
    | .type => "type"
    | .wildcard => "wildcard"
    | .wildcardExtends => "wildcard_extends"
    | .wildcardSuper => "wildcard_super"
    | .list => "list"

inductive ExpressionTag where
  | boolean | integer | long | double | character | text | nullLiteral | thisReference | named
  | field | call | new | binary | unary | assignment | typeCast | instanceOf | conditional
  | arrayAccess | typeReference | lambda
deriving DecidableEq

instance : Worded ExpressionTag where
  all := [.boolean, .integer, .long, .double, .character, .text, .nullLiteral, .thisReference,
    .named, .field, .call, .new, .binary, .unary, .assignment, .typeCast, .instanceOf,
    .conditional, .arrayAccess, .typeReference, .lambda]
  word
    | .boolean => "boolean"
    | .integer => "integer"
    | .long => "long"
    | .double => "double"
    | .character => "char"
    | .text => "string"
    | .nullLiteral => "null"
    | .thisReference => "this"
    | .named => "name"
    | .field => "field"
    | .call => "method_invocation"
    | .new => "new"
    | .binary => "binary"
    | .unary => "unary"
    | .assignment => "assignment"
    | .typeCast => "cast"
    | .instanceOf => "instance_of"
    | .conditional => "conditional"
    | .arrayAccess => "array_access"
    | .typeReference => "type_reference"
    | .lambda => "lambda"

inductive StatementTag where
  | assertion | breakTo | continueTo | comment | byteCode | doWhile | expression | forLoop
  | forEach | ifThen | ifElse | labelled | lambdaExpression | localVariables | returnVoid
  | returnValue | sequence | switch | synchronized | throwing | tryCatch | typeDeclaration
  | whileLoop
deriving DecidableEq

instance : Worded StatementTag where
  all := [.assertion, .breakTo, .continueTo, .comment, .byteCode, .doWhile, .expression, .forLoop,
    .forEach, .ifThen, .ifElse, .labelled, .lambdaExpression, .localVariables, .returnVoid,
    .returnValue, .sequence, .switch, .synchronized, .throwing, .tryCatch, .typeDeclaration,
    .whileLoop]
  word
    | .assertion => "assert"
    | .breakTo => "break"
    | .continueTo => "continue"
    | .comment => "comment"
    | .byteCode => "byte_code"
    | .doWhile => "do_while"
    | .expression => "expression"
    | .forLoop => "for"
    | .forEach => "for_each"
    | .ifThen => "if"
    | .ifElse => "if_else"
    | .labelled => "label"
    | .lambdaExpression => "lambda_expression"
    | .localVariables => "local_variable_declaration"
    | .returnVoid => "return"
    | .returnValue => "return_expression"
    | .sequence => "statements"
    | .switch => "switch"
    | .synchronized => "synchronized"
    | .throwing => "throw"
    | .tryCatch => "try"
    | .typeDeclaration => "type_declaration"
    | .whileLoop => "while"

inductive SwitchBlockTag where
  | label | multiLabels
deriving DecidableEq

instance : Worded SwitchBlockTag where
  all := [.label, .multiLabels]
  word
    | .label => "label"
    | .multiLabels => "multi_labels"

inductive SwitchLabelTag where
  | default | expression
deriving DecidableEq

instance : Worded SwitchLabelTag where
  all := [.default, .expression]
  word
    | .default => "default"
    | .expression => "expression"

end JavaFragments
