import JavaFragments.Declaration
import JavaFragments.Expression

/-! # Statements

The statements of a method body. A body that may be left out altogether is optional, and a body of
several statements is a `sequence`. -/
set_option autoImplicit false

namespace JavaFragments

structure Declarator where
  name : String
  /-- The array brackets behind the name. -/
  dimension : UInt32
  initializer : Option Expression

def Declarator.ofName (name : String) (initializer : Option Expression) : Declarator :=
  ⟨name, 0, initializer⟩

/-- One or more variables of one type, also in the head of a `for`. -/
structure LocalVariableDeclaration where
  modifiers : Modifiers
  type : JavaType
  declarators : List Declarator

def LocalVariableDeclaration.isFinal (d : LocalVariableDeclaration) : Bool :=
  d.modifiers.contains Modifiers.finalFlag

inductive SwitchLabel where
  | default
  | expression (expression : Expression)

/-- A variable declared in the head of a `try`. -/
structure Resource where
  type : ClassType
  name : String
  expression : Expression
  lineNumber : Option UInt32

mutual

inductive Statement where
  | assertion (condition : Expression) (message : Option Expression)
  | breakTo (label : Option String)
  | continueTo (label : Option String)
  | comment (text : String)
  /-- A listing of instructions that have no source form. -/
  | byteCode (text : String)
  | doWhile (condition : Expression) (body : Option Statement)
  | expression (expression : Expression)
  | forLoop (declaration : Option LocalVariableDeclaration)
      (init condition update : Option Expression) (body : Option Statement)
  | forEach (type : JavaType) (name : String) (expression : Expression) (body : Option Statement)
  | ifThen (condition : Expression) (body : Option Statement)
  | ifElse (condition : Expression) (whenTrue whenFalse : Statement)
  | labelled (label : String) (statement : Option Statement)
  /-- The body of a lambda that is one expression. -/
  | lambdaExpression (expression : Expression)
  | localVariables (declaration : LocalVariableDeclaration)
  | returnVoid
  | returnValue (expression : Expression) (lineNumber : Option UInt32)
  | sequence (statements : List Statement)
  | switch (condition : Expression) (blocks : List SwitchBlock)
  | synchronized (monitor : Expression) (body : Option Statement)
  | throwing (expression : Expression)
  | tryCatch (resources : Option (List Resource)) (body : Statement)
      (catchClauses : List CatchClause) (finallyBody : Option Statement)
  | typeDeclaration (declaration : TypeDeclaration)
  | whileLoop (condition : Expression) (body : Option Statement)

/-- The labels of a `switch` that share one body. -/
inductive SwitchBlock where
  | label (label : SwitchLabel) (body : Statement)
  | multiLabels (labels : List SwitchLabel) (body : Statement)

structure CatchClause where
  type : ClassType
  otherTypes : List ClassType
  name : String
  lineNumber : Option UInt32
  body : Statement

end

namespace Statement

def returnOf (expression : Expression) : Statement :=
  .returnValue expression none

/-- How many statements stand in a body: those of a sequence, or the body itself. -/
def count : Statement → Nat
  | .sequence statements => statements.length
  | _ => 1

/-- The statement of a sequence of one, and any other statement as it is. -/
def unwrapped : Statement → Statement
  | .sequence [statement] => statement
  | statement => statement

def isConditional : Statement → Bool
  | .ifThen .. => true
  | .ifElse .. => true
  | _ => false

end Statement

end JavaFragments
