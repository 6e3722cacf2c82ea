import JavaFragments.Statement
import JavaFragments.Expression.Equality

/-! # Equality of statements

Statements are equal when they agree in every part, where doubles compare by value. -/
set_option autoImplicit false

namespace JavaFragments

def Declarator.equal (a b : Declarator) : Bool :=
  a.name == b.name && a.dimension == b.dimension && equalOptional a.initializer b.initializer

/-- As many elements on both sides, and equal pair by pair. -/
def equalLists {α : Type} (equal : α → α → Bool) : List α → List α → Bool
  | [], [] => true
  | a :: rest, b :: rest' => equal a b && equalLists equal rest rest'
  | _, _ => false

def LocalVariableDeclaration.equal (a b : LocalVariableDeclaration) : Bool :=
  a.modifiers == b.modifiers && a.type == b.type &&
    equalLists Declarator.equal a.declarators b.declarators

def SwitchLabel.equal : SwitchLabel → SwitchLabel → Bool
  | .default, .default => true
  | .expression a, .expression b => a.equal b
  | _, _ => false

def Resource.equal (a b : Resource) : Bool :=
  a.type == b.type && a.name == b.name && a.expression.equal b.expression &&
    a.lineNumber == b.lineNumber

def equalDeclarations : Option LocalVariableDeclaration → Option LocalVariableDeclaration → Bool
  | none, none => true
  | some a, some b => a.equal b
  | _, _ => false

def equalResources : Option (List Resource) → Option (List Resource) → Bool
  | none, none => true
  | some as, some bs => equalLists Resource.equal as bs
  | _, _ => false

mutual

def Statement.equal : Statement → Statement → Bool
  | .assertion condition message, .assertion condition' message' =>
      condition.equal condition' && equalOptional message message'
  | .breakTo a, .breakTo b => a == b
  | .continueTo a, .continueTo b => a == b
  | .comment a, .comment b => a == b
  | .byteCode a, .byteCode b => a == b
  | .doWhile condition body, .doWhile condition' body' =>
      condition.equal condition' && equalBodies body body'
  | .expression a, .expression b => a.equal b
  | .forLoop declaration init condition update body,
      .forLoop declaration' init' condition' update' body' =>
      equalDeclarations declaration declaration' && equalOptional init init' &&
        equalOptional condition condition' && equalOptional update update' &&
        equalBodies body body'
  | .forEach type name expression body, .forEach type' name' expression' body' =>
      type == type' && name == name' && expression.equal expression' && equalBodies body body'
  | .ifThen condition body, .ifThen condition' body' =>
      condition.equal condition' && equalBodies body body'
  | .ifElse condition whenTrue whenFalse, .ifElse condition' whenTrue' whenFalse' =>
      condition.equal condition' && whenTrue.equal whenTrue' && whenFalse.equal whenFalse'
  | .labelled label statement, .labelled label' statement' =>
      label == label' && equalBodies statement statement'
  | .lambdaExpression a, .lambdaExpression b => a.equal b
  | .localVariables a, .localVariables b => a.equal b
  | .returnVoid, .returnVoid => true
  | .returnValue expression lineNumber, .returnValue expression' lineNumber' =>
      expression.equal expression' && lineNumber == lineNumber'
  | .sequence as, .sequence bs => equalStatements as bs
  | .switch condition blocks, .switch condition' blocks' =>
      condition.equal condition' && equalBlocks blocks blocks'
  | .synchronized monitor body, .synchronized monitor' body' =>
      monitor.equal monitor' && equalBodies body body'
  | .throwing a, .throwing b => a.equal b
  | .tryCatch resources body catchClauses finallyBody,
      .tryCatch resources' body' catchClauses' finallyBody' =>
      equalResources resources resources' && body.equal body' &&
        equalClauses catchClauses catchClauses' && equalBodies finallyBody finallyBody'
  | .typeDeclaration a, .typeDeclaration b => a == b
  | .whileLoop condition body, .whileLoop condition' body' =>
      condition.equal condition' && equalBodies body body'
  | _, _ => false
termination_by structural a => a

def SwitchBlock.equal : SwitchBlock → SwitchBlock → Bool
  | .label label body, .label label' body' => label.equal label' && body.equal body'
  | .multiLabels labels body, .multiLabels labels' body' =>
      equalLists SwitchLabel.equal labels labels' && body.equal body'
  | _, _ => false
termination_by structural a => a

def CatchClause.equal : CatchClause → CatchClause → Bool
  | ⟨type, otherTypes, name, lineNumber, body⟩, b =>
      type == b.type && otherTypes == b.otherTypes && name == b.name &&
        lineNumber == b.lineNumber && body.equal b.body
termination_by structural a => a

def equalBodies : Option Statement → Option Statement → Bool
  | none, none => true
  | some a, some b => a.equal b
  | _, _ => false
termination_by structural a => a

def equalStatements : List Statement → List Statement → Bool
  | [], [] => true
  | a :: rest, b :: rest' => a.equal b && equalStatements rest rest'
  | _, _ => false
termination_by structural a => a

def equalBlocks : List SwitchBlock → List SwitchBlock → Bool
  | [], [] => true
  | a :: rest, b :: rest' => a.equal b && equalBlocks rest rest'
  | _, _ => false
termination_by structural a => a

def equalClauses : List CatchClause → List CatchClause → Bool
  | [], [] => true
  | a :: rest, b :: rest' => a.equal b && equalClauses rest rest'
  | _, _ => false
termination_by structural a => a

end

end JavaFragments
