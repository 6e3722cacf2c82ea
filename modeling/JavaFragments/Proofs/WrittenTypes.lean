import JavaFragments.Statement

/-! # The types written in a tree

`types` lists the types that stand in a tree, in the order in which they are printed. The class of
an allocation, a `catch` or a resource counts as a type. The name of a local type declaration is no
type that is written there. What stands inside a type is left to the reader of the list. -/
set_option autoImplicit false

namespace JavaFragments

mutual

def Expression.types : Expression → List JavaType
  | .field object _ => optionalTypes object
  | .call object _ arguments => optionalTypes object ++ expressionTypes arguments
  | .new type arguments => .classType type :: expressionTypes arguments
  | .binary _ left right => left.types ++ right.types
  | .unary _ operand => operand.types
  | .assignment _ target value => target.types ++ value.types
  | .typeCast type operand => type :: operand.types
  | .instanceOf operand type => operand.types ++ [type]
  | .conditional condition whenTrue whenFalse =>
      condition.types ++ whenTrue.types ++ whenFalse.types
  | .arrayAccess array index => array.types ++ index.types
  | .typeReference type => [type]
  | .lambda _ body => body.types
  | _ => []

def optionalTypes : Option Expression → List JavaType
  | none => []
  | some e => e.types

def expressionTypes : List Expression → List JavaType
  | [] => []
  | e :: rest => e.types ++ expressionTypes rest

end

def Declarator.types (d : Declarator) : List JavaType :=
  optionalTypes d.initializer

def LocalVariableDeclaration.types (d : LocalVariableDeclaration) : List JavaType :=
  d.type :: d.declarators.flatMap Declarator.types

def Resource.types (r : Resource) : List JavaType :=
  .classType r.type :: r.expression.types

def SwitchLabel.types : SwitchLabel → List JavaType
  | .default => []
  | .expression e => e.types

mutual

def Statement.types : Statement → List JavaType
  | .assertion condition message => condition.types ++ optionalTypes message
  | .doWhile condition body => bodyTypes body ++ condition.types
  | .expression e => e.types
  | .forLoop declaration init condition update body =>
      declaration.toList.flatMap LocalVariableDeclaration.types ++ optionalTypes init ++
        optionalTypes condition ++ optionalTypes update ++ bodyTypes body
  | .forEach type _ e body => type :: e.types ++ bodyTypes body
  | .ifThen condition body => condition.types ++ bodyTypes body
  | .ifElse condition whenTrue whenFalse =>
      condition.types ++ whenTrue.types ++ whenFalse.types
  | .labelled _ statement => bodyTypes statement
  | .lambdaExpression e => e.types
  | .localVariables declaration => declaration.types
  | .returnValue e _ => e.types
  | .sequence statements => statementTypes statements
  | .switch condition blocks => condition.types ++ switchBlockTypes blocks
  | .synchronized monitor body => monitor.types ++ bodyTypes body
  | .throwing e => e.types
  | .tryCatch resources body catchClauses finallyBody =>
      (resources.getD []).flatMap Resource.types ++ body.types ++ clauseTypes catchClauses ++
        bodyTypes finallyBody
  | .whileLoop condition body => condition.types ++ bodyTypes body
  | _ => []

def bodyTypes : Option Statement → List JavaType
  | none => []
  | some body => body.types

def statementTypes : List Statement → List JavaType
  | [] => []
  | statement :: rest => statement.types ++ statementTypes rest

def SwitchBlock.types : SwitchBlock → List JavaType
  | .label label body => label.types ++ body.types
  | .multiLabels labels body => labels.flatMap SwitchLabel.types ++ body.types

def switchBlockTypes : List SwitchBlock → List JavaType
  | [] => []
  | switchBlock :: rest => switchBlock.types ++ switchBlockTypes rest

def CatchClause.types : CatchClause → List JavaType
  | ⟨type, otherTypes, _, _, body⟩ => (type :: otherTypes).map .classType ++ body.types

def clauseTypes : List CatchClause → List JavaType
  | [] => []
  | catchClause :: rest => catchClause.types ++ clauseTypes rest

end

theorem expressionTypes_eq_flatMap (expressions : List Expression) :
    expressionTypes expressions = expressions.flatMap Expression.types := by
  induction expressions with
  | nil => rfl
  | cons e rest ih => rw [expressionTypes, ih, List.flatMap_cons]

theorem bodyTypes_eq_flatMap (body : Option Statement) :
    bodyTypes body = body.toList.flatMap Statement.types := by
  cases body with
  | none => rfl
  | some body => exact (List.flatMap_singleton ..).symm

theorem statementTypes_eq_flatMap (statements : List Statement) :
    statementTypes statements = statements.flatMap Statement.types := by
  induction statements with
  | nil => rfl
  | cons s rest ih => rw [statementTypes, ih, List.flatMap_cons]

theorem switchBlockTypes_eq_flatMap (blocks : List SwitchBlock) :
    switchBlockTypes blocks = blocks.flatMap SwitchBlock.types := by
  induction blocks with
  | nil => rfl
  | cons block rest ih => rw [switchBlockTypes, ih, List.flatMap_cons]

theorem clauseTypes_eq_flatMap (catchClauses : List CatchClause) :
    clauseTypes catchClauses = catchClauses.flatMap CatchClause.types := by
  induction catchClauses with
  | nil => rfl
  | cons c rest ih => rw [clauseTypes, ih, List.flatMap_cons]

end JavaFragments
