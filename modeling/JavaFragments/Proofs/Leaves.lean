import JavaFragments.Fragment
import JavaFragments.Fragmentation.Head

/-! # The leaves of the source

A leaf is what the author of the source chose: a literal, a name, the parameters of a lambda, a
line of a comment, a class or the number of a line. `leaves` lists the leaves of a tree in the order
of the source. Among the tokens of its fragments, leaves are the references, the line numbers and
every text that is no punctuation and no operator. -/
set_option autoImplicit false

namespace JavaFragments

inductive Leaf where
  /-- A number, a character or a string, as it is written. -/
  | literal (text : String)
  /-- A variable, field, method, declarator, label or type variable. -/
  | name (text : String)
  /-- All parameters of a lambda. -/
  | parameters (names : List String)
  | commentLine (text : String)
  | reference (internalName name : String)
  | line (number : UInt32)

/-- The token that a leaf is printed as. -/
def Leaf.token (env : Environment) : Leaf → Token
  | .literal t => .text t
  | .name n => .text n
  | .parameters names => .text (String.intercalate ", " names)
  | .commentLine t => .text t
  | .reference internalName printed => .reference internalName printed (some env.currentType)
  | .line number => .lineNumber number

def punctuation : List Token :=
  [.space, .semicolon, .semicolonSpace, .colon, .spaceColonSpace, .spaceEqualSpace,
   .spaceArrowSpace, .spaceQuestionSpace, .commaSpace, .dot, .verticalLine, .openBracket,
   .spaceOpenBracket, .closeBracket, .openSquare, .closeSquare, .arrayDimension, .openAngle,
   .closeAngle, .questionMark, .emptyBraces]

/-- The marks that stand in types as well as in expressions, each with what it means to a reader. -/
def commonMarks {α : Type} (space dot comma dimension : α) : List (String × α) :=
  [(Token.space.print, space), (Token.dot.print, dot), (Token.commaSpace.print, comma),
   (Token.arrayDimension.print, dimension)]

/-- The texts of punctuation, operators and compound assignments. -/
def fixedTexts : List String :=
  punctuation.map Token.print ++ BinaryOperator.all.map BinaryOperator.symbol ++
    UnaryOperator.all.map UnaryOperator.symbol ++
    BinaryOperator.all.map fun operator => (assignmentToken (some operator)).print

def Token.isLeaf : Token → Bool
  | .reference .. => true
  | .lineNumber _ => true
  | .text t => !fixedTexts.contains t
  | _ => false

/-- No name in the leaf is empty or a fixed text, and no line of a comment is a fixed text. -/
def Leaf.Distinct : Leaf → Prop
  | .name n => n ≠ "" ∧ n ∉ fixedTexts
  | .parameters names => ∀ n ∈ names, n ≠ "" ∧ n ∉ fixedTexts
  | .commentLine t => t ∉ fixedTexts
  | _ => True

instance : DecidablePred Leaf.Distinct
  | .name n => inferInstanceAs (Decidable (n ≠ "" ∧ n ∉ fixedTexts))
  | .parameters names => inferInstanceAs (Decidable (∀ n ∈ names, n ≠ "" ∧ n ∉ fixedTexts))
  | .commentLine t => inferInstanceAs (Decidable (t ∉ fixedTexts))
  | .literal _ => inferInstanceAs (Decidable True)
  | .reference _ _ => inferInstanceAs (Decidable True)
  | .line _ => inferInstanceAs (Decidable True)

def lineLeaves (line : Option UInt32) : List Leaf :=
  line.toList.map .line

mutual

def JavaType.leaves : JavaType → List Leaf
  | .primitive _ => []
  | .classType t => t.leaves
  | .memberType member outer => outer.leaves ++ member.leaves
  | .typeVariable t => [.name t.name]

def ClassType.leaves : ClassType → List Leaf
  | ⟨internalName, _, name, none, _⟩ => [.reference internalName name]
  | ⟨internalName, _, name, some arguments, _⟩ =>
      .reference internalName name :: arguments.leaves

def TypeArgument.leaves : TypeArgument → List Leaf
  | .type t => t.leaves
  | .wildcard => []
  | .wildcardExtends bound => bound.leaves
  | .wildcardSuper bound => bound.leaves
  | .list first second rest => first.leaves ++ second.leaves ++ argumentLeaves rest

def argumentLeaves : List TypeArgument → List Leaf
  | [] => []
  | argument :: rest => argument.leaves ++ argumentLeaves rest

end

mutual

def Expression.leaves : Expression → List Leaf
  | .boolean _ => []
  | .integer value => [.literal (Literal.integer value)]
  | .long value => [.literal (Literal.long value)]
  | .double value => [.literal (Literal.double value)]
  | .character value => [.literal (Literal.character value)]
  | .text value => [.literal (Literal.text value)]
  | .nullLiteral => []
  | .thisReference => []
  | .named name => [.name name]
  | .field object name => optionalLeaves object ++ [.name name]
  | .call object name arguments =>
      optionalLeaves object ++ .name name :: expressionLeaves arguments
  | .new type arguments => type.leaves ++ expressionLeaves arguments
  | .binary _ left right => left.leaves ++ right.leaves
  | .unary _ operand => operand.leaves
  | .assignment _ target value => target.leaves ++ value.leaves
  | .typeCast type operand => type.leaves ++ operand.leaves
  | .instanceOf operand type => operand.leaves ++ type.leaves
  | .conditional condition whenTrue whenFalse =>
      condition.leaves ++ whenTrue.leaves ++ whenFalse.leaves
  | .arrayAccess array index => array.leaves ++ index.leaves
  | .typeReference type => type.leaves
  | .lambda parameters body => .parameters parameters :: body.leaves

def optionalLeaves : Option Expression → List Leaf
  | none => []
  | some e => e.leaves

def expressionLeaves : List Expression → List Leaf
  | [] => []
  | e :: rest => e.leaves ++ expressionLeaves rest

end

def Declarator.leaves (d : Declarator) : List Leaf :=
  .name d.name :: optionalLeaves d.initializer

def LocalVariableDeclaration.leaves (d : LocalVariableDeclaration) : List Leaf :=
  d.type.leaves ++ d.declarators.flatMap Declarator.leaves

def Resource.leaves (r : Resource) : List Leaf :=
  lineLeaves r.lineNumber ++ r.type.leaves ++ .name r.name :: r.expression.leaves

def SwitchLabel.leaves : SwitchLabel → List Leaf
  | .default => []
  | .expression e => e.leaves

mutual

def Statement.leaves : Statement → List Leaf
  | .assertion condition message => condition.leaves ++ optionalLeaves message
  | .breakTo label => label.toList.map .name
  | .continueTo label => label.toList.map .name
  | .comment text => (commentLines text).map .commentLine
  | .byteCode text => (commentLines text).map .commentLine
  | .doWhile condition body => bodyLeaves body ++ condition.leaves
  | .expression e => e.leaves
  | .forLoop declaration init condition update body =>
      declaration.toList.flatMap LocalVariableDeclaration.leaves ++ optionalLeaves init ++
        optionalLeaves condition ++ optionalLeaves update ++ bodyLeaves body
  | .forEach type name e body => type.leaves ++ .name name :: e.leaves ++ bodyLeaves body
  | .ifThen condition body => condition.leaves ++ bodyLeaves body
  | .ifElse condition whenTrue whenFalse =>
      condition.leaves ++ whenTrue.leaves ++ whenFalse.leaves
  | .labelled label statement => .name label :: bodyLeaves statement
  | .lambdaExpression e => e.leaves
  | .localVariables declaration => declaration.leaves
  | .returnVoid => []
  | .returnValue e lineNumber => lineLeaves lineNumber ++ e.leaves
  | .sequence statements => statementLeaves statements
  | .switch condition blocks => condition.leaves ++ switchBlockLeaves blocks
  | .synchronized monitor body => monitor.leaves ++ bodyLeaves body
  | .throwing e => e.leaves
  | .tryCatch resources body catchClauses finallyBody =>
      (resources.getD []).flatMap Resource.leaves ++ body.leaves ++ clauseLeaves catchClauses ++
        bodyLeaves finallyBody
  | .typeDeclaration declaration => [.reference declaration.internalName declaration.name]
  | .whileLoop condition body => condition.leaves ++ bodyLeaves body

def bodyLeaves : Option Statement → List Leaf
  | none => []
  | some body => body.leaves

def statementLeaves : List Statement → List Leaf
  | [] => []
  | statement :: rest => statement.leaves ++ statementLeaves rest

def SwitchBlock.leaves : SwitchBlock → List Leaf
  | .label label body => label.leaves ++ body.leaves
  | .multiLabels labels body => labels.flatMap SwitchLabel.leaves ++ body.leaves

def switchBlockLeaves : List SwitchBlock → List Leaf
  | [] => []
  | switchBlock :: rest => switchBlock.leaves ++ switchBlockLeaves rest

def CatchClause.leaves : CatchClause → List Leaf
  | ⟨type, otherTypes, name, lineNumber, body⟩ =>
      (type :: otherTypes).flatMap ClassType.leaves ++ .name name :: lineLeaves lineNumber ++
        body.leaves

def clauseLeaves : List CatchClause → List Leaf
  | [] => []
  | catchClause :: rest => catchClause.leaves ++ clauseLeaves rest

end

/-- The tokens of all fragments in a row. -/
def tokensIn (fragments : List Fragment) : List Token :=
  (fragments.filterMap Fragment.tokens?).flatten

end JavaFragments
