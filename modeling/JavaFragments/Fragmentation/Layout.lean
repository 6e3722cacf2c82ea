import JavaFragments.Fragmentation.Event
import JavaFragments.Fragmentation.Head

/-! # Layouts of statements

The many kinds of statements come down to a few ways to put fragments together. A layout says how a
statement is put together out of phrases, spacers, blocks and the statements below it. One that
stands for itself is told apart from a row of clauses, which stands behind a block and goes on with
its group. So a row is never without a block in front of it, and what holds of all statements needs
one case for each way to build a layout, not one for each kind of statement. -/
set_option autoImplicit false

namespace JavaFragments

/-! ## Heads -/

/-- A phrase that is one fragment of its own. -/
inductive Head where
  /-- A word with a condition behind it. -/
  | guard (word : String) (condition : Expression)
  /-- The end of a loop that has its condition behind the body. -/
  | loopEnd (condition : Expression)
  | emptySynchronized (monitor : Expression)
  | assertion (condition : Expression) (message : Option Expression)
  /-- A word that may have a label behind it. -/
  | jump (word : String) (target : Option String)
  | comment (text : String)
  | expression (expression : Expression)
  | lambda (expression : Expression)
  | variables (declaration : LocalVariableDeclaration)
  | returnVoid
  | returnValue (expression : Expression) (lineNumber : Option UInt32)
  | throwing (expression : Expression)
  | label (name : String)
  /-- A label in front of its statement. -/
  | labelOf (name : String)
  | switchLabel (entry : SwitchLabel)
  | semicolon

def Head.phrase (env : Environment) : Head → Phrase
  | .guard word condition => guardHead env [word] condition
  | .loopEnd condition => guardHead env ["while"] condition ++ .ofToken .semicolon
  | .emptySynchronized monitor =>
      guardHead env ["synchronized"] monitor ++ .ofTokens [.space, .emptyBraces]
  | .assertion condition message => simpleStatement (assertionPhrase env condition message)
  | .jump word target => jumpPhrase word target
  | .comment text => commentPhrase text
  | .expression e => simpleStatement (e.phrase env)
  | .lambda e => e.phrase env
  | .variables declaration => simpleStatement (declaration.phrase env)
  | .returnVoid => .ofTokens [.keyword "return", .semicolon]
  | .returnValue e lineNumber => simpleStatement (returnPhrase env e lineNumber)
  | .throwing e => simpleStatement (.ofTokens [.keyword "throw", .space] ++ e.phrase env)
  | .label name => labelPhrase name
  | .labelOf name => labelPhrase name ++ .ofToken .space
  | .switchLabel entry => entry.phrase env
  | .semicolon => .ofToken .semicolon

inductive LoopHead where
  | whileLoop (condition : Expression)
  | forLoop (declaration : Option LocalVariableDeclaration)
      (init condition update : Option Expression)
  | forEach (type : JavaType) (name : String) (expression : Expression)

def LoopHead.phrase (env : Environment) : LoopHead → Phrase
  | .whileLoop condition => guardHead env ["while"] condition
  | .forLoop declaration init condition update => forHead env declaration init condition update
  | .forEach type name e => forEachHead env type name e

/-- The head of a block that goes on with a group. -/
inductive ClauseHead where
  | otherwise
  | otherwiseIf (condition : Expression)
  | catching (type : ClassType) (otherTypes : List ClassType) (name : String)
      (lineNumber : Option UInt32)
  | finally

namespace ClauseHead

def phrase (env : Environment) : ClauseHead → Phrase
  | .otherwise => .ofToken (.keyword "else")
  | .otherwiseIf condition => guardHead env ["else", "if"] condition
  | .catching type otherTypes name lineNumber => catchHead env type otherTypes name lineNumber
  | .finally => .ofToken (.keyword "finally")

/-- Whether the clause shrinks where it is the last one and its body prints nothing. -/
def isRetractable : ClauseHead → Bool
  | .catching .. => true
  | .finally => true
  | _ => false

end ClauseHead

/-! ## Layouts -/

/-- What a layout stands for: something of its own, or the rest of a group of blocks. -/
inductive Scope where
  | own | row

inductive Layout : Scope → Type where
  | nothing : Layout .own
  | said (head : Head) : Layout .own
  | spacer (kind : Spacer) : Layout .own
  | reported (event : Event) : Layout .own
  /-- A type declaration and the semicolon behind it. -/
  | declared (declaration : TypeDeclaration) : Layout .own
  /-- A statement for itself. -/
  | part (statement : Statement) : Layout .own
  | both (first second : Layout .own) : Layout .own
  /-- A loop, whose shape depends on what its body prints. -/
  | loop (head : LoopHead) (body : Layout .own) : Layout .own
  /-- A block of a group of its own, and the rest of the group. -/
  | block (kind : BlockKind) (body : Layout .own) (rest : Layout .row) : Layout .own
  /-- A `try` with resources. -/
  | attempt (resources : List Resource) (body : Statement) (rest : Layout .row) : Layout .own
  | done : Layout .row
  | clause (head : ClauseHead) (body : Layout .own) (rest : Layout .row) : Layout .row
  /-- A statement as the `else` branch of the group. -/
  | branch (statement : Statement) : Layout .row

namespace Layout

def isDone {scope : Scope} : Layout scope → Bool
  | .done => true
  | _ => false

/-- Layouts with a spacer between each two of them. -/
def spaced (kind : Spacer) : List (Layout .own) → Layout .own
  | [] => .nothing
  | [layout] => layout
  | layout :: rest => .both layout (.both (.spacer kind) (spaced kind rest))

/-- A body that may be missing. -/
def body : Option Statement → Layout .own
  | none => .nothing
  | some body => .part body

/-- The `catch` and `finally` clauses of a `try`. -/
def clauses (finallyBody : Option Statement) : List CatchClause → Layout .row
  | [] =>
      match finallyBody with
      | none => .done
      | some body => .clause .finally (.part body) .done
  | c :: rest =>
      .clause (.catching c.type c.otherTypes c.name c.lineNumber) (.part c.body)
        (clauses finallyBody rest)

/-- The labels of a `switch`, their body, and the spacers behind both. -/
def labelled (labels : Layout .own) (body : Statement) : Layout .own :=
  .both labels (.both (.spacer .afterSwitchLabel)
    (.both (.part body) (.spacer .afterSwitchBlock)))

/-- The body of an `if` without an `else`. Its shape goes by the number of its statements. -/
def guarded : Option Statement → Layout .own
  | none => .both (.reported .missingIfBody) (.said .semicolon)
  | some b =>
      match b.count with
      | 0 => .both (.reported .emptyIfBody) (.said .semicolon)
      | 1 => .block .singleStatement (.part b) .done
      | _ => .block .statements (.part b) .done

end Layout

def SwitchBlock.layout : SwitchBlock → Layout .own
  | .label entry body => .labelled (.said (.switchLabel entry)) body
  | .multiLabels entries body =>
      .labelled (.spaced .betweenSwitchLabels (entries.map fun entry => .said (.switchLabel entry)))
        body

namespace Statement

/-- The layout of a statement that stands for itself. -/
def layout : Statement → Layout .own
  | .assertion condition message => .said (.assertion condition message)
  | .breakTo label => .said (.jump "break" label)
  | .continueTo label => .said (.jump "continue" label)
  | .comment text => .said (.comment text)
  | .byteCode text => .said (.comment text)
  | .doWhile condition body =>
      .both (.block .doWhile (.body body) .done) (.said (.loopEnd condition))
  | .expression e => .said (.expression e)
  | .forLoop declaration init condition update body =>
      .loop (.forLoop declaration init condition update) (.body body)
  | .forEach type name e body => .loop (.forEach type name e) (.body body)
  | .ifThen condition body => .both (.said (.guard "if" condition)) (.guarded body)
  | .ifElse condition whenTrue whenFalse =>
      .both (.said (.guard "if" condition))
        (.block .statements (.part whenTrue) (.branch whenFalse))
  | .labelled label none => .said (.label label)
  | .labelled label (some s) => .both (.said (.labelOf label)) (.part s)
  | .lambdaExpression e => .said (.lambda e)
  | .localVariables declaration => .said (.variables declaration)
  | .returnVoid => .said .returnVoid
  | .returnValue e lineNumber => .said (.returnValue e lineNumber)
  | .sequence statements => .spaced .betweenStatements (statements.map .part)
  | .switch condition blocks =>
      .both (.said (.guard "switch" condition))
        (.both (.block .statements
            (.spaced .betweenSwitchLabelBlocks (blocks.map SwitchBlock.layout)) .done)
          (.spacer .afterEndStatementsBlock))
  | .synchronized monitor none => .said (.emptySynchronized monitor)
  | .synchronized monitor (some s) =>
      .both (.said (.guard "synchronized" monitor)) (.block .statements (.part s) .done)
  | .throwing e => .said (.throwing e)
  | .tryCatch none body catchClauses finallyBody =>
      .block .tryBody (.part body) (.clauses finallyBody catchClauses)
  | .tryCatch (some resources) body catchClauses finallyBody =>
      .attempt resources body (.clauses finallyBody catchClauses)
  | .typeDeclaration declaration => .declared declaration
  | .whileLoop condition body => .loop (.whileLoop condition) (.body body)

/-- The layout of a statement that stands as the `else` branch of a group. A conditional goes on
with the group, also from inside a list that holds nothing else. -/
def branchLayout : Statement → Layout .row
  | .ifThen condition body => .clause (.otherwiseIf condition) (.body body) .done
  | .ifElse condition whenTrue whenFalse =>
      .clause (.otherwiseIf condition) (.part whenTrue) (.branch whenFalse)
  | .sequence [statement] =>
      if statement.isConditional then .branch statement
      else .clause .otherwise (.part statement) .done
  | s => .clause .otherwise s.layout .done

end Statement

end JavaFragments
