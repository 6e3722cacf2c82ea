import JavaFragments.Fragmentation.Declaration
import JavaFragments.Fragmentation.Draft

/-! # Writing statements into a draft

Each statement is an edit. The branches of an `if` and the clauses of a `try` share one group, and
an `if` that stands alone in an `else` branch goes on with the group it stands in. -/
set_option autoImplicit false

namespace JavaFragments

open Edit

mutual

def Statement.write (env : Environment) (writer : DeclarationWriter) (spot : Place) :
    Statement → Edit Unit
  | .assertion condition message =>
      placed env spot (say env (simpleStatement (assertionPhrase env condition message)))
  | .breakTo label => placed env spot (say env (jumpPhrase "break" label))
  | .continueTo label => placed env spot (say env (jumpPhrase "continue" label))
  | .comment text => placed env spot (say env (commentPhrase text))
  | .byteCode text => placed env spot (say env (commentPhrase text))
  | .doWhile condition body =>
      placed env spot do
        inBlock .doWhile (writeBody env writer body)
        say env (guardHead env ["while"] condition ++ .ofToken .semicolon)
  | .expression e => placed env spot (say env (simpleStatement (e.phrase env)))
  | .forLoop declaration init condition update body =>
      placed env spot
        (loop env (forHead env declaration init condition update) (writeBody env writer body))
  | .forEach type name e body =>
      placed env spot (loop env (forEachHead env type name e) (writeBody env writer body))
  | .ifThen condition body =>
      match spot with
      | .elseOf group => do
          say env (guardHead env ["else", "if"] condition)
          inReopened group (writeBody env writer body)
      | .alone => do
          say env (guardHead env ["if"] condition)
          match body with
          | none => do
              report .missingIfBody
              say env (.ofToken .semicolon)
          | some b =>
              match b.count with
              | 0 => do
                  report .emptyIfBody
                  say env (.ofToken .semicolon)
              | 1 => inBlock .singleStatement (b.write env writer .alone)
              | _ => inBlock .statements (b.write env writer .alone)
  | .ifElse condition whenTrue whenFalse =>
      match spot with
      | .elseOf group => do
          say env (guardHead env ["else", "if"] condition)
          inReopened group (whenTrue.write env writer .alone)
          whenFalse.write env writer (.elseOf group)
      | .alone => do
          say env (guardHead env ["if"] condition)
          let group ← openBlock .statements
          whenTrue.write env writer .alone
          closeBlock .statements group
          whenFalse.write env writer (.elseOf group)
  | .labelled label statement =>
      placed env spot (
        match statement with
        | none => say env (labelPhrase label)
        | some s => do
            say env (labelPhrase label ++ .ofToken .space)
            s.write env writer .alone)
  | .lambdaExpression e => placed env spot (say env (e.phrase env))
  | .localVariables declaration =>
      placed env spot (say env (simpleStatement (declaration.phrase env)))
  | .returnVoid => placed env spot (say env (.ofTokens [.keyword "return", .semicolon]))
  | .returnValue e lineNumber =>
      placed env spot (say env (simpleStatement (returnPhrase env e lineNumber)))
  | .sequence [] => placed env spot (pure ())
  | .sequence [statement] =>
      if statement.isConditional then statement.write env writer spot
      else placed env spot (statement.write env writer .alone)
  | .sequence (first :: rest) =>
      placed env spot do
        first.write env writer .alone
        writeFollowing env writer rest
  | .switch condition blocks =>
      placed env spot do
        say env (guardHead env ["switch"] condition)
        inBlock .statements (writeSwitchBlocks env writer blocks)
        spacer .afterEndStatementsBlock
  | .synchronized monitor body =>
      placed env spot (
        match body with
        | none =>
            say env (guardHead env ["synchronized"] monitor ++ .ofTokens [.space, .emptyBraces])
        | some s => do
            say env (guardHead env ["synchronized"] monitor)
            inBlock .statements (s.write env writer .alone))
  | .throwing e =>
      placed env spot
        (say env (simpleStatement (.ofTokens [.keyword "throw", .space] ++ e.phrase env)))
  | .tryCatch resources body catchClauses finallyBody =>
      placed env spot do
        let (group, opened) ← openTry env resources
        body.write env writer .alone
        let opened ← writeClauses env writer group opened catchClauses
        let opened ← writeFinally env writer group opened finallyBody
        closeLast group opened
  | .typeDeclaration declaration =>
      placed env spot do
        onSequence fun sequence =>
          { sequence with fragments := writer declaration env sequence.fragments }
        say env (.ofToken .semicolon)
  | .whileLoop condition body =>
      placed env spot (loop env (guardHead env ["while"] condition) (writeBody env writer body))

/-- A body that may be missing. -/
def writeBody (env : Environment) (writer : DeclarationWriter) : Option Statement → Edit Unit
  | none => pure ()
  | some body => body.write env writer .alone

/-- Statements behind another one, each with a spacer in front. -/
def writeFollowing (env : Environment) (writer : DeclarationWriter) :
    List Statement → Edit Unit
  | [] => pure ()
  | statement :: rest => do
      spacer .betweenStatements
      statement.write env writer .alone
      writeFollowing env writer rest

/-- The labels of a block, its body, and the spacers behind both. -/
def SwitchBlock.write (env : Environment) (writer : DeclarationWriter) : SwitchBlock → Edit Unit
  | .label label body => do
      say env (label.phrase env)
      spacer .afterSwitchLabel
      body.write env writer .alone
      spacer .afterSwitchBlock
  | .multiLabels labels body => do
      sayLabels env labels
      spacer .afterSwitchLabel
      body.write env writer .alone
      spacer .afterSwitchBlock

def writeSwitchBlocks (env : Environment) (writer : DeclarationWriter) :
    List SwitchBlock → Edit Unit
  | [] => pure ()
  | [switchBlock] => switchBlock.write env writer
  | switchBlock :: rest => do
      switchBlock.write env writer
      spacer .betweenSwitchLabelBlocks
      writeSwitchBlocks env writer rest

/-- The clause that stands open behind a `catch` clause. -/
def CatchClause.write (env : Environment) (writer : DeclarationWriter) (group : Group)
    (opened : OpenClause) : CatchClause → Edit OpenClause
  | ⟨type, otherTypes, name, lineNumber, body⟩ => do
      let next ← nextClause env group opened (catchHead env type otherTypes name lineNumber)
      body.write env writer .alone
      return next

def writeClauses (env : Environment) (writer : DeclarationWriter) (group : Group)
    (opened : OpenClause) : List CatchClause → Edit OpenClause
  | [] => return opened
  | catchClause :: rest => do
      let next ← catchClause.write env writer group opened
      writeClauses env writer group next rest

def writeFinally (env : Environment) (writer : DeclarationWriter) (group : Group)
    (opened : OpenClause) : Option Statement → Edit OpenClause
  | none => return opened
  | some body => do
      let next ← nextClause env group opened (.ofToken (.keyword "finally"))
      body.write env writer .alone
      return next

end

end JavaFragments
