import JavaFragments.Environment
import JavaFragments.Format.Expression
import JavaFragments.Statement

/-! # Statements in the tree format -/
set_option autoImplicit false

namespace JavaFragments

def Environment.document (env : Environment) : Document :=
  .record [("current_internal_type_name", .text env.currentType)]

def Environment.read? (d : Document) : Option Environment :=
  (d.required "current_internal_type_name" fun x _ => x.text?).map Environment.mk

def TypeDeclaration.fields (t : TypeDeclaration) : List (String × Document) :=
  [("modifiers", .ofModifiers t.modifiers), ("type_kind", .ofWorded t.typeKind),
    ("internal_name", .text t.internalName), ("name", .text t.name)]

def TypeDeclaration.read? (d : Document) : Option TypeDeclaration := do
  let modifiers ← d.defaulted "modifiers" Modifiers.none fun x _ => x.modifiers?
  let typeKind ← d.required "type_kind" fun x _ => x.nodeWord?
  let internalName ← d.required "internal_name" fun x _ => x.text?
  let name ← d.required "name" fun x _ => x.text?
  some ⟨modifiers, typeKind, internalName, name⟩

def Declarator.document (t : Declarator) : Document :=
  .record [("name", .text t.name), ("dimension", .ofWord32 t.dimension),
    ("initializer", .ofOption Expression.document t.initializer)]

def Declarator.read? (d : Document) : Option Declarator := do
  let name ← d.required "name" fun x _ => x.text?
  let dimension ← d.defaulted "dimension" 0 fun x _ => x.word32?
  let initializer ← d.optional "initializer" fun x _ => Expression.read? x
  some ⟨name, dimension, initializer⟩

def LocalVariableDeclaration.fields (t : LocalVariableDeclaration) :
    List (String × Document) :=
  [("modifiers", .ofModifiers t.modifiers), ("ty", t.type.document),
    ("declarators", .list (t.declarators.map Declarator.document))]

def LocalVariableDeclaration.document (t : LocalVariableDeclaration) :
    Document :=
  .record (t.fields)

def LocalVariableDeclaration.read? (d : Document) : Option LocalVariableDeclaration := do
  let modifiers ← d.defaulted "modifiers" Modifiers.none fun x _ => x.modifiers?
  let type ← d.required "ty" fun x _ => JavaType.read? x
  let declarators ← d.required "declarators" fun x _ => x.each fun y _ => Declarator.read? y
  some ⟨modifiers, type, declarators⟩

def SwitchLabel.document : SwitchLabel → Document
  | .default => .record [("kind", .ofWorded SwitchLabelTag.default)]
  | .expression e =>
      .record [("kind", .ofWorded SwitchLabelTag.expression), ("expression", e.document)]

def SwitchLabel.read? (d : Document) : Option SwitchLabel :=
  match (d.tag? "kind" : Option SwitchLabelTag) with
  | none => none
  | some .default => some .default
  | some .expression => (d.required "expression" fun x _ => Expression.read? x).map .expression

def Resource.document (r : Resource) : Document :=
  .record [("ty", r.type.document), ("name", .text r.name),
    ("expression", r.expression.document),
    ("line_number", .ofOption .ofWord32 r.lineNumber)]

def Resource.read? (d : Document) : Option Resource := do
  let type ← d.required "ty" fun x _ => ClassType.read? x
  let name ← d.required "name" fun x _ => x.text?
  let expression ← d.required "expression" fun x _ => Expression.read? x
  let lineNumber ← d.optional "line_number" fun x _ => x.word32?
  some ⟨type, name, expression, lineNumber⟩

mutual

def Statement.document : Statement → Document
  | .assertion condition message =>
      .record [("kind", .ofWorded StatementTag.assertion), ("condition", condition.document),
        ("message", .ofOption Expression.document message)]
  | .breakTo label =>
      .record [("kind", .ofWorded StatementTag.breakTo), ("label", .ofOption .text label)]
  | .continueTo label =>
      .record [("kind", .ofWorded StatementTag.continueTo), ("label", .ofOption .text label)]
  | .comment text => .record [("kind", .ofWorded StatementTag.comment), ("text", .text text)]
  | .byteCode text => .record [("kind", .ofWorded StatementTag.byteCode), ("text", .text text)]
  | .doWhile condition body =>
      .record [("kind", .ofWorded StatementTag.doWhile), ("condition", condition.document),
        ("statements", bodyDocument body)]
  | .expression e =>
      .record [("kind", .ofWorded StatementTag.expression), ("expression", e.document)]
  | .forLoop declaration init condition update body =>
      .record [("kind", .ofWorded StatementTag.forLoop),
        ("declaration", .ofOption LocalVariableDeclaration.document declaration),
        ("init", .ofOption Expression.document init),
        ("condition", .ofOption Expression.document condition),
        ("update", .ofOption Expression.document update),
        ("statements", bodyDocument body)]
  | .forEach type name e body =>
      .record [("kind", .ofWorded StatementTag.forEach), ("ty", type.document),
        ("name", .text name), ("expression", e.document),
        ("statements", bodyDocument body)]
  | .ifThen condition body =>
      .record [("kind", .ofWorded StatementTag.ifThen), ("condition", condition.document),
        ("statements", bodyDocument body)]
  | .ifElse condition whenTrue whenFalse =>
      .record [("kind", .ofWorded StatementTag.ifElse), ("condition", condition.document),
        ("statements", whenTrue.document), ("else_statements", whenFalse.document)]
  | .labelled label statement =>
      .record [("kind", .ofWorded StatementTag.labelled), ("label", .text label),
        ("statement", bodyDocument statement)]
  | .lambdaExpression e =>
      .record [("kind", .ofWorded StatementTag.lambdaExpression), ("expression", e.document)]
  | .localVariables declaration =>
      .record (("kind", .ofWorded StatementTag.localVariables) :: declaration.fields)
  | .returnVoid => .record [("kind", .ofWorded StatementTag.returnVoid)]
  | .returnValue e lineNumber =>
      .record [("kind", .ofWorded StatementTag.returnValue), ("expression", e.document),
        ("line_number", .ofOption .ofWord32 lineNumber)]
  | .sequence statements =>
      .record [("kind", .ofWorded StatementTag.sequence),
        ("statements", .list (statementDocuments statements))]
  | .switch condition blocks =>
      .record [("kind", .ofWorded StatementTag.switch), ("condition", condition.document),
        ("blocks", .list (switchBlockDocuments blocks))]
  | .synchronized monitor body =>
      .record [("kind", .ofWorded StatementTag.synchronized), ("monitor", monitor.document),
        ("statements", bodyDocument body)]
  | .throwing e =>
      .record [("kind", .ofWorded StatementTag.throwing), ("expression", e.document)]
  | .tryCatch resources body catchClauses finallyBody =>
      .record [("kind", .ofWorded StatementTag.tryCatch),
        ("resources", .ofOption (fun rs => .list (rs.map Resource.document)) resources),
        ("try_statements", body.document),
        ("catch_clauses", .list (catchClauseDocuments catchClauses)),
        ("finally_statements", bodyDocument finallyBody)]
  | .typeDeclaration declaration =>
      .record (("kind", .ofWorded StatementTag.typeDeclaration) :: declaration.fields)
  | .whileLoop condition body =>
      .record [("kind", .ofWorded StatementTag.whileLoop), ("condition", condition.document),
        ("statements", bodyDocument body)]

def bodyDocument : Option Statement → Document
  | none => .null
  | some body => body.document

def statementDocuments : List Statement → List Document
  | [] => []
  | statement :: rest => statement.document :: statementDocuments rest

def SwitchBlock.document : SwitchBlock → Document
  | .label label body =>
      .record [("kind", .ofWorded SwitchBlockTag.label), ("label", label.document),
        ("statements", body.document)]
  | .multiLabels labels body =>
      .record [("kind", .ofWorded SwitchBlockTag.multiLabels),
        ("labels", .list (labels.map SwitchLabel.document)),
        ("statements", body.document)]

def switchBlockDocuments : List SwitchBlock → List Document
  | [] => []
  | switchBlock :: rest => switchBlock.document :: switchBlockDocuments rest

def CatchClause.document : CatchClause → Document
  | ⟨type, otherTypes, name, lineNumber, body⟩ =>
      .record [("ty", type.document), ("other_types", .list (otherTypes.map ClassType.document)),
        ("name", .text name), ("line_number", .ofOption .ofWord32 lineNumber),
        ("statements", body.document)]

def catchClauseDocuments : List CatchClause → List Document
  | [] => []
  | catchClause :: rest => catchClause.document :: catchClauseDocuments rest

end

mutual

def Statement.read? (d : Document) : Option Statement :=
  match (d.tag? "kind" : Option StatementTag) with
  | none => none
  | some .assertion => do
      let condition ← d.required "condition" fun x _ => Expression.read? x
      let message ← d.optional "message" fun x _ => Expression.read? x
      some (.assertion condition message)
  | some .breakTo => (d.optional "label" fun x _ => x.text?).map .breakTo
  | some .continueTo => (d.optional "label" fun x _ => x.text?).map .continueTo
  | some .comment => (d.required "text" fun x _ => x.text?).map .comment
  | some .byteCode => (d.required "text" fun x _ => x.text?).map .byteCode
  | some .doWhile => do
      let condition ← d.required "condition" fun x _ => Expression.read? x
      let body ← d.optional "statements" fun x _ => Statement.read? x
      some (.doWhile condition body)
  | some .expression => (d.required "expression" fun x _ => Expression.read? x).map .expression
  | some .forLoop => do
      let declaration ← d.optional "declaration" fun x _ => LocalVariableDeclaration.read? x
      let init ← d.optional "init" fun x _ => Expression.read? x
      let condition ← d.optional "condition" fun x _ => Expression.read? x
      let update ← d.optional "update" fun x _ => Expression.read? x
      let body ← d.optional "statements" fun x _ => Statement.read? x
      some (.forLoop declaration init condition update body)
  | some .forEach => do
      let type ← d.required "ty" fun x _ => JavaType.read? x
      let name ← d.required "name" fun x _ => x.text?
      let expression ← d.required "expression" fun x _ => Expression.read? x
      let body ← d.optional "statements" fun x _ => Statement.read? x
      some (.forEach type name expression body)
  | some .ifThen => do
      let condition ← d.required "condition" fun x _ => Expression.read? x
      let body ← d.optional "statements" fun x _ => Statement.read? x
      some (.ifThen condition body)
  | some .ifElse => do
      let condition ← d.required "condition" fun x _ => Expression.read? x
      let whenTrue ← d.required "statements" fun x _ => Statement.read? x
      let whenFalse ← d.required "else_statements" fun x _ => Statement.read? x
      some (.ifElse condition whenTrue whenFalse)
  | some .labelled => do
      let label ← d.required "label" fun x _ => x.text?
      let statement ← d.optional "statement" fun x _ => Statement.read? x
      some (.labelled label statement)
  | some .lambdaExpression =>
      (d.required "expression" fun x _ => Expression.read? x).map .lambdaExpression
  | some .localVariables => (LocalVariableDeclaration.read? d).map .localVariables
  | some .returnVoid => some .returnVoid
  | some .returnValue => do
      let expression ← d.required "expression" fun x _ => Expression.read? x
      let lineNumber ← d.optional "line_number" fun x _ => x.word32?
      some (.returnValue expression lineNumber)
  | some .sequence =>
      (d.defaulted "statements" [] fun x _ => x.each fun y _ => Statement.read? y).map .sequence
  | some .switch => do
      let condition ← d.required "condition" fun x _ => Expression.read? x
      let blocks ← d.defaulted "blocks" [] fun x _ => x.each fun y _ => SwitchBlock.read? y
      some (.switch condition blocks)
  | some .synchronized => do
      let monitor ← d.required "monitor" fun x _ => Expression.read? x
      let body ← d.optional "statements" fun x _ => Statement.read? x
      some (.synchronized monitor body)
  | some .throwing => (d.required "expression" fun x _ => Expression.read? x).map .throwing
  | some .tryCatch => do
      let resources ← d.optional "resources" fun x _ => x.each fun y _ => Resource.read? y
      let body ← d.required "try_statements" fun x _ => Statement.read? x
      let catchClauses ←
        d.defaulted "catch_clauses" [] fun x _ => x.each fun y _ => CatchClause.read? y
      let finallyBody ← d.optional "finally_statements" fun x _ => Statement.read? x
      some (.tryCatch resources body catchClauses finallyBody)
  | some .typeDeclaration => (TypeDeclaration.read? d).map .typeDeclaration
  | some .whileLoop => do
      let condition ← d.required "condition" fun x _ => Expression.read? x
      let body ← d.optional "statements" fun x _ => Statement.read? x
      some (.whileLoop condition body)
termination_by sizeOf d
decreasing_by all_goals omega

def SwitchBlock.read? (d : Document) : Option SwitchBlock :=
  match (d.tag? "kind" : Option SwitchBlockTag) with
  | none => none
  | some .label => do
      let label ← d.required "label" fun x _ => SwitchLabel.read? x
      let body ← d.required "statements" fun x _ => Statement.read? x
      some (.label label body)
  | some .multiLabels => do
      let labels ← d.required "labels" fun x _ => x.each fun y _ => SwitchLabel.read? y
      let body ← d.required "statements" fun x _ => Statement.read? x
      some (.multiLabels labels body)
termination_by sizeOf d
decreasing_by all_goals omega

def CatchClause.read? (d : Document) : Option CatchClause := do
  let type ← d.required "ty" fun x _ => ClassType.read? x
  let otherTypes ← d.defaulted "other_types" [] fun x _ => x.each fun y _ => ClassType.read? y
  let name ← d.required "name" fun x _ => x.text?
  let lineNumber ← d.optional "line_number" fun x _ => x.word32?
  let body ← d.required "statements" fun x _ => Statement.read? x
  some ⟨type, otherTypes, name, lineNumber, body⟩
termination_by sizeOf d
decreasing_by all_goals omega

end

end JavaFragments
