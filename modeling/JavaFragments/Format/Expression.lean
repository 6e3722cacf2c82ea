import JavaFragments.Expression
import JavaFragments.Format.Type

/-! # Expressions in the tree format -/
set_option autoImplicit false

namespace JavaFragments

mutual

def Expression.document : Expression → Document
  | .boolean value => .record [("kind", .ofWorded ExpressionTag.boolean), ("value", .bool value)]
  | .integer value =>
      .record [("kind", .ofWorded ExpressionTag.integer), ("value", .ofInt64 value)]
  | .long value => .record [("kind", .ofWorded ExpressionTag.long), ("value", .ofInt64 value)]
  | .double value =>
      .record [("kind", .ofWorded ExpressionTag.double), ("value", .double value)]
  | .character value =>
      .record [("kind", .ofWorded ExpressionTag.character), ("value", .ofCharacter value)]
  | .text value => .record [("kind", .ofWorded ExpressionTag.text), ("value", .text value)]
  | .nullLiteral => .record [("kind", .ofWorded ExpressionTag.nullLiteral)]
  | .thisReference => .record [("kind", .ofWorded ExpressionTag.thisReference)]
  | .named name => .record [("kind", .ofWorded ExpressionTag.named), ("name", .text name)]
  | .field object name =>
      .record [("kind", .ofWorded ExpressionTag.field),
        ("object", match object with
          | none => .null
          | some e => e.document),
        ("name", .text name)]
  | .call object name arguments =>
      .record [("kind", .ofWorded ExpressionTag.call),
        ("object", match object with
          | none => .null
          | some e => e.document),
        ("name", .text name), ("arguments", .list (expressionDocuments arguments))]
  | .new type arguments =>
      .record [("kind", .ofWorded ExpressionTag.new), ("ty", type.document),
        ("arguments", .list (expressionDocuments arguments))]
  | .binary operator left right =>
      .record [("kind", .ofWorded ExpressionTag.binary), ("operator", .ofWorded operator),
        ("left", left.document), ("right", right.document)]
  | .unary operator operand =>
      .record [("kind", .ofWorded ExpressionTag.unary), ("operator", .ofWorded operator),
        ("expr", operand.document)]
  | .assignment operator target value =>
      .record [("kind", .ofWorded ExpressionTag.assignment),
        ("operator", .ofOption .ofWorded operator), ("target", target.document),
        ("value", value.document)]
  | .typeCast type operand =>
      .record [("kind", .ofWorded ExpressionTag.typeCast), ("ty", type.document),
        ("expr", operand.document)]
  | .instanceOf operand type =>
      .record [("kind", .ofWorded ExpressionTag.instanceOf), ("expr", operand.document),
        ("ty", type.document)]
  | .conditional condition whenTrue whenFalse =>
      .record [("kind", .ofWorded ExpressionTag.conditional),
        ("condition", condition.document), ("then_expr", whenTrue.document),
        ("else_expr", whenFalse.document)]
  | .arrayAccess array index =>
      .record [("kind", .ofWorded ExpressionTag.arrayAccess), ("array", array.document),
        ("index", index.document)]
  | .typeReference type =>
      .record [("kind", .ofWorded ExpressionTag.typeReference), ("ty", type.document)]
  | .lambda parameters body =>
      .record [("kind", .ofWorded ExpressionTag.lambda),
        ("parameters", .list (parameters.map .text)), ("body", body.document)]

def expressionDocuments : List Expression → List Document
  | [] => []
  | e :: rest => e.document :: expressionDocuments rest

end

/-- The strings of a list that holds nothing else. -/
def Document.texts? (d : Document) : Option (List String) :=
  d.each fun x _ => x.text?

def Expression.read? (d : Document) : Option Expression :=
  match (d.tag? "kind" : Option ExpressionTag) with
  | none => none
  | some .boolean => (d.required "value" fun x _ => x.bool?).map .boolean
  | some .integer => (d.required "value" fun x _ => x.int64?).map .integer
  | some .long => (d.required "value" fun x _ => x.int64?).map .long
  | some .double => (d.required "value" fun x _ => x.number?).map .double
  | some .character => (d.required "value" fun x _ => x.character?).map .character
  | some .text => (d.required "value" fun x _ => x.text?).map .text
  | some .nullLiteral => some .nullLiteral
  | some .thisReference => some .thisReference
  | some .named => (d.required "name" fun x _ => x.text?).map .named
  | some .field => do
      let object ← d.optional "object" fun x _ => Expression.read? x
      let name ← d.required "name" fun x _ => x.text?
      some (.field object name)
  | some .call => do
      let object ← d.optional "object" fun x _ => Expression.read? x
      let name ← d.required "name" fun x _ => x.text?
      let arguments ← d.defaulted "arguments" [] fun x _ => x.each fun y _ => Expression.read? y
      some (.call object name arguments)
  | some .new => do
      let type ← d.required "ty" fun x _ => ClassType.read? x
      let arguments ← d.defaulted "arguments" [] fun x _ => x.each fun y _ => Expression.read? y
      some (.new type arguments)
  | some .binary => do
      let operator ← d.required "operator" fun x _ => x.nodeWord?
      let left ← d.required "left" fun x _ => Expression.read? x
      let right ← d.required "right" fun x _ => Expression.read? x
      some (.binary operator left right)
  | some .unary => do
      let operator ← d.required "operator" fun x _ => x.nodeWord?
      let operand ← d.required "expr" fun x _ => Expression.read? x
      some (.unary operator operand)
  | some .assignment => do
      let operator ← d.optional "operator" fun x _ => x.nodeWord?
      let target ← d.required "target" fun x _ => Expression.read? x
      let value ← d.required "value" fun x _ => Expression.read? x
      some (.assignment operator target value)
  | some .typeCast => do
      let type ← d.required "ty" fun x _ => JavaType.read? x
      let operand ← d.required "expr" fun x _ => Expression.read? x
      some (.typeCast type operand)
  | some .instanceOf => do
      let operand ← d.required "expr" fun x _ => Expression.read? x
      let type ← d.required "ty" fun x _ => JavaType.read? x
      some (.instanceOf operand type)
  | some .conditional => do
      let condition ← d.required "condition" fun x _ => Expression.read? x
      let whenTrue ← d.required "then_expr" fun x _ => Expression.read? x
      let whenFalse ← d.required "else_expr" fun x _ => Expression.read? x
      some (.conditional condition whenTrue whenFalse)
  | some .arrayAccess => do
      let array ← d.required "array" fun x _ => Expression.read? x
      let index ← d.required "index" fun x _ => Expression.read? x
      some (.arrayAccess array index)
  | some .typeReference => (d.required "ty" fun x _ => JavaType.read? x).map .typeReference
  | some .lambda => do
      let parameters ← d.defaulted "parameters" [] fun x _ => x.texts?
      let body ← d.required "body" fun x _ => Expression.read? x
      some (.lambda parameters body)
termination_by sizeOf d
decreasing_by all_goals omega

end JavaFragments
