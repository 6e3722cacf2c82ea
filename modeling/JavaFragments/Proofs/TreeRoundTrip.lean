import JavaFragments.Proofs.ExpressionParts
import JavaFragments.Proofs.FieldReading
import JavaFragments.Proofs.Parts

/-! # Reading trees back

Reading the document of a tree gives the tree. A type is read from any document that shows its
fields, since it stands in the record of an argument beside the tag of the argument. -/
set_option autoImplicit false

namespace JavaFragments

open Document

namespace Document

/-- The document has these fields, perhaps beside others. -/
def Shows (d : Document) (fields : List (String × Document)) : Prop :=
  ∀ name x, fields.lookup name = some x → d.find? name = some x

theorem shows_record (fields : List (String × Document)) : (record fields).Shows fields :=
  fun _ _ h => h

/-- Fields behind another one whose name they do not use. -/
theorem Shows.behind {d x : Document} {key : String} {fields : List (String × Document)}
    (h : d.Shows ((key, x) :: fields)) (hfresh : fields.lookup key = none) : d.Shows fields := by
  intro name y hname
  refine h name y ?_
  have hcons := find?_record name key x fields
  by_cases heq : name = key
  · rw [heq, hfresh] at hname
    cases hname
  · rw [if_neg heq] at hcons
    exact hcons.trans hname

end Document

/-! ## Types -/

theorem JavaType.fields_argument (t : JavaType) : t.fields.lookup "argument" = none := by
  cases t with
  | primitive | memberType | typeVariable => rfl
  | classType t => cases t; rfl

theorem ClassType.fields_kind (t : ClassType) : t.fields.lookup "kind" = none := by
  cases t
  rfl

theorem argumentDocuments_eq_map (arguments : List TypeArgument) :
    argumentDocuments arguments = arguments.map TypeArgument.document := by
  induction arguments with
  | nil => rfl
  | cons argument rest ih => rw [argumentDocuments, ih, List.map_cons, TypeArgument.document]

theorem PrimitiveType.read?_of_shows {d : Document} {t : PrimitiveType} (h : d.Shows t.fields) :
    PrimitiveType.readBy? nodeWord? d = some t := by
  have hkind := h "primitive" _ rfl
  have hdimension := h "dimension" _ rfl
  simp [PrimitiveType.readBy?, hkind, hdimension]

theorem TypeVariable.read?_of_shows {d : Document} {t : TypeVariable} (h : d.Shows t.fields) :
    TypeVariable.read? d = some t := by
  have hname := h "name" _ rfl
  have hdimension := h "dimension" _ rfl
  simp [TypeVariable.read?, hname, hdimension]

-- A type in an argument is read from the record of the argument, so these three speak of any
-- document that shows the fields. The tag of a type comes off the front of its fields.
mutual

theorem JavaType.read?_of_shows : (t : JavaType) → {d : Document} → d.Shows t.fields →
    JavaType.read? d = some t
  | .primitive t, d, h => by
      have htag : d.tag? "kind" = some TypeTag.primitive := tag?_of_find? (h "kind" _ rfl)
      rw [JavaType.read?, htag]
      exact congrArg (Option.map JavaType.primitive)
        (PrimitiveType.read?_of_shows (h.behind rfl))
  | .classType t, d, h => by
      have htag : d.tag? "kind" = some TypeTag.classType := tag?_of_find? (h "kind" _ rfl)
      rw [JavaType.read?, htag]
      exact congrArg (Option.map JavaType.classType)
        (t.read?_of_shows (h.behind t.fields_kind))
  | .memberType member outer, d, h => by
      have htag : d.tag? "kind" = some TypeTag.memberType := tag?_of_find? (h "kind" _ rfl)
      have hmember := h "inner" _ rfl
      have houter := h "outer" _ rfl
      rw [JavaType.read?, htag]
      simp [hmember, houter, member.read?_of_shows (shows_record _),
        outer.read?_of_shows (shows_record _)]
  | .typeVariable t, d, h => by
      have htag : d.tag? "kind" = some TypeTag.typeVariable := tag?_of_find? (h "kind" _ rfl)
      rw [JavaType.read?, htag]
      exact congrArg (Option.map JavaType.typeVariable)
        (TypeVariable.read?_of_shows (h.behind rfl))

theorem ClassType.read?_of_shows : (t : ClassType) → {d : Document} → d.Shows t.fields →
    ClassType.read? d = some t
  | ⟨internalName, qualifiedName, name, none, dimension⟩, d, h => by
      rw [ClassType.read?]
      simp [h "internal_name" _ rfl, h "qualified_name" _ rfl, h "name" _ rfl,
        h "type_arguments" _ rfl, h "dimension" _ rfl]
  | ⟨internalName, qualifiedName, name, some arguments, dimension⟩, d, h => by
      have harguments : TypeArgument.read? (record arguments.fields) = some arguments :=
        arguments.read?_of_shows (shows_record _)
      rw [ClassType.read?]
      simp [h "internal_name" _ rfl, h "qualified_name" _ rfl, h "name" _ rfl,
        h "type_arguments" _ rfl, h "dimension" _ rfl, harguments]

theorem TypeArgument.read?_of_shows : (t : TypeArgument) → {d : Document} → d.Shows t.fields →
    TypeArgument.read? d = some t
  | .type t, d, h => by
      have htag : d.tag? "argument" = some ArgumentTag.type := tag?_of_find? (h "argument" _ rfl)
      rw [TypeArgument.read?, htag]
      exact congrArg (Option.map TypeArgument.type)
        (t.read?_of_shows (h.behind t.fields_argument))
  | .wildcard, d, h => by
      have htag : d.tag? "argument" = some ArgumentTag.wildcard :=
        tag?_of_find? (h "argument" _ rfl)
      rw [TypeArgument.read?, htag]
  | .wildcardExtends bound, d, h => by
      have htag : d.tag? "argument" = some ArgumentTag.wildcardExtends :=
        tag?_of_find? (h "argument" _ rfl)
      have hbound := h "bound" _ rfl
      rw [TypeArgument.read?, htag]
      simp [hbound, bound.read?_of_shows (shows_record _)]
  | .wildcardSuper bound, d, h => by
      have htag : d.tag? "argument" = some ArgumentTag.wildcardSuper :=
        tag?_of_find? (h "argument" _ rfl)
      have hbound := h "bound" _ rfl
      rw [TypeArgument.read?, htag]
      simp [hbound, bound.read?_of_shows (shows_record _)]
  | .list first second rest, d, h => by
      have htag : d.tag? "argument" = some ArgumentTag.list := tag?_of_find? (h "argument" _ rfl)
      have hall : ∀ argument ∈ first :: second :: rest,
          TypeArgument.read? argument.document = some argument := by
        rw [List.forall_mem_cons, List.forall_mem_cons]
        exact ⟨first.read?_of_shows (shows_record _), second.read?_of_shows (shows_record _),
          typeArguments_read?_of_shows rest⟩
      have htypes := h "types" _ rfl
      rw [argumentDocuments_eq_map] at htypes
      have heach : ((list ((first :: second :: rest).map TypeArgument.document)).each
          fun x _ => TypeArgument.read? x) = some (first :: second :: rest) := each_list hall
      have hrequired : (d.required "types" fun x _ => x.each fun y _ => TypeArgument.read? y) =
          some (first :: second :: rest) := by
        rw [required_eq_bind d "types" fun x => x.each fun y _ => TypeArgument.read? y, htypes]
        exact heach
      rw [TypeArgument.read?, htag]
      dsimp only
      rw [hrequired]

theorem typeArguments_read?_of_shows : (arguments : List TypeArgument) →
    ∀ argument ∈ arguments, TypeArgument.read? argument.document = some argument
  | [] => fun _ h => nomatch h
  | argument :: rest => by
      rw [List.forall_mem_cons]
      exact ⟨argument.read?_of_shows (shows_record _), typeArguments_read?_of_shows rest⟩

end

@[simp] theorem JavaType.read?_document (t : JavaType) : JavaType.read? t.document = some t :=
  t.read?_of_shows (shows_record _)

@[simp] theorem ClassType.read?_document (t : ClassType) : ClassType.read? t.document = some t :=
  t.read?_of_shows (shows_record _)

/-! ## Expressions -/

@[simp] theorem Expression.read?_null : Expression.read? .null = none := by
  rw [Expression.read?]
  rfl

@[simp] theorem texts?_map (texts : List String) :
    (list (texts.map .text)).texts? = some texts :=
  each_list fun _ _ => rfl

@[simp] theorem optionalOf_operator (operator : Option BinaryOperator) :
    optionalOf nodeWord? (some (ofOption ofWorded operator)) = some operator :=
  optionalOf_ofOption rfl fun operator _ => nodeWord?_ofWorded operator

@[simp] theorem number?_double (x : Double) : number? (.double x) = some x := rfl

theorem expressionDocuments_eq_map (expressions : List Expression) :
    expressionDocuments expressions = expressions.map Expression.document := by
  induction expressions with
  | nil => rfl
  | cons e rest ih => rw [expressionDocuments, ih, List.map_cons]

theorem Expression.document_field (object : Option Expression) (name : String) :
    (Expression.field object name).document =
      record [("kind", ofWorded ExpressionTag.field),
        ("object", ofOption Expression.document object), ("name", .text name)] := by
  cases object <;> rw [document] <;> rfl

theorem Expression.document_call (object : Option Expression) (name : String)
    (arguments : List Expression) :
    (Expression.call object name arguments).document =
      record [("kind", ofWorded ExpressionTag.call),
        ("object", ofOption Expression.document object), ("name", .text name),
        ("arguments", list (expressionDocuments arguments))] := by
  cases object <;> rw [document] <;> rfl

/-- The expression is read from the document that is written for it. -/
def Expression.RoundTrips (e : Expression) : Prop :=
  Expression.read? (e.document) = some e

theorem optionalOf_expression {e : Option Expression}
    (h : ∀ part ∈ e.toList, part.RoundTrips) :
    optionalOf Expression.read? (some (ofOption Expression.document e)) = some e :=
  optionalOf_ofOption Expression.read?_null fun part hpart => h part (by simpa using hpart)

theorem each_expressionDocuments {expressions : List Expression}
    (h : ∀ part ∈ expressions, part.RoundTrips) :
    ((list (expressionDocuments expressions)).each fun x _ => Expression.read? x) =
      some expressions := by
  rw [expressionDocuments_eq_map]
  exact each_list h

theorem Expression.roundTrips (e : Expression) : e.RoundTrips := by
  induction e using Expression.induction_on_parts with
  | step e h =>
  rw [RoundTrips]
  cases e with
  | boolean | integer | long | double | character | text | nullLiteral | thisReference | named
  | typeReference =>
      rw [document, read?]
      simp
  | field object name =>
      rw [parts] at h
      have hobject := optionalOf_expression h
      rw [document_field, read?]
      simp [hobject]
  | call object name arguments =>
      rw [parts, List.forall_mem_append] at h
      obtain ⟨hobject, harguments⟩ := h
      have hobject := optionalOf_expression hobject
      have harguments := each_expressionDocuments harguments
      rw [document_call, read?]
      simp [hobject, harguments]
  | new type arguments =>
      rw [parts] at h
      have harguments := each_expressionDocuments h
      rw [document, read?]
      simp [harguments]
  | binary operator left right | assignment operator left right | arrayAccess left right =>
      obtain ⟨hleft, hright⟩ : left.RoundTrips ∧ right.RoundTrips := by
        simpa [parts] using h
      rw [RoundTrips] at hleft hright
      rw [document, read?]
      simp [hleft, hright]
  | unary _ operand | typeCast _ operand | instanceOf operand | lambda _ operand =>
      have hoperand : operand.RoundTrips := by simpa [parts] using h
      rw [RoundTrips] at hoperand
      rw [document, read?]
      simp [hoperand]
  | conditional condition whenTrue whenFalse =>
      obtain ⟨hcondition, hwhenTrue, hwhenFalse⟩ :
          condition.RoundTrips ∧ whenTrue.RoundTrips ∧ whenFalse.RoundTrips := by
        simpa [parts] using h
      rw [RoundTrips] at hcondition hwhenTrue hwhenFalse
      rw [document, read?]
      simp [hcondition, hwhenTrue, hwhenFalse]

@[simp] theorem Expression.read?_document (e : Expression) :
    Expression.read? (e.document) = some e :=
  e.roundTrips

/-! ## Declarations, labels and resources -/

@[simp] theorem optionalOf_optionalExpression (e : Option Expression) :
    optionalOf Expression.read? (some (ofOption Expression.document e)) = some e :=
  optionalOf_expression fun part _ => part.roundTrips

@[simp] theorem optionalOf_lineNumber (lineNumber : Option UInt32) :
    optionalOf word32? (some (ofOption ofWord32 lineNumber)) = some lineNumber :=
  optionalOf_ofOption rfl fun n _ => word32?_ofWord32 n

@[simp] theorem optionalOf_label (label : Option String) :
    optionalOf text? (some (ofOption .text label)) = some label :=
  optionalOf_ofOption rfl fun text _ => text?_text text

theorem TypeDeclaration.read?_of_shows {d : Document} {t : TypeDeclaration}
    (h : d.Shows t.fields) : TypeDeclaration.read? d = some t := by
  simp [TypeDeclaration.read?, h "modifiers" _ rfl, h "type_kind" _ rfl,
    h "internal_name" _ rfl, h "name" _ rfl]

theorem Declarator.read?_document (t : Declarator) :
    Declarator.read? (t.document) = some t := by
  simp [document, Declarator.read?]

theorem LocalVariableDeclaration.read?_of_shows {d : Document} {t : LocalVariableDeclaration}
    (h : d.Shows (t.fields)) : LocalVariableDeclaration.read? d = some t := by
  have hdeclarators : ((list (t.declarators.map Declarator.document)).each fun x _ =>
      Declarator.read? x) = some t.declarators :=
    each_list fun declarator _ => declarator.read?_document
  simp [LocalVariableDeclaration.read?, h "modifiers" _ rfl, h "ty" _ rfl,
    h "declarators" _ rfl, hdeclarators]

@[simp] theorem optionalOf_declaration (t : Option LocalVariableDeclaration) :
    optionalOf LocalVariableDeclaration.read?
      (some (ofOption LocalVariableDeclaration.document t)) = some t :=
  optionalOf_ofOption rfl fun t _ => t.read?_of_shows (shows_record _)

@[simp] theorem SwitchLabel.read?_document (label : SwitchLabel) :
    SwitchLabel.read? (label.document) = some label := by
  cases label <;> simp [document, SwitchLabel.read?]

theorem Resource.read?_document (r : Resource) :
    Resource.read? (r.document) = some r := by
  simp [document, Resource.read?]

@[simp] theorem optionalOf_resources (resources : Option (List Resource)) :
    optionalOf (fun x => x.each fun y _ => Resource.read? y)
      (some (ofOption (fun rs => list (rs.map Resource.document)) resources)) =
        some resources :=
  optionalOf_ofOption rfl fun _ _ => each_list fun r _ => r.read?_document

/-! ## Statements -/

theorem Statement.read?_null : Statement.read? .null = none := by
  rw [Statement.read?]
  rfl

theorem statementDocuments_eq_map (statements : List Statement) :
    statementDocuments statements = statements.map Statement.document := by
  induction statements with
  | nil => rfl
  | cons s rest ih => rw [statementDocuments, ih, List.map_cons]

theorem switchBlockDocuments_eq_map (blocks : List SwitchBlock) :
    switchBlockDocuments blocks = blocks.map SwitchBlock.document := by
  induction blocks with
  | nil => rfl
  | cons block rest ih => rw [switchBlockDocuments, ih, List.map_cons]

theorem catchClauseDocuments_eq_map (catchClauses : List CatchClause) :
    catchClauseDocuments catchClauses = catchClauses.map CatchClause.document := by
  induction catchClauses with
  | nil => rfl
  | cons c rest ih => rw [catchClauseDocuments, ih, List.map_cons]

/-- The statement is read from the document that is written for it. -/
def Statement.RoundTrips (s : Statement) : Prop :=
  Statement.read? (s.document) = some s

theorem optionalOf_body {body : Option Statement} (h : ∀ part ∈ body.toList, part.RoundTrips) :
    optionalOf Statement.read? (some (bodyDocument body)) = some body := by
  cases body with
  | none => rfl
  | some body => exact optionalOf_some Statement.read?_null (h body (by simp))

theorem each_statementDocuments {statements : List Statement}
    (h : ∀ part ∈ statements, part.RoundTrips) :
    ((list (statementDocuments statements)).each fun x _ => Statement.read? x) =
      some statements := by
  rw [statementDocuments_eq_map]
  exact each_list h

theorem SwitchBlock.read?_document {block : SwitchBlock} (h : block.body.RoundTrips) :
    SwitchBlock.read? (block.document) = some block := by
  cases block with
  | label label body =>
      have hbody : Statement.read? (body.document) = some body := h
      rw [document, SwitchBlock.read?]
      simp [hbody]
  | multiLabels labels body =>
      have hbody : Statement.read? (body.document) = some body := h
      have hlabels : ((list (labels.map SwitchLabel.document)).each fun x _ =>
          SwitchLabel.read? x) = some labels :=
        each_list fun label _ => label.read?_document
      rw [document, SwitchBlock.read?]
      simp [hbody, hlabels]

theorem CatchClause.read?_document {c : CatchClause} (h : c.body.RoundTrips) :
    CatchClause.read? (c.document) = some c := by
  obtain ⟨type, otherTypes, name, lineNumber, body⟩ := c
  have hotherTypes : ((list (otherTypes.map ClassType.document)).each fun x _ =>
      ClassType.read? x) = some otherTypes :=
    each_list fun t _ => t.read?_document
  have hbody : Statement.read? (body.document) = some body := h
  rw [document, CatchClause.read?]
  simp [hbody, hotherTypes]

theorem each_switchBlockDocuments {blocks : List SwitchBlock}
    (h : ∀ part ∈ blocks.map SwitchBlock.body, part.RoundTrips) :
    ((list (switchBlockDocuments blocks)).each fun x _ => SwitchBlock.read? x) =
      some blocks := by
  rw [switchBlockDocuments_eq_map]
  exact each_list fun block hblock =>
    SwitchBlock.read?_document (h block.body (List.mem_map_of_mem hblock))

theorem each_catchClauseDocuments {catchClauses : List CatchClause}
    (h : ∀ part ∈ catchClauses.map CatchClause.body, part.RoundTrips) :
    ((list (catchClauseDocuments catchClauses)).each fun x _ => CatchClause.read? x) =
      some catchClauses := by
  rw [catchClauseDocuments_eq_map]
  exact each_list fun c hc => CatchClause.read?_document (h c.body (List.mem_map_of_mem hc))

theorem Statement.roundTrips (s : Statement) : s.RoundTrips := by
  induction s using Statement.induction_on_parts with
  | step s h =>
  rw [RoundTrips]
  cases s with
  | assertion | breakTo | continueTo | comment | byteCode | expression | lambdaExpression
  | returnVoid | returnValue | throwing =>
      rw [document, read?]
      simp
  | doWhile _ body | ifThen _ body | whileLoop _ body | synchronized _ body | labelled _ body
  | forEach _ _ _ body | forLoop _ _ _ _ body =>
      rw [parts] at h
      have hbody := optionalOf_body h
      rw [document, read?]
      simp [hbody]
  | ifElse condition whenTrue whenFalse =>
      obtain ⟨hwhenTrue, hwhenFalse⟩ : whenTrue.RoundTrips ∧ whenFalse.RoundTrips := by
        simpa [parts] using h
      rw [RoundTrips] at hwhenTrue hwhenFalse
      rw [document, read?]
      simp [hwhenTrue, hwhenFalse]
  | localVariables declaration =>
      have hdeclaration := LocalVariableDeclaration.read?_of_shows
        ((shows_record (("kind", ofWorded StatementTag.localVariables) ::
          declaration.fields)).behind rfl)
      rw [document, read?]
      simp [hdeclaration]
  | typeDeclaration declaration =>
      have hdeclaration := TypeDeclaration.read?_of_shows
        ((shows_record (("kind", ofWorded StatementTag.typeDeclaration) ::
          declaration.fields)).behind rfl)
      rw [document, read?]
      simp [hdeclaration]
  | sequence statements =>
      rw [parts] at h
      have hstatements := each_statementDocuments h
      rw [document, read?]
      simp [hstatements]
  | switch condition blocks =>
      have hblocks := each_switchBlockDocuments h
      rw [document, read?]
      simp [hblocks]
  | tryCatch resources body catchClauses finallyBody =>
      rw [parts, List.forall_mem_cons, List.forall_mem_append] at h
      obtain ⟨hbody, hclauses, hfinally⟩ := h
      have hclauses := each_catchClauseDocuments hclauses
      have hfinally := optionalOf_body hfinally
      rw [RoundTrips] at hbody
      rw [document, read?]
      simp [hbody, hclauses, hfinally]

/-- A tree is read back from its document. -/
theorem Statement.read?_document (s : Statement) : Statement.read? s.document = some s :=
  s.roundTrips

end JavaFragments
