import JavaFragments.Format.Field

/-! # Types in the tree format

A type writes its fields beside its tag, and an argument that is a type writes them beside the tag
of the argument. A list of arguments is read only if it has two elements or more. A primitive type
that is no node gives its kind as a plain word. -/
set_option autoImplicit false

namespace JavaFragments

def PrimitiveType.fields (t : PrimitiveType) : List (String × Document) :=
  [("primitive", .ofWorded t.kind), ("dimension", .ofWord32 t.dimension)]

def PrimitiveType.readBy? (kind? : Document → Option Primitive) (d : Document) :
    Option PrimitiveType := do
  let kind ← d.required "primitive" fun x _ => kind? x
  let dimension ← d.defaulted "dimension" 0 fun x _ => x.word32?
  some ⟨kind, dimension⟩

/-- A primitive type by itself. -/
def PrimitiveType.read? (d : Document) : Option PrimitiveType :=
  PrimitiveType.readBy? Document.word? d

def TypeVariable.fields (t : TypeVariable) : List (String × Document) :=
  [("name", .text t.name), ("dimension", .ofWord32 t.dimension)]

def TypeVariable.read? (d : Document) : Option TypeVariable := do
  let name ← d.required "name" fun x _ => x.text?
  let dimension ← d.defaulted "dimension" 0 fun x _ => x.word32?
  some ⟨name, dimension⟩

mutual

def JavaType.fields : JavaType → List (String × Document)
  | .primitive t => ("kind", .ofWorded TypeTag.primitive) :: t.fields
  | .classType t => ("kind", .ofWorded TypeTag.classType) :: t.fields
  | .memberType member outer =>
      [("kind", .ofWorded TypeTag.memberType), ("inner", .record member.fields),
        ("outer", .record outer.fields)]
  | .typeVariable t => ("kind", .ofWorded TypeTag.typeVariable) :: t.fields

def ClassType.fields : ClassType → List (String × Document)
  | ⟨internalName, qualifiedName, name, arguments, dimension⟩ =>
      [("internal_name", .text internalName), ("qualified_name", .text qualifiedName),
        ("name", .text name),
        ("type_arguments", match arguments with
          | none => .null
          | some t => .record t.fields),
        ("dimension", .ofWord32 dimension)]

def TypeArgument.fields : TypeArgument → List (String × Document)
  | .type t => ("argument", .ofWorded ArgumentTag.type) :: t.fields
  | .wildcard => [("argument", .ofWorded ArgumentTag.wildcard)]
  | .wildcardExtends bound =>
      [("argument", .ofWorded ArgumentTag.wildcardExtends), ("bound", .record bound.fields)]
  | .wildcardSuper bound =>
      [("argument", .ofWorded ArgumentTag.wildcardSuper), ("bound", .record bound.fields)]
  | .list first second rest =>
      [("argument", .ofWorded ArgumentTag.list),
        ("types", .list (.record first.fields :: .record second.fields :: argumentDocuments rest))]

def argumentDocuments : List TypeArgument → List Document
  | [] => []
  | argument :: rest => .record argument.fields :: argumentDocuments rest

end

def JavaType.document (t : JavaType) : Document := .record t.fields
def ClassType.document (t : ClassType) : Document := .record t.fields
def TypeArgument.document (t : TypeArgument) : Document := .record t.fields

mutual

def JavaType.read? (d : Document) : Option JavaType :=
  match (d.tag? "kind" : Option TypeTag) with
  | none => none
  | some .primitive => (PrimitiveType.readBy? Document.nodeWord? d).map .primitive
  | some .classType => (ClassType.read? d).map .classType
  | some .memberType => do
      let member ← d.required "inner" fun x _ => ClassType.read? x
      let outer ← d.required "outer" fun x _ => JavaType.read? x
      some (.memberType member outer)
  | some .typeVariable => (TypeVariable.read? d).map .typeVariable
termination_by 3 * sizeOf d + 1
decreasing_by all_goals omega

def ClassType.read? (d : Document) : Option ClassType := do
  let internalName ← d.required "internal_name" fun x _ => x.text?
  let qualifiedName ← d.required "qualified_name" fun x _ => x.text?
  let name ← d.required "name" fun x _ => x.text?
  let arguments ← d.optional "type_arguments" fun x _ => TypeArgument.read? x
  let dimension ← d.defaulted "dimension" 0 fun x _ => x.word32?
  some ⟨internalName, qualifiedName, name, arguments, dimension⟩
termination_by 3 * sizeOf d
decreasing_by all_goals omega

def TypeArgument.read? (d : Document) : Option TypeArgument :=
  match (d.tag? "argument" : Option ArgumentTag) with
  | none => none
  | some .type => (JavaType.read? d).map .type
  | some .wildcard => some .wildcard
  | some .wildcardExtends =>
      (d.required "bound" fun x _ => JavaType.read? x).map .wildcardExtends
  | some .wildcardSuper =>
      (d.required "bound" fun x _ => JavaType.read? x).map .wildcardSuper
  | some .list =>
      match d.required "types" fun x _ => x.each fun y _ => TypeArgument.read? y with
      | some (first :: second :: rest) => some (.list first second rest)
      | _ => none
termination_by 3 * sizeOf d + 2
decreasing_by all_goals omega

end

end JavaFragments
