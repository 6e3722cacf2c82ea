import JavaFragments.InternalName

/-! # Types

Primitive types, class types with their type arguments, member types and type variables. A list of
type arguments has a first and a second element and then any number more: fewer than two arguments
are no list. -/
set_option autoImplicit false

namespace JavaFragments

/-- The primitive types and `void`. -/
inductive Primitive where
  | boolean | byte | char | short | int | long | float | double | void
deriving DecidableEq

namespace Primitive

def all : List Primitive :=
  [.boolean, .byte, .char, .short, .int, .long, .float, .double, .void]

def keyword : Primitive → String
  | .boolean => "boolean"
  | .byte => "byte"
  | .char => "char"
  | .short => "short"
  | .int => "int"
  | .long => "long"
  | .float => "float"
  | .double => "double"
  | .void => "void"

end Primitive

structure PrimitiveType where
  kind : Primitive
  dimension : UInt32
deriving DecidableEq

/-- A type variable, or an array of one. -/
structure TypeVariable where
  name : String
  dimension : UInt32
deriving DecidableEq

mutual

inductive JavaType where
  | primitive (type : PrimitiveType)
  | classType (type : ClassType)
  /-- A member type, written behind the type it belongs to. -/
  | memberType (member : ClassType) (outer : JavaType)
  | typeVariable (type : TypeVariable)

/-- A class or interface type. The name is what is printed for it. -/
structure ClassType where
  internalName : String
  qualifiedName : String
  name : String
  arguments : Option TypeArgument
  dimension : UInt32

inductive TypeArgument where
  | type (type : JavaType)
  | wildcard
  | wildcardExtends (bound : JavaType)
  | wildcardSuper (bound : JavaType)
  | list (first second : TypeArgument) (rest : List TypeArgument)

end

/-- The class type of an internal name, without arguments, with the names derived from it. -/
def ClassType.ofInternalName (name : String) : ClassType where
  internalName := name
  qualifiedName := InternalName.qualifiedName name
  name := InternalName.simpleName name
  arguments := none
  dimension := 0

def ClassType.package (t : ClassType) : String :=
  InternalName.package t.internalName

namespace JavaType

def ofPrimitive (kind : Primitive) : JavaType :=
  .primitive ⟨kind, 0⟩

def ofInternalName (name : String) : JavaType :=
  .classType (.ofInternalName name)

def ofVariable (name : String) : JavaType :=
  .typeVariable ⟨name, 0⟩

def dimension : JavaType → UInt32
  | .primitive t => t.dimension
  | .classType t => t.dimension
  | .memberType member _ => member.dimension
  | .typeVariable t => t.dimension

/-- The class that a class or member type denotes. -/
def classType? : JavaType → Option ClassType
  | .classType t => some t
  | .memberType member _ => some member
  | .primitive _ => none
  | .typeVariable _ => none

end JavaType

inductive TypeListError where
  | tooShort (length : Nat)
deriving DecidableEq

def TypeListError.message : TypeListError → String
  | .tooShort length =>
      "Type list needs at least 2 elements, got " ++ length.repr ++ ": use a single type instead"

namespace TypeArgument

def ofList : List TypeArgument → Except TypeListError TypeArgument
  | first :: second :: rest => .ok (.list first second rest)
  | short => .error (.tooShort short.length)

def isList : TypeArgument → Bool
  | .list .. => true
  | _ => false

/-- The elements of a list, and none of any other argument. -/
def elements : TypeArgument → List TypeArgument
  | .list first second rest => first :: second :: rest
  | _ => []

theorem elements_of_ofList {arguments : List TypeArgument} {t : TypeArgument}
    (h : ofList arguments = .ok t) : t.elements = arguments := by
  match arguments with
  | [] => cases h
  | [_] => cases h
  | _ :: _ :: _ => cases h; rfl

theorem ofList_eq_error_iff {arguments : List TypeArgument} {e : TypeListError} :
    ofList arguments = .error e ↔ arguments.length < 2 ∧ e = .tooShort arguments.length := by
  match arguments with
  | [] => simp [ofList, eq_comm]
  | [_] => simp [ofList, eq_comm]
  | _ :: _ :: _ => exact ⟨(nomatch ·), fun h => absurd h.1 (by simp)⟩

end TypeArgument

end JavaFragments
