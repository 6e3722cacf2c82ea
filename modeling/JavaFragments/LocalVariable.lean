import JavaFragments.Type

/-! # Local variables

A local variable is described by its slot and its type. It is primitive, of a type variable, or an
object: class and member types and every array of a primitive type are objects. A variable is
classified from its type or from the variable that it is copied from. -/
set_option autoImplicit false

namespace JavaFragments

/-- Where a variable lives, and its name where it has one. -/
structure Slot where
  index : UInt32
  offset : UInt32
  name : Option String
deriving DecidableEq

inductive LocalVariable where
  | primitive (slot : Slot) (type : PrimitiveType)
  | object (slot : Slot) (type : JavaType)
  | generic (slot : Slot) (type : TypeVariable)

namespace LocalVariable

def slot : LocalVariable → Slot
  | .primitive slot _ => slot
  | .object slot _ => slot
  | .generic slot _ => slot

def declaredType : LocalVariable → JavaType
  | .primitive _ type => .primitive type
  | .object _ type => type
  | .generic _ type => .typeVariable type

def dimension : LocalVariable → UInt32
  | .primitive _ type => type.dimension
  | .object _ type => type.dimension
  | .generic _ type => type.dimension

def isObject : LocalVariable → Bool
  | .object .. => true
  | _ => false

/-- What a new variable is classified from. -/
inductive Origin where
  | type (type : JavaType)
  | copyOf (source : LocalVariable)

/-- An array is an object, whatever its elements are. -/
def ofPrimitive (slot : Slot) (type : PrimitiveType) : LocalVariable :=
  if type.dimension = 0 then .primitive slot type else .object slot (.primitive type)

/-- The variable of an origin in a new slot. It has no name yet. -/
def classify (index offset : UInt32) : Origin → LocalVariable
  | .type (.primitive type) => ofPrimitive ⟨index, offset, none⟩ type
  | .type (.classType type) => .object ⟨index, offset, none⟩ (.classType type)
  | .type (.memberType member outer) => .object ⟨index, offset, none⟩ (.memberType member outer)
  | .type (.typeVariable type) => .generic ⟨index, offset, none⟩ type
  | .copyOf (.primitive _ type) => ofPrimitive ⟨index, offset, none⟩ type
  | .copyOf (.object _ type) => .object ⟨index, offset, none⟩ type
  | .copyOf (.generic _ type) => .generic ⟨index, offset, none⟩ type

theorem declaredType_ofPrimitive (slot : Slot) (type : PrimitiveType) :
    (ofPrimitive slot type).declaredType = .primitive type := by
  unfold ofPrimitive; split <;> rfl

theorem slot_ofPrimitive (slot : Slot) (type : PrimitiveType) :
    (ofPrimitive slot type).slot = slot := by
  unfold ofPrimitive; split <;> rfl

end LocalVariable

end JavaFragments
