import JavaFragments.Modifiers

/-! # Local type declarations

A class, interface, enum or annotation declared inside a method body, without its members. -/
set_option autoImplicit false

namespace JavaFragments

inductive TypeKind where
  | classType | interfaceType | enumType | annotationType
deriving DecidableEq

def TypeKind.keyword : TypeKind → String
  | .classType => "class"
  | .interfaceType => "interface"
  | .enumType => "enum"
  | .annotationType => "@interface"

structure TypeDeclaration where
  modifiers : Modifiers
  typeKind : TypeKind
  internalName : String
  name : String
deriving DecidableEq

end JavaFragments
