import JavaFragments.InternalName

/-! # The surroundings of a method -/
set_option autoImplicit false

namespace JavaFragments

/-- The type whose method is printed, by its internal name. -/
structure Environment where
  currentType : String
deriving DecidableEq

def Environment.package (env : Environment) : String :=
  InternalName.package env.currentType

end JavaFragments
