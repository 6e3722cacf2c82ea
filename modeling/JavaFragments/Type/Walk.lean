import JavaFragments.Type

/-! # Walking through a type argument

The steps of a walk through an argument and, where it is a list, through its elements in order. -/
set_option autoImplicit false

namespace JavaFragments

inductive ArgumentStep where
  | type (type : JavaType)
  | wildcard
  | upperBound (bound : JavaType)
  | lowerBound (bound : JavaType)
  | list (length : Nat)

mutual

def TypeArgument.walk : TypeArgument → List ArgumentStep
  | .type t => [.type t]
  | .wildcard => [.wildcard]
  | .wildcardExtends bound => [.upperBound bound]
  | .wildcardSuper bound => [.lowerBound bound]
  | .list first second rest =>
      .list (rest.length + 2) :: first.walk ++ second.walk ++ walkAll rest

def walkAll : List TypeArgument → List ArgumentStep
  | [] => []
  | argument :: rest => argument.walk ++ walkAll rest

end

end JavaFragments
