import JavaFragments.Fragment.Balance

/-! # Errors of a fragmentation -/
set_option autoImplicit false

namespace JavaFragments

inductive FragmentationError where
  | emptyResourceList
  | unbalanced (fault : BalanceFault)
deriving DecidableEq

def FragmentationError.message : FragmentationError → String
  | .emptyResourceList => "try-with-resources statement has an empty resource list"
  | .unbalanced fault => "fragment sequence is unbalanced: " ++ fault.message

end JavaFragments
