import JavaFragments.Fragment

/-! # Balanced blocks

`balanceFault?` reads the fragments with a stack of open blocks and reports the first fault.
`Balanced` says the same without a stack: each start has its end, and between the two stands a
balanced run. -/
set_option autoImplicit false

namespace JavaFragments

inductive BalanceFault where
  | unexpectedEnd (index : Nat) (group : Group)
  | mismatchedEnd (index : Nat) (expected found : Group)
  | mismatchedKind (index : Nat) (group : Group) (expected found : BlockKind)
  | unclosed (group : Group)
deriving DecidableEq

def BlockKind.title : BlockKind → String
  | .statements => "Statements"
  | .singleStatement => "SingleStatement"
  | .tryBody => "Try"
  | .doWhile => "DoWhile"

def BalanceFault.message : BalanceFault → String
  | .unexpectedEnd index group =>
      "End of block " ++ Group.label group ++ " at fragment " ++ index.repr ++ " has no open block"
  | .mismatchedEnd index expected found =>
      "End of block " ++ Group.label found ++ " at fragment " ++ index.repr ++ " while block " ++
        Group.label expected ++ " is open"
  | .mismatchedKind index group expected found =>
      found.title ++ " end of block " ++ Group.label group ++ " at fragment " ++ index.repr ++
        " closes a " ++ expected.title ++ " start"
  | .unclosed group => "Block " ++ Group.label group ++ " is never closed"

/-- A block that has been started and not ended. -/
structure OpenBlock where
  kind : BlockKind
  group : Group
deriving DecidableEq

/-- Reads fragments from `index` on. The innermost open block stands first. -/
def balanceFaultFrom? (index : Nat) : List OpenBlock → List Fragment → Option BalanceFault
  | [], [] => none
  | block :: _, [] => some (.unclosed block.group)
  | stack, .startBlock kind group :: rest =>
      balanceFaultFrom? (index + 1) (⟨kind, group⟩ :: stack) rest
  | [], .endBlock _ group :: _ => some (.unexpectedEnd index group)
  | block :: stack, .endBlock kind group :: rest =>
      if block.group ≠ group then some (.mismatchedEnd index block.group group)
      else if block.kind ≠ kind then some (.mismatchedKind index group block.kind kind)
      else balanceFaultFrom? (index + 1) stack rest
  | stack, .tokens _ :: rest => balanceFaultFrom? (index + 1) stack rest
  | stack, .spacer _ :: rest => balanceFaultFrom? (index + 1) stack rest

/-- The first fault, and nothing where every block is closed in its turn. -/
def balanceFault? (fragments : List Fragment) : Option BalanceFault :=
  balanceFaultFrom? 0 [] fragments

/-- Starts and ends that nest, where each end has the kind and the group of its start. -/
inductive Balanced : List Fragment → Prop where
  | nil : Balanced []
  | tokens (tokens : List Token) {rest : List Fragment} :
      Balanced rest → Balanced (.tokens tokens :: rest)
  | spacer (kind : Spacer) {rest : List Fragment} :
      Balanced rest → Balanced (.spacer kind :: rest)
  | block (kind : BlockKind) (group : Group) {inside rest : List Fragment} :
      Balanced inside → Balanced rest →
        Balanced (.startBlock kind group :: inside ++ .endBlock kind group :: rest)

theorem Balanced.append {front back : List Fragment} (hf : Balanced front) (hb : Balanced back) :
    Balanced (front ++ back) := by
  induction hf with
  | nil => exact hb
  | tokens tokens _ ih => exact .tokens tokens ih
  | spacer kind _ ih => exact .spacer kind ih
  | block kind group hi _ _ ih =>
      simpa using Balanced.block kind group hi ih

/-- Balanced fragments leave the open blocks as they are. -/
theorem balanceFaultFrom?_append {inside : List Fragment} (h : Balanced inside) (index : Nat)
    (stack : List OpenBlock) (rest : List Fragment) :
    balanceFaultFrom? index stack (inside ++ rest) =
      balanceFaultFrom? (index + inside.length) stack rest := by
  induction h generalizing index stack rest with
  | nil => rfl
  | tokens tokens _ ih =>
      cases stack <;>
        simp only [List.cons_append, balanceFaultFrom?, ih, List.length_cons] <;> congr 1 <;> omega
  | spacer kind _ ih =>
      cases stack <;>
        simp only [List.cons_append, balanceFaultFrom?, ih, List.length_cons] <;> congr 1 <;> omega
  | block kind group _ _ ihInside ihRest =>
      cases stack <;>
        simp only [List.cons_append, List.append_assoc, balanceFaultFrom?, ihInside, ihRest,
          List.length_cons, List.length_append, ne_eq, not_true_eq_false, if_false] <;>
        congr 1 <;> omega

theorem balanceFault?_eq_none {fragments : List Fragment} (h : Balanced fragments) :
    balanceFault? fragments = none := by
  have := balanceFaultFrom?_append h 0 [] []
  simpa [balanceFault?, balanceFaultFrom?] using this

end JavaFragments
