import JavaFragments.Token

/-! # Fragments

A fragment is a run of tokens, the start or the end of a block, or a spacer between two parts of
the source. Blocks that belong together, such as the branches of one `if`, form a group and carry
its number. A sequence of fragments grows at its end and counts the groups it has given out. -/
set_option autoImplicit false

namespace JavaFragments

/-- The number of a group of blocks. The counter of a running program has 32 bits, so what is said
here of groups holds there as long as fewer than `2 ^ 32` numbers have been given out. -/
abbrev Group := Nat

def Group.label (g : Group) : String :=
  "#" ++ g.repr

inductive BlockKind where
  | statements
  /-- A body of one statement, without braces. -/
  | singleStatement
  | tryBody
  | doWhile
deriving DecidableEq

inductive Spacer where
  | betweenStatements
  | betweenSwitchLabels
  | afterSwitchLabel
  | afterSwitchBlock
  | betweenSwitchLabelBlocks
  | afterEndStatementsBlock
deriving DecidableEq

inductive Fragment where
  | tokens (tokens : List Token)
  | startBlock (kind : BlockKind) (group : Group)
  | endBlock (kind : BlockKind) (group : Group)
  | spacer (kind : Spacer)
deriving DecidableEq

namespace Fragment

def isBlockEdge : Fragment → Bool
  | .startBlock .. => true
  | .endBlock .. => true
  | _ => false

def group? : Fragment → Option Group
  | .startBlock _ group => some group
  | .endBlock _ group => some group
  | _ => none

def tokens? : Fragment → Option (List Token)
  | .tokens ts => some ts
  | _ => none

def isStartOf (kind : BlockKind) : Fragment → Bool
  | .startBlock k _ => k == kind
  | _ => false

/-- How many blocks of one kind start among the fragments. -/
def blockCount (kind : BlockKind) (fragments : List Fragment) : Nat :=
  fragments.countP (isStartOf kind)

end Fragment

/-- Fragments built so far, and how many group numbers have been given out. -/
structure FragmentSequence where
  fragments : List Fragment
  /-- A natural number for a 32-bit counter: below `2 ^ 32` the two are the same. -/
  allocated : Nat
deriving DecidableEq

namespace FragmentSequence

def empty : FragmentSequence := ⟨[], 0⟩

def append (s : FragmentSequence) (fragments : List Fragment) : FragmentSequence :=
  { s with fragments := s.fragments ++ fragments }

def push (s : FragmentSequence) (fragment : Fragment) : FragmentSequence :=
  s.append [fragment]

/-- The next group number, which is then never given out again. -/
def freshGroup (s : FragmentSequence) : Group × FragmentSequence :=
  (s.allocated, { s with allocated := s.allocated + 1 })

/-- Starts a block of a group of its own. -/
def openBlock (s : FragmentSequence) (kind : BlockKind) : Group × FragmentSequence :=
  let (group, s) := s.freshGroup
  (group, s.push (.startBlock kind group))

/-- Starts another block of a group. -/
def reopenBlock (s : FragmentSequence) (group : Group) : FragmentSequence :=
  s.push (.startBlock .statements group)

def closeBlock (s : FragmentSequence) (kind : BlockKind) (group : Group) : FragmentSequence :=
  s.push (.endBlock kind group)

/-- Keeps the first fragments only. -/
def take (s : FragmentSequence) (length : Nat) : FragmentSequence :=
  { s with fragments := s.fragments.take length }

end FragmentSequence

end JavaFragments
