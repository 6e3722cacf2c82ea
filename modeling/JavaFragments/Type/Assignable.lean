import JavaFragments.Type

/-! # Assignability

Assignability by structure, without a class hierarchy. Class types count by internal name,
dimension and arguments, a member type as the class it denotes, and an unbounded wildcard takes any
argument. -/
set_option autoImplicit false

namespace JavaFragments

mutual

def JavaType.accepts : JavaType → JavaType → Bool
  | .primitive a, .primitive b => a == b
  | .typeVariable a, .typeVariable b => a == b
  | .classType a, b =>
      match b.classType? with
      | some b => a.accepts b
      | none => false
  | .memberType a _, b =>
      match b.classType? with
      | some b => a.accepts b
      | none => false
  | _, _ => false
termination_by structural a => a

def ClassType.accepts : ClassType → ClassType → Bool
  | ⟨internalName, _, _, arguments, dimension⟩, b =>
      dimension == b.dimension && internalName == b.internalName &&
        match arguments, b.arguments with
        | none, none => true
        | some x, some y => x.accepts y
        | _, _ => false
termination_by structural a => a

def TypeArgument.accepts : TypeArgument → TypeArgument → Bool
  | .type a, .type b => a.accepts b
  | .wildcard, _ => true
  | .wildcardExtends a, .wildcardExtends b => a.accepts b
  | .wildcardExtends a, .type b => a.accepts b
  | .wildcardSuper a, .wildcardSuper b => a.accepts b
  | .wildcardSuper a, .type b => a.accepts b
  | .list first second rest, .list first' second' rest' =>
      first.accepts first' && second.accepts second' &&
        acceptPairwise rest rest'
  | _, _ => false
termination_by structural a => a

/-- As many on both sides, and pair by pair. -/
def acceptPairwise : List TypeArgument → List TypeArgument → Bool
  | [], [] => true
  | a :: rest, b :: rest' => a.accepts b && acceptPairwise rest rest'
  | _, _ => false
termination_by structural a => a

end

end JavaFragments
