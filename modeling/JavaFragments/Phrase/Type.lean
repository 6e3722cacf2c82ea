import JavaFragments.Environment
import JavaFragments.Phrase

/-! # Phrases of types

A class type prints as a reference, its arguments between angle brackets and its array brackets. It
mentions the class, except where the class is the member type of another: that part is reached
through the type it belongs to. -/
set_option autoImplicit false

namespace JavaFragments

/-- As many array brackets as there are dimensions. -/
def dimensionPhrase (dimension : UInt32) : Phrase :=
  .ofTokens (List.replicate dimension.toNat .arrayDimension)

def referencePhrase (env : Environment) (internalName name : String) : Phrase :=
  .ofToken (.reference internalName name (some env.currentType))

mutual

def JavaType.phrase (env : Environment) : JavaType → Phrase
  | .primitive t => .ofToken (.keyword t.kind.keyword) ++ dimensionPhrase t.dimension
  | .classType t => .mention t ++ t.unmentionedPhrase env
  | .memberType member outer => outer.phrase env ++ .ofToken .dot ++ member.unmentionedPhrase env
  | .typeVariable t => .ofToken (.text t.name) ++ dimensionPhrase t.dimension

/-- A class type that does not count as an occurrence itself, though its arguments do. -/
def ClassType.unmentionedPhrase (env : Environment) : ClassType → Phrase
  | ⟨internalName, _, name, arguments, dimension⟩ =>
      referencePhrase env internalName name ++
        (match arguments with
          | none => .empty
          | some t => .enclosed .openAngle .closeAngle (t.phrase env)) ++
        dimensionPhrase dimension

def TypeArgument.phrase (env : Environment) : TypeArgument → Phrase
  | .type t => t.phrase env
  | .wildcard => .ofToken .questionMark
  | .wildcardExtends bound =>
      .ofTokens [.questionMark, .space, .keyword "extends", .space] ++ bound.phrase env
  | .wildcardSuper bound =>
      .ofTokens [.questionMark, .space, .keyword "super", .space] ++ bound.phrase env
  | .list first second rest =>
      .join .commaSpace (first.phrase env :: second.phrase env :: argumentPhrases env rest)

def argumentPhrases (env : Environment) : List TypeArgument → List Phrase
  | [] => []
  | argument :: rest => argument.phrase env :: argumentPhrases env rest

end

def ClassType.phrase (env : Environment) (t : ClassType) : Phrase :=
  .mention t ++ t.unmentionedPhrase env

end JavaFragments
