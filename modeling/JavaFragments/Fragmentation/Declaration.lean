import JavaFragments.Declaration
import JavaFragments.Environment
import JavaFragments.Fragment

/-! # Fragments of local type declarations

A method body leaves the printing of a local type to a writer of declarations, which is given the
whole sequence. The semicolon behind the declaration is not part of it. -/
set_option autoImplicit false

namespace JavaFragments

/-- Brings a declaration into a sequence of fragments: the sequence before, and the one behind. -/
abbrev DeclarationWriter := TypeDeclaration → Environment → List Fragment → List Fragment

/-- The fragments that stand for a declaration. -/
abbrev DeclarationPrinter := TypeDeclaration → Environment → List Fragment

/-- Writes at the end of the sequence, whatever stands there. -/
def DeclarationPrinter.writer (printer : DeclarationPrinter) : DeclarationWriter :=
  fun declaration env fragments => fragments ++ printer declaration env

/-- Modifiers, kind and name with empty braces, as one fragment. -/
def declarationHead : DeclarationPrinter := fun declaration env =>
  [.tokens (
    declaration.modifiers.keywords.flatMap (fun keyword => [.keyword keyword, .space]) ++
      [.keyword declaration.typeKind.keyword, .space,
        .reference declaration.internalName declaration.name (some env.currentType),
        .space, .emptyBraces])]

end JavaFragments
