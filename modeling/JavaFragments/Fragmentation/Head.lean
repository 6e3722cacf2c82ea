import JavaFragments.Fragment
import JavaFragments.Phrase.Expression

/-! # Heads of statements

What a statement prints in front of its bodies, and all of it where it has no body. A statement
stands for itself or as the `else` branch of a group of blocks. -/
set_option autoImplicit false

namespace JavaFragments

/-- Where a statement stands: for itself, or as the `else` branch of a group. -/
inductive Place where
  | alone
  | elseOf (group : Group)

/-- The words of a head, each with a space behind it. -/
def headWords (words : List String) : List Token :=
  words.flatMap fun word => [.keyword word, .space]

/-- Words with a condition behind them. -/
def guardHead (env : Environment) (words : List String) (condition : Expression) : Phrase :=
  .ofTokens (headWords words) ++ .parameters (condition.phrase env)

/-- A simple statement up to its semicolon, kept together by a layout. -/
def simpleStatement (phrase : Phrase) : Phrase :=
  .enclosed (.startBlock .declarationOrStatement) (.endBlock .declarationOrStatement)
    (phrase ++ .ofToken .semicolon)

def jumpPhrase (word : String) : Option String → Phrase
  | none => .ofTokens [.keyword word, .semicolon]
  | some label => .ofTokens [.keyword word, .space, .text label, .semicolon]

/-- The lines of a comment that are not empty. -/
def commentLines (text : String) : List String :=
  ((text.toList.splitOn '\n').filter fun line => !line.isEmpty).map String.ofList

def commentPhrase (text : String) : Phrase :=
  .enclosed (.startMarker .comment) (.endMarker .comment)
    (.join (.newLine 1) ((commentLines text).map fun line => .ofToken (.text line)))

def assertionPhrase (env : Environment) (condition : Expression) (message : Option Expression) :
    Phrase :=
  .ofTokens [.keyword "assert", .space] ++ condition.phrase env ++
    match message with
    | none => .empty
    | some e => .ofToken .spaceColonSpace ++ e.phrase env

def returnPhrase (env : Environment) (expression : Expression) (lineNumber : Option UInt32) :
    Phrase :=
  .ofTokens (match lineNumber with
    | none => []
    | some line => [.lineNumber line]) ++
    .ofTokens [.keyword "return", .space] ++ expression.phrase env

/-- A part of the head of a `for` behind the semicolon in front of it. -/
def forPart (env : Environment) : Option Expression → Phrase
  | none => .ofToken .semicolon
  | some e => .ofToken .semicolonSpace ++ e.phrase env

def forHead (env : Environment) (declaration : Option LocalVariableDeclaration)
    (init condition update : Option Expression) : Phrase :=
  .ofTokens (headWords ["for"]) ++ .parameters (
    (match declaration with
      | none => .empty
      | some d => d.phrase env) ++
    (match init with
      | none => .empty
      | some e => e.phrase env) ++
    forPart env condition ++ forPart env update)

def forEachHead (env : Environment) (type : JavaType) (name : String) (expression : Expression) :
    Phrase :=
  .ofTokens (headWords ["for"]) ++ .parameters (
    type.phrase env ++ .ofTokens [.space, .text name, .spaceColonSpace] ++ expression.phrase env)

def labelPhrase (label : String) : Phrase :=
  .ofTokens [.text label, .colon]

def SwitchLabel.phrase (env : Environment) : SwitchLabel → Phrase
  | .default => .ofTokens [.keyword "default", .colon]
  | .expression e => .ofTokens [.keyword "case", .space] ++ e.phrase env ++ .ofToken .colon

def Resource.phrase (env : Environment) (r : Resource) : Phrase :=
  .ofTokens (match r.lineNumber with
    | none => []
    | some line => [.lineNumber line]) ++
    r.type.phrase env ++ .ofTokens [.space, .text r.name, .spaceEqualSpace] ++
    r.expression.phrase env

/-- Only a single resource has a space in front of its bracket. -/
def resourcesHead (env : Environment) (resources : List Resource) : Phrase :=
  .ofTokens (match resources with
    | [_] => [.keyword "try", .space]
    | _ => [.keyword "try"]) ++
    .enclosed (.startBlock .resources) (.endBlock .resources)
      (.join .semicolonSpace (resources.map (Resource.phrase env)))

/-- The caught types with their variable, and the source line behind the bracket. -/
def catchHead (env : Environment) (type : ClassType) (otherTypes : List ClassType)
    (name : String) (lineNumber : Option UInt32) : Phrase :=
  .ofTokens [.keyword "catch", .spaceOpenBracket] ++
    .join .verticalLine ((type :: otherTypes).map (ClassType.phrase env)) ++
    .ofTokens [.space, .text name, .closeBracket] ++
    .ofTokens (match lineNumber with
      | none => []
      | some line => [.lineNumber line])

end JavaFragments
