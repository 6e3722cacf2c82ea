/-! # Tokens

The atoms of printed source. A reference names a type and leaves its spelling to the layout, an
inline block groups tokens of one fragment, and a line number prints nothing. -/
set_option autoImplicit false

namespace JavaFragments

/-- Groups of tokens inside one fragment. -/
inductive InlineBlock where
  | parameters
  /-- One declaration or simple statement, which a layout keeps together. -/
  | declarationOrStatement
  | resources
deriving DecidableEq

namespace InlineBlock

def opening : InlineBlock → String
  | .parameters => "("
  | .resources => "("
  | .declarationOrStatement => ""

def closing : InlineBlock → String
  | .parameters => ")"
  | .resources => ")"
  | .declarationOrStatement => ""

end InlineBlock

inductive Marker where
  | comment
deriving DecidableEq

namespace Marker

def opening : Marker → String
  | .comment => "/* "

def closing : Marker → String
  | .comment => " */"

end Marker

inductive Token where
  | keyword (text : String)
  | text (text : String)
  /-- A type by its internal name, printed as `name`, seen from the type `owner`. -/
  | reference (internalName name : String) (owner : Option String)
  | startBlock (block : InlineBlock)
  | endBlock (block : InlineBlock)
  | startMarker (marker : Marker)
  | endMarker (marker : Marker)
  | newLine (count : UInt32)
  | lineNumber (line : UInt32)
deriving DecidableEq

namespace Token

def space : Token := .text " "
def semicolon : Token := .text ";"
def semicolonSpace : Token := .text "; "
def colon : Token := .text ":"
def spaceColonSpace : Token := .text " : "
def spaceEqualSpace : Token := .text " = "
def spaceArrowSpace : Token := .text " -> "
def spaceQuestionSpace : Token := .text " ? "
def commaSpace : Token := .text ", "
def dot : Token := .text "."
def verticalLine : Token := .text "|"
def openBracket : Token := .text "("
def spaceOpenBracket : Token := .text " ("
def closeBracket : Token := .text ")"
def openSquare : Token := .text "["
def closeSquare : Token := .text "]"
def arrayDimension : Token := .text "[]"
def openAngle : Token := .text "<"
def closeAngle : Token := .text ">"
def questionMark : Token := .text "?"
def emptyBraces : Token := .text "\x7b\x7d"

/-- What a layout writes for the token. -/
def print : Token → String
  | .keyword word => word
  | .text word => word
  | .reference _ name _ => name
  | .startBlock block => block.opening
  | .endBlock block => block.closing
  | .startMarker marker => marker.opening
  | .endMarker marker => marker.closing
  | .newLine count => String.ofList (List.replicate count.toNat '\n')
  | .lineNumber _ => ""

end Token

/-- The printed text of tokens in a row. -/
def printTokens (tokens : List Token) : String :=
  String.join (tokens.map Token.print)

end JavaFragments
