import JavaFragments.Fragment

/-! # Printed fragments

`sourceLine` is one line of approximate source. The texts of the fragments are joined by one space,
which is left out where a text already ends in one, and fragments that print nothing leave no
trace. `listing` has one numbered line for each fragment. -/
set_option autoImplicit false

namespace JavaFragments

def endsWithSpace (text : String) : Bool :=
  text.toList.getLast? == some ' '

/-- Two texts with one space between them, unless one is empty or the first ends in a space. -/
def joinSpaced (front back : String) : String :=
  if back.isEmpty then front
  else if front.isEmpty || endsWithSpace front then front ++ back
  else front ++ " " ++ back

namespace Fragment

def print : Fragment → String
  | .tokens ts => printTokens ts
  | .startBlock .statements _ => "\x7b"
  | .startBlock .singleStatement _ => ""
  | .startBlock .tryBody _ => "try \x7b"
  | .startBlock .doWhile _ => "do \x7b"
  | .endBlock .singleStatement _ => ""
  | .endBlock _ _ => "\x7d"
  | .spacer _ => ""

def sourceLine : List Fragment → String
  | [] => ""
  | fragment :: rest => joinSpaced fragment.print (sourceLine rest)

end Fragment

def BlockKind.word : BlockKind → String
  | .statements => "statements"
  | .singleStatement => "single-statement"
  | .tryBody => "try"
  | .doWhile => "do-while"

def Spacer.word : Spacer → String
  | .betweenStatements => "between-statements"
  | .betweenSwitchLabels => "between-switch-labels"
  | .afterSwitchLabel => "after-switch-label"
  | .afterSwitchBlock => "after-switch-block"
  | .betweenSwitchLabelBlocks => "between-switch-label-blocks"
  | .afterEndStatementsBlock => "after-end-statements-block"

namespace Fragment

def describe : Fragment → String
  | .tokens ts => "tokens `" ++ printTokens ts ++ "`"
  | .startBlock kind group => "start " ++ kind.word ++ " " ++ Group.label group
  | .endBlock kind group => "end " ++ kind.word ++ " " ++ Group.label group
  | .spacer kind => "spacer " ++ kind.word

/-- A number with blanks in front, at least four characters wide. -/
def padded (n : Nat) : String :=
  String.ofList (List.replicate (4 - n.repr.length) ' ') ++ n.repr

def listingFrom (index : Nat) : List Fragment → String
  | [] => ""
  | fragment :: rest =>
      padded index ++ " " ++ fragment.describe ++ "\n" ++ listingFrom (index + 1) rest

def listing (fragments : List Fragment) : String :=
  listingFrom 0 fragments

end Fragment

end JavaFragments
