import JavaFragments.Fragment.Print

/-! # Events of a fragmentation

What happens while a method body is turned into fragments, for a log. -/
set_option autoImplicit false

namespace JavaFragments

inductive LogLevel where
  | trace | debug
deriving DecidableEq

def LogLevel.word : LogLevel → String
  | .trace => "trace"
  | .debug => "debug"

inductive Event where
  | bodyBegun (type : String) (statements : Nat)
  | emptyLoopBody
  | missingIfBody
  | emptyIfBody
  | emptyClauseBody
  | listed (fragments : List Fragment)
  | finished (type : String) (fragments groups : Nat)
deriving DecidableEq

namespace Event

def level : Event → LogLevel
  | .bodyBegun .. => .trace
  | .listed _ => .trace
  | _ => .debug

def message : Event → String
  | .bodyBegun type statements =>
      "fragmenting method body of " ++ type ++ " (" ++ statements.repr ++ " top-level statements)"
  | .emptyLoopBody => "empty loop body collapsed to `;`"
  | .missingIfBody => "if without body collapsed to `;`"
  | .emptyIfBody => "empty if body collapsed to `;`"
  | .emptyClauseBody => "empty clause body collapsed to `\x7b\x7d`"
  | .listed fragments => Fragment.listing fragments
  | .finished type fragments groups =>
      type ++ ": " ++ fragments.repr ++ " fragments, " ++ groups.repr ++ " groups"

end Event

end JavaFragments
