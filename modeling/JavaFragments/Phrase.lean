import JavaFragments.Token
import JavaFragments.Type

/-! # Phrases

A phrase is a run of tokens together with the class types that it mentions, in printed order.
Phrases are joined end to end. -/
set_option autoImplicit false

namespace JavaFragments

structure Phrase where
  tokens : List Token
  mentioned : List ClassType

namespace Phrase

def empty : Phrase := ⟨[], []⟩

def ofToken (token : Token) : Phrase := ⟨[token], []⟩

def ofTokens (ts : List Token) : Phrase := ⟨ts, []⟩

/-- Prints nothing, but counts as an occurrence of the type. -/
def mention (t : ClassType) : Phrase := ⟨[], [t]⟩

instance : Append Phrase where
  append front back := ⟨front.tokens ++ back.tokens, front.mentioned ++ back.mentioned⟩

theorem tokens_append (front back : Phrase) :
    (front ++ back).tokens = front.tokens ++ back.tokens := rfl

theorem mentioned_append (front back : Phrase) :
    (front ++ back).mentioned = front.mentioned ++ back.mentioned := rfl

theorem append_assoc (a b c : Phrase) : a ++ b ++ c = a ++ (b ++ c) := by
  show Phrase.mk _ _ = Phrase.mk _ _
  simp [tokens_append, mentioned_append]

/-- Phrases with a separator between each two of them. -/
def join (separator : Token) : List Phrase → Phrase
  | [] => empty
  | [phrase] => phrase
  | phrase :: rest => phrase ++ ofToken separator ++ join separator rest

def enclosed (opening closing : Token) (phrase : Phrase) : Phrase :=
  ofToken opening ++ phrase ++ ofToken closing

def bracketed (phrase : Phrase) : Phrase :=
  enclosed .openBracket .closeBracket phrase

def bracketedIf (condition : Bool) (phrase : Phrase) : Phrase :=
  if condition then bracketed phrase else phrase

/-- Arguments or a condition, inside the block of parameters. -/
def parameters (phrase : Phrase) : Phrase :=
  enclosed (.startBlock .parameters) (.endBlock .parameters) phrase

end Phrase

end JavaFragments
