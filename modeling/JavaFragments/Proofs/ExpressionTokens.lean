import JavaFragments.Proofs.ExpressionParts

/-! # Tokens of expressions

The phrase of an expression is made of words and of parameters that nest between them. So it has no
marker, no line number and no line break, and of the inline blocks only parameters. -/
set_option autoImplicit false

namespace JavaFragments

/-- Keywords, texts and references. -/
def Token.isWord : Token → Bool
  | .keyword _ => true
  | .text _ => true
  | .reference .. => true
  | _ => false

/-- Words, and parameters around such a run. -/
inductive Spoken : List Token → Prop where
  | nil : Spoken []
  | word {token : Token} {rest : List Token} (h : token.isWord = true) :
      Spoken rest → Spoken (token :: rest)
  | parameters {inside rest : List Token} :
      Spoken inside → Spoken rest →
        Spoken (.startBlock .parameters :: (inside ++ .endBlock .parameters :: rest))

namespace Spoken

theorem append {front back : List Token} (hfront : Spoken front) (hback : Spoken back) :
    Spoken (front ++ back) := by
  induction hfront with
  | nil => exact hback
  | word h _ ih => exact .word h ih
  | parameters hinside _ _ ih =>
      rw [List.cons_append, List.append_assoc, List.cons_append]
      exact .parameters hinside ih

theorem ofWords {ts : List Token} (h : ts.all Token.isWord = true) : Spoken ts := by
  induction ts with
  | nil => exact .nil
  | cons token rest ih =>
      rw [List.all_cons, Bool.and_eq_true] at h
      exact .word h.1 (ih h.2)

end Spoken

/-- Keywords, texts, references and the edges of parameters. -/
def Token.isExpressionToken : Token → Bool
  | .keyword _ => true
  | .text _ => true
  | .reference .. => true
  | .startBlock block => block = .parameters
  | .endBlock block => block = .parameters
  | _ => false

/-- Only tokens that an expression can have. -/
def OfExpression (phrase : Phrase) : Prop :=
  phrase.tokens.all Token.isExpressionToken = true

theorem Spoken.all_isExpressionToken {ts : List Token} (h : Spoken ts) :
    ts.all Token.isExpressionToken = true := by
  induction h with
  | nil => rfl
  | @word token rest h _ ih =>
      have htoken : token.isExpressionToken = true := by
        cases token with
        | keyword | text | reference => rfl
        | _ => cases h
      rw [List.all_cons, htoken, ih]
      rfl
  | parameters _ _ ihInside ihRest =>
      rw [List.all_cons, List.all_append, List.all_cons, ihInside, ihRest]
      rfl

def Phrase.IsSpoken (phrase : Phrase) : Prop :=
  Spoken phrase.tokens

section Phrases
variable {phrase front back : Phrase}

theorem isSpoken_empty : Phrase.empty.IsSpoken := .nil

theorem isSpoken_token {token : Token} (h : token.isWord = true) :
    (Phrase.ofToken token).IsSpoken :=
  .word h .nil

theorem isSpoken_tokens {ts : List Token} (h : ts.all Token.isWord = true) :
    (Phrase.ofTokens ts).IsSpoken :=
  .ofWords h

theorem Phrase.IsSpoken.append (hfront : front.IsSpoken) (hback : back.IsSpoken) :
    (front ++ back).IsSpoken :=
  Spoken.append hfront hback

theorem Phrase.IsSpoken.enclosed (h : phrase.IsSpoken) {opening closing : Token}
    (hopening : opening.isWord = true) (hclosing : closing.isWord = true) :
    (Phrase.enclosed opening closing phrase).IsSpoken :=
  ((isSpoken_token hopening).append h).append (isSpoken_token hclosing)

theorem Phrase.IsSpoken.parameters (h : phrase.IsSpoken) :
    (Phrase.parameters phrase).IsSpoken :=
  Spoken.parameters h .nil

theorem Phrase.IsSpoken.bracketedIf (h : phrase.IsSpoken) (condition : Bool) :
    (Phrase.bracketedIf condition phrase).IsSpoken := by
  cases condition with
  | true => exact h.enclosed rfl rfl
  | false => exact h

/-- What holds of the empty phrase and is kept by joining two phrases holds of a joined list. -/
theorem Phrase.join_induction {motive : Phrase → Prop} (empty : motive .empty)
    (append : ∀ {front back : Phrase}, motive front → motive back → motive (front ++ back))
    {separator : Token} (hseparator : motive (.ofToken separator)) {phrases : List Phrase}
    (h : ∀ phrase ∈ phrases, motive phrase) : motive (.join separator phrases) := by
  induction phrases with
  | nil => exact empty
  | cons phrase rest ih =>
      have hphrase := h phrase List.mem_cons_self
      have hrest := ih fun other hother => h other (List.mem_cons_of_mem _ hother)
      cases rest with
      | nil => exact hphrase
      | cons second rest => exact append (append hphrase hseparator) hrest

theorem isSpoken_join {separator : Token} (hseparator : separator.isWord = true)
    {phrases : List Phrase} (h : ∀ phrase ∈ phrases, phrase.IsSpoken) :
    (Phrase.join separator phrases).IsSpoken :=
  Phrase.join_induction isSpoken_empty .append (isSpoken_token hseparator) h

theorem isSpoken_dimension (dimension : UInt32) : (dimensionPhrase dimension).IsSpoken := by
  refine isSpoken_tokens (List.all_eq_true.2 fun token htoken => ?_)
  rw [List.eq_of_mem_replicate htoken]
  rfl

end Phrases

/-! ## Types -/

section Types
variable (env : Environment)

mutual

theorem JavaType.isSpoken : (t : JavaType) → (t.phrase env).IsSpoken
  | .primitive t => by
      rw [JavaType.phrase]
      exact (isSpoken_token rfl).append (isSpoken_dimension t.dimension)
  | .classType t => by
      rw [JavaType.phrase]
      exact t.isSpoken_unmentioned
  | .memberType member outer => by
      rw [JavaType.phrase]
      exact (outer.isSpoken.append (isSpoken_token rfl)).append
        member.isSpoken_unmentioned
  | .typeVariable t => by
      rw [JavaType.phrase]
      exact (isSpoken_token rfl).append (isSpoken_dimension t.dimension)

theorem ClassType.isSpoken_unmentioned : (t : ClassType) →
    (t.unmentionedPhrase env).IsSpoken
  | ⟨internalName, _, name, none, dimension⟩ => by
      rw [ClassType.unmentionedPhrase]
      exact ((isSpoken_token rfl).append isSpoken_empty).append
        (isSpoken_dimension dimension)
  | ⟨internalName, _, name, some arguments, dimension⟩ => by
      rw [ClassType.unmentionedPhrase]
      exact ((isSpoken_token rfl).append (arguments.isSpoken.enclosed rfl rfl)).append
        (isSpoken_dimension dimension)

theorem TypeArgument.isSpoken : (t : TypeArgument) → (t.phrase env).IsSpoken
  | .type t => by
      rw [TypeArgument.phrase]
      exact t.isSpoken
  | .wildcard => by
      rw [TypeArgument.phrase]
      exact isSpoken_token rfl
  | .wildcardExtends bound => by
      rw [TypeArgument.phrase]
      exact (isSpoken_tokens rfl).append bound.isSpoken
  | .wildcardSuper bound => by
      rw [TypeArgument.phrase]
      exact (isSpoken_tokens rfl).append bound.isSpoken
  | .list first second rest => by
      rw [TypeArgument.phrase]
      refine isSpoken_join rfl ?_
      rw [List.forall_mem_cons, List.forall_mem_cons]
      exact ⟨first.isSpoken, second.isSpoken, isSpoken_arguments rest⟩

theorem isSpoken_arguments : (arguments : List TypeArgument) →
    ∀ phrase ∈ argumentPhrases env arguments, phrase.IsSpoken
  | [] => fun _ h => nomatch h
  | argument :: rest => by
      rw [argumentPhrases, List.forall_mem_cons]
      exact ⟨argument.isSpoken, isSpoken_arguments rest⟩

end

end Types

/-! ## Expressions -/

theorem isSpoken_unary (operator : UnaryOperator) {operand : Phrase}
    (h : operand.IsSpoken) : (unaryPhrase operator operand).IsSpoken := by
  unfold unaryPhrase
  split
  · exact h.append (isSpoken_token rfl)
  · exact (isSpoken_token rfl).append (h.bracketedIf _)

theorem isSpoken_parameters (names : List String) : (lambdaParameters names).IsSpoken := by
  rcases names with _ | ⟨first, _ | ⟨second, rest⟩⟩ <;> exact .ofWords rfl

theorem isSpoken_receiver {env : Environment} {object : Option Expression}
    (h : ∀ part ∈ object.toList, (part.phrase env).IsSpoken) :
    (receiverPhrase env object).IsSpoken := by
  cases object with
  | none => exact isSpoken_empty
  | some object => exact ((h object (by simp)).bracketedIf _).append (isSpoken_token rfl)

theorem isSpoken_callArguments {env : Environment} {arguments : List Expression}
    (h : ∀ part ∈ arguments, (part.phrase env).IsSpoken) :
    (argumentsPhrase (expressionPhrases env arguments)).IsSpoken := by
  refine (isSpoken_join rfl ?_).parameters
  rw [expressionPhrases_eq_map]
  exact List.forall_mem_map.2 h

theorem Expression.isSpoken (env : Environment) (e : Expression) :
    (e.phrase env).IsSpoken := by
  induction e using Expression.induction_on_parts with
  | step e h =>
  cases e with
  | boolean value => cases value <;> exact .ofWords rfl
  | integer | long | double | character | text | nullLiteral | thisReference | named =>
      exact .ofWords rfl
  | field object name => exact (isSpoken_receiver h).append (isSpoken_token rfl)
  | call object name arguments =>
      simp only [Expression.parts, List.forall_mem_append] at h
      exact ((isSpoken_receiver h.1).append (isSpoken_token rfl)).append
        (isSpoken_callArguments h.2)
  | new type arguments =>
      exact ((isSpoken_tokens rfl).append (type.isSpoken_unmentioned env)).append
        (isSpoken_callArguments h)
  | binary operator left right =>
      have hleft := (h left (by simp [Expression.parts])).bracketedIf left.isCompound
      have hright := (h right (by simp [Expression.parts])).bracketedIf right.isCompound
      exact (hleft.append (isSpoken_tokens rfl)).append hright
  | unary operator operand =>
      exact isSpoken_unary operator ((h operand List.mem_cons_self).bracketedIf _)
  | assignment operator target value =>
      have htarget := h target (by simp [Expression.parts])
      have hvalue := h value (by simp [Expression.parts])
      exact (htarget.append (isSpoken_token (by cases operator <;> rfl))).append hvalue
  | typeCast type operand =>
      exact ((type.isSpoken env).enclosed rfl rfl).append
        ((h operand List.mem_cons_self).bracketedIf _)
  | instanceOf operand type =>
      exact (((h operand List.mem_cons_self).bracketedIf _).append
        (isSpoken_tokens rfl)).append (type.isSpoken env)
  | conditional condition whenTrue whenFalse =>
      have hcondition := (h condition (by simp [Expression.parts])).bracketedIf condition.isCompound
      have htrue := (h whenTrue (by simp [Expression.parts])).bracketedIf whenTrue.isCompound
      have hfalse := (h whenFalse (by simp [Expression.parts])).bracketedIf whenFalse.isCompound
      exact (((hcondition.append (isSpoken_token rfl)).append htrue).append
        (isSpoken_token rfl)).append hfalse
  | arrayAccess array index =>
      exact ((h array (by simp [Expression.parts])).bracketedIf _).append
        ((h index (by simp [Expression.parts])).enclosed rfl rfl)
  | typeReference type => exact type.isSpoken env
  | lambda parameters body =>
      exact ((isSpoken_parameters parameters).append (isSpoken_token rfl)).append
        (h body List.mem_cons_self)

theorem Expression.ofExpression (env : Environment) (e : Expression) :
    OfExpression (e.phrase env) :=
  Spoken.all_isExpressionToken (e.isSpoken env)

end JavaFragments
