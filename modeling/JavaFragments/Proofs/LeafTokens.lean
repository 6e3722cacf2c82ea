import JavaFragments.Proofs.ExpressionParts
import JavaFragments.Proofs.Leaves
import Mathlib.Data.List.Basic

/-! # Leaves of phrases

Tokens bear leaves if their leaf tokens are those of the leaves, in the same order. Every phrase
bears the leaves of the tree that it is the phrase of: what is set around, between and behind the
parts of a tree is punctuation, an operator, a keyword or an edge of an inline block. -/
set_option autoImplicit false

namespace JavaFragments

/-- Where the leaves are distinct, they are what the tokens show, one by one. -/
def Bears (env : Environment) (leaves : List Leaf) (tokens : List Token) : Prop :=
  (∀ leaf ∈ leaves, leaf.Distinct) →
    tokens.filter Token.isLeaf = leaves.map (Leaf.token env)

section Bears
variable {env : Environment} {leaves leaves' : List Leaf} {tokens tokens' : List Token}

theorem bears_of_fixed (h : tokens.any Token.isLeaf = false) : Bears env [] tokens := by
  intro _
  rw [List.map_nil, List.filter_eq_nil_iff]
  exact List.any_eq_false.1 h

theorem bears_nil : Bears env [] [] := bears_of_fixed rfl

theorem Bears.append (h : Bears env leaves tokens) (h' : Bears env leaves' tokens') :
    Bears env (leaves ++ leaves') (tokens ++ tokens') := by
  intro hdistinct
  rw [List.forall_mem_append] at hdistinct
  rw [List.filter_append, List.map_append, h hdistinct.1, h' hdistinct.2]

theorem Bears.behind (h : Bears env leaves tokens) (fixed : List Token)
    (hfixed : fixed.any Token.isLeaf = false) : Bears env leaves (fixed ++ tokens) :=
  (bears_of_fixed hfixed).append h

theorem Bears.before (h : Bears env leaves tokens) (fixed : List Token)
    (hfixed : fixed.any Token.isLeaf = false) : Bears env leaves (tokens ++ fixed) := by
  have hboth := h.append (bears_of_fixed hfixed)
  rwa [List.append_nil] at hboth

theorem bears_token (leaf : Leaf) (h : leaf.Distinct → (leaf.token env).isLeaf = true) :
    Bears env [leaf] [leaf.token env] := by
  intro hdistinct
  rw [List.filter_singleton, h (hdistinct leaf (List.mem_singleton_self leaf))]
  rfl

theorem isLeaf_text {t : String} : (Token.text t).isLeaf = true ↔ t ∉ fixedTexts := by
  simp [Token.isLeaf]

theorem bears_name (env : Environment) (name : String) : Bears env [.name name] [.text name] :=
  bears_token _ fun h => isLeaf_text.2 h.2

theorem bears_commentLine (line : String) : Bears env [.commentLine line] [.text line] :=
  bears_token _ fun h => isLeaf_text.2 h

theorem bears_reference (env : Environment) (internalName name : String) :
    Bears env [.reference internalName name]
      [.reference internalName name (some env.currentType)] :=
  bears_token _ fun _ => rfl

theorem bears_line (line : Option UInt32) :
    Bears env (lineLeaves line)
      (match line with
        | none => []
        | some number => [.lineNumber number]) := by
  cases line with
  | none => exact bears_nil
  | some number => exact bears_token (.line number) fun _ => rfl

end Bears

/-! ## Texts that are no punctuation -/

/-- Characters of names and digits and quotes, which stand in no fixed text. -/
def standsInWords (c : Char) : Bool :=
  c.isAlphanum || c == '_' || c == '$' || c == Text.singleQuote || c == Text.doubleQuote

theorem standsInWords_of_isDigit {c : Char} (h : c.isDigit = true) : standsInWords c = true := by
  simp [standsInWords, Char.isAlphanum, h]

theorem not_mem_fixedTexts {t : String} {c : Char} (hmem : c ∈ t.toList)
    (h : standsInWords c = true) : t ∉ fixedTexts := by
  have hfixed : (fixedTexts.all fun fixed => fixed.toList.all fun c => !standsInWords c) = true :=
    by decide
  intro ht
  have hc := List.all_eq_true.1 (List.all_eq_true.1 hfixed t ht) c hmem
  rw [h] at hc
  cases hc

theorem exists_digit_repr (n : Int) : ∃ c ∈ n.repr.toList, c.isDigit = true := by
  have hnat : ∀ m : Nat, ∃ c ∈ m.repr.toList, c.isDigit = true := by
    intro m
    rw [Nat.toList_repr]
    obtain ⟨c, hc⟩ := List.exists_mem_of_ne_nil _ (Nat.toDigits_ne_nil (b := 10) (n := m))
    exact ⟨c, hc, Nat.isDigit_of_mem_toDigits (by decide) (by decide) hc⟩
  rw [Int.repr_eq_if]
  split
  · exact hnat _
  · obtain ⟨c, hc, hdigit⟩ := hnat (-n).toNat
    exact ⟨c, by rw [String.toList_append]; exact List.mem_append_right _ hc, hdigit⟩

theorem integer_not_fixed (value : Int64) : Literal.integer value ∉ fixedTexts := by
  obtain ⟨c, hc, hdigit⟩ := exists_digit_repr value.toInt
  exact not_mem_fixedTexts hc (standsInWords_of_isDigit hdigit)

theorem long_not_fixed (value : Int64) : Literal.long value ∉ fixedTexts := by
  have hmem : 'L' ∈ (Literal.long value).toList := by
    rw [Literal.long, String.toList_append]
    exact List.mem_append_right _ (by decide)
  exact not_mem_fixedTexts hmem (by decide)

theorem quoted_not_fixed {quote : Char} (h : standsInWords quote = true) (text : String) :
    Text.quoted quote text ∉ fixedTexts := by
  have hmem : quote ∈ (Text.quoted quote text).toList := by
    rw [Text.quoted, String.toList_ofList]
    simp
  exact not_mem_fixedTexts hmem h

/-- Written without an exponent there is a digit behind the point at least. -/
theorem exists_digit_positional {digits : List Char} (hdigits : ∀ c ∈ digits, c.isDigit = true)
    (point : Int) : ∃ c ∈ Decimal.positional digits point, c.isDigit = true := by
  unfold Decimal.positional
  split
  · exact ⟨'0', by simp, by decide⟩
  · cases hbehind : digits.drop point.toNat with
    | nil => exact ⟨'0', by simp, by decide⟩
    | cons c rest =>
        have hc : c ∈ digits.drop point.toNat := by rw [hbehind]; exact List.mem_cons_self
        exact ⟨c, by simp, hdigits c (List.mem_of_mem_drop hc)⟩

theorem isDigit_of_mem_leading {coefficient : Nat} {c : Char}
    (h : c ∈ Decimal.withoutTrailingZeros (Nat.toDigits 10 coefficient)) : c.isDigit = true := by
  rw [Decimal.withoutTrailingZeros, List.mem_reverse] at h
  have hc := (List.dropWhile_sublist _).subset h
  exact Nat.isDigit_of_mem_toDigits (by decide) (by decide) (List.mem_reverse.1 hc)

theorem exists_word_magnitude (value : Double) :
    ∃ c ∈ Literal.magnitude value, standsInWords c = true := by
  unfold Literal.magnitude
  split
  · exact ⟨'0', by decide, by decide⟩
  · rw [Decimal.write]
    split
    · obtain ⟨c, hc, hdigit⟩ := exists_digit_positional (fun c => isDigit_of_mem_leading) _
      exact ⟨c, hc, standsInWords_of_isDigit hdigit⟩
    · exact ⟨'e', by simp [Decimal.scientific], by decide⟩

theorem double_not_fixed (value : Double) : Literal.double value ∉ fixedTexts := by
  obtain ⟨c, hc, hword⟩ := exists_word_magnitude value
  unfold Literal.double
  split
  · decide
  · split
    · split <;> decide
    · have hmem : c ∈ (String.ofList (if value.isNegative then '-' :: Literal.magnitude value
          else Literal.magnitude value)).toList := by
        rw [String.toList_ofList]
        split
        · exact List.mem_cons_of_mem _ hc
        · exact hc
      exact not_mem_fixedTexts hmem hword

/-- No parameters are an empty text, and behind the first of several stands a comma. -/
theorem parameters_not_fixed {names : List String}
    (h : ∀ name ∈ names, name ≠ "" ∧ name ∉ fixedTexts) :
    String.intercalate ", " names ∉ fixedTexts := by
  rcases names with _ | ⟨first, _ | ⟨second, rest⟩⟩
  · decide
  · rw [String.intercalate_singleton]
    exact (h first List.mem_cons_self).2
  · have hcomma : ∀ fixed ∈ fixedTexts, ',' ∈ fixed.toList → fixed.toList.length ≤ 2 := by decide
    have htext : (String.intercalate ", " (first :: second :: rest)).toList =
        first.toList ++ [',', ' '] ++
          (String.intercalate ", " (second :: rest)).toList := by
      simp only [String.toList_intercalate, List.map_cons, List.intercalate_cons_cons]
      rfl
    have hfirst : 0 < first.toList.length := by
      rw [List.length_pos_iff, ne_eq, String.toList_eq_nil_iff]
      exact (h first List.mem_cons_self).1
    intro hfixed
    have hlength := hcomma _ hfixed (by rw [htext]; simp)
    rw [htext] at hlength
    simp only [List.length_append, List.length_cons, List.length_nil] at hlength
    omega

section Phrases
variable {env : Environment}

theorem bears_literal {t : String} (h : t ∉ fixedTexts) : Bears env [.literal t] [.text t] :=
  bears_token _ fun _ => isLeaf_text.2 h

theorem bears_parameters (names : List String) :
    Bears env [.parameters names] (lambdaParameters names).tokens := by
  have htext : Bears env [.parameters names] [.text (String.intercalate ", " names)] :=
    bears_token _ fun h => isLeaf_text.2 (parameters_not_fixed h)
  rcases names with _ | ⟨first, _ | ⟨second, rest⟩⟩
  · exact (htext.behind [.openBracket] (by decide)).before
      [.closeBracket] (by decide)
  · rw [String.intercalate_singleton] at htext
    exact htext
  · exact (htext.behind [.openBracket] (by decide)).before
      [.closeBracket] (by decide)

variable {leaves : List Leaf} {phrase : Phrase}

theorem Bears.enclosed (h : Bears env leaves phrase.tokens) {opening closing : Token}
    (hopening : opening.isLeaf = false) (hclosing : closing.isLeaf = false) :
    Bears env leaves (Phrase.enclosed opening closing phrase).tokens :=
  (h.behind [opening] (by simp [hopening])).before
    [closing] (by simp [hclosing])

theorem Bears.bracketedIf (h : Bears env leaves phrase.tokens) (condition : Bool) :
    Bears env leaves (Phrase.bracketedIf condition phrase).tokens := by
  unfold Phrase.bracketedIf
  split
  · exact h.enclosed rfl rfl
  · exact h

theorem bears_join {α : Type} (separator : Token) (hseparator : separator.isLeaf = false)
    {xs : List α} {leaves : α → List Leaf} {phrase : α → Phrase}
    (h : ∀ x ∈ xs, Bears env (leaves x) (phrase x).tokens) :
    Bears env (xs.flatMap leaves) (Phrase.join separator (xs.map phrase)).tokens := by
  induction xs with
  | nil => exact bears_nil
  | cons x rest ih =>
      have hx := h x List.mem_cons_self
      have hrest := ih fun y hy => h y (List.mem_cons_of_mem _ hy)
      cases rest with
      | nil =>
          rw [List.flatMap_cons, List.flatMap_nil, List.append_nil]
          exact hx
      | cons y rest =>
          exact (hx.before [separator] (by simp [hseparator])).append hrest

theorem bears_dimension (dimension : UInt32) : Bears env [] (dimensionPhrase dimension).tokens := by
  refine bears_of_fixed (List.any_eq_false.2 fun token htoken => ?_)
  rw [List.eq_of_mem_replicate htoken]
  decide

end Phrases

/-! ## Types -/

theorem argumentPhrases_eq_map (env : Environment) (arguments : List TypeArgument) :
    argumentPhrases env arguments = arguments.map (TypeArgument.phrase env) := by
  induction arguments with
  | nil => rfl
  | cons argument rest ih => rw [argumentPhrases, ih, List.map_cons]

theorem argumentLeaves_eq_flatMap (arguments : List TypeArgument) :
    argumentLeaves arguments = arguments.flatMap TypeArgument.leaves := by
  induction arguments with
  | nil => rfl
  | cons argument rest ih => rw [argumentLeaves, ih, List.flatMap_cons]

mutual

theorem JavaType.bears (env : Environment) : (t : JavaType) →
    Bears env t.leaves (t.phrase env).tokens
  | .primitive t => by
      rw [JavaType.leaves, JavaType.phrase]
      exact (bears_dimension t.dimension).behind [.keyword t.kind.keyword] rfl
  | .classType t => by
      rw [JavaType.leaves, JavaType.phrase]
      exact t.bears_unmentioned env
  | .memberType member outer => by
      rw [JavaType.leaves, JavaType.phrase]
      exact ((outer.bears env).before [.dot] (by decide)).append
        (member.bears_unmentioned env)
  | .typeVariable t => by
      rw [JavaType.leaves, JavaType.phrase]
      exact (bears_name env t.name).append (bears_dimension t.dimension)

theorem ClassType.bears_unmentioned (env : Environment) : (t : ClassType) →
    Bears env t.leaves (t.unmentionedPhrase env).tokens
  | ⟨internalName, _, name, none, dimension⟩ => by
      rw [ClassType.leaves, ClassType.unmentionedPhrase]
      exact ((bears_reference env internalName name).append bears_nil).append
        (bears_dimension dimension)
  | ⟨internalName, _, name, some arguments, dimension⟩ => by
      rw [ClassType.leaves, ClassType.unmentionedPhrase, ← List.append_nil (arguments.leaves)]
      exact ((bears_reference env internalName name).append
        ((arguments.bears env).enclosed (by decide) (by decide))).append
        (bears_dimension dimension)

theorem TypeArgument.bears (env : Environment) : (t : TypeArgument) →
    Bears env t.leaves (t.phrase env).tokens
  | .type t => by
      rw [TypeArgument.leaves, TypeArgument.phrase]
      exact t.bears env
  | .wildcard => by
      rw [TypeArgument.leaves, TypeArgument.phrase]
      exact bears_of_fixed (by decide)
  | .wildcardExtends bound => by
      rw [TypeArgument.leaves, TypeArgument.phrase]
      exact (bound.bears env).behind
        [.questionMark, .space, .keyword "extends", .space] (by decide)
  | .wildcardSuper bound => by
      rw [TypeArgument.leaves, TypeArgument.phrase]
      exact (bound.bears env).behind
        [.questionMark, .space, .keyword "super", .space] (by decide)
  | .list first second rest => by
      have hall : ∀ argument ∈ first :: second :: rest,
          Bears env argument.leaves (argument.phrase env).tokens := by
        rw [List.forall_mem_cons, List.forall_mem_cons]
        exact ⟨first.bears env, second.bears env, bears_typeArguments env rest⟩
      have hjoin := bears_join .commaSpace (by decide) hall
      rw [TypeArgument.leaves, TypeArgument.phrase, argumentLeaves_eq_flatMap,
        argumentPhrases_eq_map, List.append_assoc]
      exact hjoin

theorem bears_typeArguments (env : Environment) : (arguments : List TypeArgument) →
    ∀ argument ∈ arguments, Bears env argument.leaves (argument.phrase env).tokens
  | [] => fun _ h => nomatch h
  | argument :: rest => by
      rw [List.forall_mem_cons]
      exact ⟨argument.bears env, bears_typeArguments env rest⟩

end

theorem ClassType.bears (env : Environment) (t : ClassType) :
    Bears env t.leaves (t.phrase env).tokens :=
  t.bears_unmentioned env

/-! ## Expressions -/

theorem expressionLeaves_eq_flatMap (expressions : List Expression) :
    expressionLeaves expressions = expressions.flatMap Expression.leaves := by
  induction expressions with
  | nil => rfl
  | cons e rest ih => rw [expressionLeaves, ih, List.flatMap_cons]

theorem assignmentToken_fixed (operator : Option BinaryOperator) :
    (assignmentToken operator).isLeaf = false := by
  cases operator with
  | none => decide
  | some operator => cases operator <;> decide

section Expressions
variable (env : Environment)

/-- The phrase of the expression bears its leaves. -/
def Expression.BearsLeaves (e : Expression) : Prop :=
  Bears env e.leaves (e.phrase env).tokens

variable {env}

theorem bears_unary (operator : UnaryOperator) {leaves : List Leaf} {operand : Phrase}
    (h : Bears env leaves operand.tokens) :
    Bears env leaves (unaryPhrase operator operand).tokens := by
  have hsymbol : [Token.text operator.symbol].any Token.isLeaf = false := by
    cases operator <;> decide
  unfold unaryPhrase
  split
  · exact h.before _ hsymbol
  · exact (h.bracketedIf _).behind _ hsymbol

theorem bears_receiver {object : Option Expression}
    (h : ∀ part ∈ object.toList, part.BearsLeaves env) :
    Bears env (optionalLeaves object) (receiverPhrase env object).tokens := by
  cases object with
  | none => exact bears_nil
  | some object =>
      have hobject := (h object (by simp)).bracketedIf (object.isCompound || object.isUnary)
      exact hobject.before [.dot] (by decide)

theorem bears_arguments {arguments : List Expression}
    (h : ∀ part ∈ arguments, part.BearsLeaves env) :
    Bears env (expressionLeaves arguments)
      (argumentsPhrase (expressionPhrases env arguments)).tokens := by
  rw [expressionLeaves_eq_flatMap, expressionPhrases_eq_map]
  exact (bears_join _ (by decide) h).enclosed rfl rfl

end Expressions

theorem Expression.bears (env : Environment) (e : Expression) : e.BearsLeaves env := by
  induction e using Expression.induction_on_parts with
  | step e h =>
  cases e with
  | boolean value =>
      cases value <;> exact bears_of_fixed rfl
  | nullLiteral | thisReference => exact bears_of_fixed rfl
  | integer value => exact bears_literal (integer_not_fixed value)
  | long value => exact bears_literal (long_not_fixed value)
  | double value => exact bears_literal (double_not_fixed value)
  | character value => exact bears_literal (quoted_not_fixed (by decide) _)
  | text value => exact bears_literal (quoted_not_fixed (by decide) value)
  | named name => exact bears_name env name
  | field object name =>
      exact (bears_receiver h).append (bears_name env name)
  | call object name arguments =>
      simp only [Expression.parts, List.forall_mem_append] at h
      rw [Expression.BearsLeaves, Expression.leaves, Expression.phrase, ← List.singleton_append,
        ← List.append_assoc]
      exact ((bears_receiver h.1).append (bears_name env name)).append (bears_arguments h.2)
  | new type arguments =>
      exact ((type.bears env).behind [.keyword "new", .space] (by decide)).append
        (bears_arguments h)
  | binary operator left right =>
      have hleft := (h left (by simp [Expression.parts])).bracketedIf left.isCompound
      have hright := (h right (by simp [Expression.parts])).bracketedIf right.isCompound
      have hoperator : [Token.space, .text operator.symbol, .space].any Token.isLeaf = false := by
        cases operator <;> decide
      exact (hleft.before _ hoperator).append hright
  | unary operator operand =>
      exact bears_unary operator ((h operand List.mem_cons_self).bracketedIf operand.isCompound)
  | assignment operator target value =>
      have htarget := h target (by simp [Expression.parts])
      have hvalue := h value (by simp [Expression.parts])
      exact (htarget.before [assignmentToken operator]
        (by simp [assignmentToken_fixed operator])).append hvalue
  | typeCast type operand =>
      exact ((type.bears env).enclosed rfl rfl).append
        ((h operand List.mem_cons_self).bracketedIf operand.isCompound)
  | instanceOf operand type =>
      have hoperand := (h operand List.mem_cons_self).bracketedIf operand.isCompound
      exact (hoperand.before [.space, .keyword "instanceof", .space]
        (by decide)).append (type.bears env)
  | conditional condition whenTrue whenFalse =>
      have hcondition := (h condition (by simp [Expression.parts])).bracketedIf condition.isCompound
      have htrue := (h whenTrue (by simp [Expression.parts])).bracketedIf whenTrue.isCompound
      have hfalse := (h whenFalse (by simp [Expression.parts])).bracketedIf whenFalse.isCompound
      exact (((hcondition.before [.spaceQuestionSpace] (by decide)).append
        htrue).before [.spaceColonSpace] (by decide)).append hfalse
  | arrayAccess array index =>
      have harray := (h array (by simp [Expression.parts])).bracketedIf
        (array.isCompound || array.isUnary || array.isNew)
      have hindex := h index (by simp [Expression.parts])
      exact harray.append (hindex.enclosed (by decide) (by decide))
  | typeReference type => exact type.bears env
  | lambda parameters body =>
      rw [Expression.BearsLeaves, Expression.leaves, Expression.phrase, ← List.singleton_append]
      exact ((bears_parameters parameters).before [.spaceArrowSpace]
        (by decide)).append (h body List.mem_cons_self)

end JavaFragments
