import JavaFragments.Proofs.Grammar
import JavaFragments.Type.Equality

/-! # Expressions are known by their tokens

Every plain expression is read back from the symbols of its tokens, whatever ends it. The brackets
of operands, receivers and arrays are what that takes: an operand is read up to the next operator,
and what stands between brackets is read as an expression of its own. Since the grammar reads
nothing in two ways, plain expressions with the same tokens are the same. -/
set_option autoImplicit false

namespace JavaFragments

/-! ## Plain expressions -/

/-- A class type that has nothing but its internal name and a dimension. -/
def ClassType.isPlain (t : ClassType) : Bool :=
  t == { ClassType.ofInternalName t.internalName with dimension := t.dimension }

def JavaType.isPlain : JavaType → Bool
  | .primitive _ => true
  | .classType t => t.isPlain
  | _ => false

/-- Whether the operator assigns to its operand. -/
def UnaryOperator.assigns : UnaryOperator → Bool
  | .neg | .not | .bitNot => false
  | _ => true

/-- What can be assigned to. -/
def Expression.isVariable : Expression → Bool
  | .named _ => true
  | .field .. => true
  | .arrayAccess .. => true
  | _ => false

mutual

/-- No doubles and no fields without an object. Names are identifiers, types are primitive or plain
class types, and only variables are assigned to. -/
def Expression.isPlain : Expression → Bool
  | .double _ => false
  | .named name => isIdentifier name
  | .field object name => object.isSome && isPlainObject object && isIdentifier name
  | .call object name arguments =>
      isPlainObject object && isIdentifier name && arePlain arguments
  | .new type arguments => type.isPlain && arePlain arguments
  | .binary _ left right => left.isPlain && right.isPlain
  | .unary operator operand => operand.isPlain && (!operator.assigns || operand.isVariable)
  | .assignment _ target value => target.isPlain && target.isVariable && value.isPlain
  | .typeCast type operand => type.isPlain && operand.isPlain
  | .instanceOf operand type => operand.isPlain && type.isPlain
  | .conditional condition whenTrue whenFalse =>
      condition.isPlain && whenTrue.isPlain && whenFalse.isPlain
  | .arrayAccess array index => array.isPlain && index.isPlain
  | .typeReference type => type.isPlain
  | .lambda parameters body => parameters.all isIdentifier && body.isPlain
  | _ => true

def isPlainObject : Option Expression → Bool
  | none => true
  | some object => object.isPlain

def arePlain : List Expression → Bool
  | [] => true
  | e :: rest => e.isPlain && arePlain rest

end

theorem isPlain_of_mem {e : Expression} {expressions : List Expression}
    (h : arePlain expressions = true) (he : e ∈ expressions) : e.isPlain = true := by
  induction expressions with
  | nil => cases he
  | cons first rest ih =>
      rw [arePlain, Bool.and_eq_true] at h
      rcases List.mem_cons.1 he with rfl | he
      · exact h.1
      · exact ih h.2 he

/-! ## Symbols of phrases -/

namespace Phrase

def symbols (phrase : Phrase) : List Symbol :=
  phrase.tokens.map Token.symbol

@[simp] theorem symbols_append (front back : Phrase) :
    (front ++ back).symbols = front.symbols ++ back.symbols :=
  List.map_append

@[simp] theorem symbols_empty : empty.symbols = [] := rfl

@[simp] theorem symbols_mention (t : ClassType) : (mention t).symbols = [] := rfl

@[simp] theorem symbols_ofToken (token : Token) : (ofToken token).symbols = [token.symbol] := rfl

@[simp] theorem symbols_ofTokens (ts : List Token) : (ofTokens ts).symbols = ts.map Token.symbol :=
  rfl

@[simp] theorem symbols_enclosed (opening closing : Token) (phrase : Phrase) :
    (enclosed opening closing phrase).symbols =
      opening.symbol :: (phrase.symbols ++ [closing.symbol]) := by
  simp [enclosed]

end Phrase

section Types
variable {env : Environment} {type : JavaType} {rest : List Symbol}

/-- The symbols of a plain type are its name and its dimensions. -/
theorem symbols_type (env : Environment) (h : type.isPlain = true) :
    ∃ base : JavaType, base.withDimension type.dimension = type ∧ (type.phrase env).symbols =
      .typeName base :: List.replicate type.dimension.toNat .dimension := by
  have hdimension : ∀ n : UInt32,
      (dimensionPhrase n).symbols = List.replicate n.toNat .dimension := fun n => List.map_replicate
  cases type with
  | primitive t =>
      refine ⟨.ofPrimitive t.kind, rfl, ?_⟩
      rw [JavaType.phrase, Phrase.symbols_append, Phrase.symbols_ofToken, symbol_keyword,
        hdimension]
      rfl
  | classType t =>
      obtain ⟨internalName, qualifiedName, name, arguments, dimension⟩ := t
      obtain ⟨rfl, rfl, rfl⟩ : qualifiedName = InternalName.qualifiedName internalName ∧
          name = InternalName.simpleName internalName ∧ arguments = none := by
        have heq := eq_of_beq h
        simpa [ClassType.ofInternalName] using heq
      refine ⟨.ofInternalName internalName, rfl, ?_⟩
      simp only [JavaType.phrase, ClassType.unmentionedPhrase, referencePhrase,
        Phrase.symbols_append, Phrase.symbols_mention, Phrase.symbols_ofToken,
        Phrase.symbols_empty, hdimension]
      rfl
  | memberType => cases h
  | typeVariable => cases h

theorem readType_phrase (h : type.isPlain = true) (hrest : ∀ others, rest ≠ .dimension :: others) :
    readType ((type.phrase env).symbols ++ rest) = some (type, rest) := by
  obtain ⟨base, hbase, hsymbols⟩ := symbols_type env h
  rw [hsymbols, List.cons_append, readType_dimension _ _ hrest, hbase]

end Types

/-! ## Reading phrases back -/

section Expressions
variable {env : Environment}

/-- The expression is read back from its phrase, as a whole, as an operand that needs no brackets
and as the front of a longer operand. -/
structure ReadsBack (env : Environment) (e : Expression) : Prop where
  whole : ∀ {rest}, EndsExpression rest →
    ReadsExpression ((e.phrase env).symbols ++ rest) e rest
  operand : e.isCompound = false → ∀ front {rest}, EndsOperand rest →
    ReadsOperand front ((e.phrase env).symbols ++ rest) e rest
  primary : e.isCompound = false → e.isUnary = false → ∀ front {rest e' rest'}, EndsWord rest →
    ReadsSuffixes e rest e' rest' → ReadsOperand front ((e.phrase env).symbols ++ rest) e' rest'

theorem readsBack_of_whole {e : Expression} (hcompound : e.isCompound = true)
    (h : ∀ {rest}, EndsExpression rest →
      ReadsExpression ((e.phrase env).symbols ++ rest) e rest) : ReadsBack env e where
  whole := h
  operand hnot := by
    rw [hcompound] at hnot
    cases hnot
  primary hnot := by
    rw [hcompound] at hnot
    cases hnot

theorem readsBack_of_operand {e : Expression} (hunary : e.isUnary = true)
    (h : ∀ front {rest}, EndsOperand rest →
      ReadsOperand front ((e.phrase env).symbols ++ rest) e rest) : ReadsBack env e where
  whole hrest := .intro (h true hrest.operand) (.done hrest)
  operand _ := h
  primary _ hnot := by
    rw [hunary] at hnot
    cases hnot

theorem readsBack_of_primary {e : Expression}
    (h : ∀ front {rest e' rest'}, EndsWord rest → ReadsSuffixes e rest e' rest' →
      ReadsOperand front ((e.phrase env).symbols ++ rest) e' rest') : ReadsBack env e where
  whole hrest := .intro (h true hrest.operand.word (.done hrest.operand)) (.done hrest)
  operand _ front _ hrest := h front hrest.word (.done hrest)
  primary _ _ := h

variable {e e' : Expression} {phrase : Phrase} {front : Bool} {rest rest' : List Symbol}

theorem readsOperand_bracketed
    (h : ReadsExpression (phrase.symbols ++ .closing :: rest) e (.closing :: rest))
    (hfront : front = true → ∀ type, e ≠ .typeReference type)
    (hsuffixes : ReadsSuffixes e rest e' rest') :
    ReadsOperand front ((Phrase.bracketed phrase).symbols ++ rest) e' rest' := by
  have hsymbols : (Phrase.bracketed phrase).symbols ++ rest =
      .opening :: (phrase.symbols ++ .closing :: rest) := by
    simp [Phrase.bracketed]
  rw [hsymbols]
  exact .bracketed h hfront hsuffixes

/-- In front of a member or an index. Brackets stand around what would not be read as a whole, and
never around a type, since that would be a cast. -/
theorem ReadsBack.bracketedIf (h : ReadsBack env e) {brackets : Bool}
    (hneeded : brackets = false → e.isCompound = false ∧ e.isUnary = false)
    (htype : ∀ type, e = .typeReference type → brackets = false) (hrest : EndsWord rest)
    (hsuffixes : ReadsSuffixes e rest e' rest') :
    ReadsOperand front ((Phrase.bracketedIf brackets (e.phrase env)).symbols ++ rest) e' rest' := by
  cases brackets with
  | true =>
      refine readsOperand_bracketed (h.whole rfl) (fun _ type he => ?_) hsuffixes
      cases htype type he
  | false =>
      obtain ⟨hcompound, hunary⟩ := hneeded rfl
      exact h.primary hcompound hunary front hrest hsuffixes

theorem ReadsBack.asReceiver (h : ReadsBack env e) (hrest : EndsWord rest)
    (hsuffixes : ReadsSuffixes e rest e' rest') :
    ReadsOperand front ((e.asReceiver (e.phrase env)).symbols ++ rest) e' rest' := by
  refine h.bracketedIf Bool.or_eq_false_iff.1 ?_ hrest hsuffixes
  rintro type rfl
  rfl

theorem ReadsBack.asArray (h : ReadsBack env e) (hrest : EndsWord rest)
    (hsuffixes : ReadsSuffixes e rest e' rest') :
    ReadsOperand front ((e.asArray (e.phrase env)).symbols ++ rest) e' rest' := by
  refine h.bracketedIf (fun hbrackets => ?_) ?_ hrest hsuffixes
  · exact Bool.or_eq_false_iff.1 (Bool.or_eq_false_iff.1 hbrackets).1
  · rintro type rfl
    rfl

theorem ReadsBack.asOperand (h : ReadsBack env e) (hrest : EndsOperand rest) :
    ReadsOperand front ((e.asOperand (e.phrase env)).symbols ++ rest) e rest := by
  unfold Expression.asOperand
  cases hcompound : e.isCompound with
  | false => exact h.operand hcompound front hrest
  | true =>
      refine readsOperand_bracketed (h.whole rfl) ?_ (.done hrest)
      rintro - type rfl
      cases hcompound

/-! ## Arguments -/

theorem readsListed_join {first : Expression} {others : List Expression}
    (h : ∀ argument ∈ first :: others, ReadsBack env argument) :
    ReadsListed
      ((Phrase.join .commaSpace ((first :: others).map (Expression.phrase env))).symbols ++
        .closingArguments :: rest) (first :: others) rest := by
  have hfirst := h first List.mem_cons_self
  induction others generalizing first with
  | nil => exact .last (hfirst.whole rfl)
  | cons second others ih =>
      have hothers : ∀ argument ∈ second :: others, ReadsBack env argument :=
        fun argument hargument => h argument (List.mem_cons_of_mem _ hargument)
      have hsymbols : (Phrase.join .commaSpace
            ((first :: second :: others).map (Expression.phrase env))).symbols ++
            .closingArguments :: rest =
          (first.phrase env).symbols ++ .comma ::
            ((Phrase.join .commaSpace ((second :: others).map (Expression.phrase env))).symbols ++
              .closingArguments :: rest) := by
        simp [Phrase.join]
      rw [hsymbols]
      exact .comma (hfirst.whole rfl) (ih hothers (hothers second List.mem_cons_self))

theorem readsArguments_join {arguments : List Expression}
    (h : ∀ argument ∈ arguments, ReadsBack env argument) :
    ReadsArguments ((Phrase.join .commaSpace (expressionPhrases env arguments)).symbols ++
      .closingArguments :: rest) arguments rest := by
  rw [expressionPhrases_eq_map]
  cases arguments with
  | nil => exact .empty
  | cons first others => exact .nonempty (readsListed_join h)

theorem symbols_arguments (phrases : List Phrase) :
    (argumentsPhrase phrases).symbols =
      .openingArguments :: ((Phrase.join .commaSpace phrases).symbols ++ [.closingArguments]) := by
  simp [argumentsPhrase, Phrase.parameters]

/-! ## One lemma for each kind of expression -/

theorem readsBack_atom (h : (e.phrase env).symbols = [.atom e]) : ReadsBack env e := by
  refine readsBack_of_primary fun front _ _ _ _ hsuffixes => ?_
  rw [h]
  exact .atom hsuffixes

theorem readsBack_named {name : String} (h : isIdentifier name = true) :
    ReadsBack env (.named name) := by
  refine readsBack_of_primary fun front rest _ _ hrest hsuffixes => ?_
  have hsymbols : ((Expression.named name).phrase env).symbols ++ rest = .name name :: rest := by
    simp [Expression.phrase, symbol_name h]
  rw [hsymbols]
  exact .name hrest hsuffixes

theorem readsBack_field {object : Expression} {name : String} (hobject : ReadsBack env object)
    (h : isIdentifier name = true) : ReadsBack env (.field (some object) name) := by
  refine readsBack_of_primary fun front rest _ _ hrest hsuffixes => ?_
  have hsymbols : ((Expression.field (some object) name).phrase env).symbols ++ rest =
      (object.asReceiver (object.phrase env)).symbols ++ .dot :: .name name :: rest := by
    simp [Expression.phrase, receiverPhrase, symbol_name h]
  rw [hsymbols]
  exact hobject.asReceiver rfl (.field hrest hsuffixes)

theorem readsBack_call {object : Option Expression} {name : String} {arguments : List Expression}
    (hobject : ∀ e ∈ object.toList, ReadsBack env e) (h : isIdentifier name = true)
    (harguments : ∀ argument ∈ arguments, ReadsBack env argument) :
    ReadsBack env (.call object name arguments) := by
  refine readsBack_of_primary fun front rest _ _ _ hsuffixes => ?_
  have hsymbols : ((Expression.call object name arguments).phrase env).symbols ++ rest =
      (receiverPhrase env object).symbols ++ .name name :: .openingArguments ::
        ((Phrase.join .commaSpace (expressionPhrases env arguments)).symbols ++
          .closingArguments :: rest) := by
    simp [Expression.phrase, symbols_arguments, symbol_name h]
  rw [hsymbols]
  cases object with
  | none => exact .call (readsArguments_join harguments) hsuffixes
  | some object =>
      rw [receiverPhrase, Phrase.symbols_append, List.append_assoc]
      exact (hobject object (by simp)).asReceiver rfl
        (.call (readsArguments_join harguments) hsuffixes)

theorem readsBack_new {type : ClassType} {arguments : List Expression}
    (htype : type.isPlain = true) (h : ∀ argument ∈ arguments, ReadsBack env argument) :
    ReadsBack env (.new type arguments) := by
  refine readsBack_of_primary fun front rest _ _ _ hsuffixes => ?_
  have hsymbols : ((Expression.new type arguments).phrase env).symbols ++ rest =
      .new :: .space :: (((JavaType.classType type).phrase env).symbols ++ .openingArguments ::
        ((Phrase.join .commaSpace (expressionPhrases env arguments)).symbols ++
          .closingArguments :: rest)) := by
    simp [Expression.phrase, symbols_arguments, JavaType.phrase, ClassType.phrase]
  rw [hsymbols]
  refine .new (readType_phrase htype ?_) (readsArguments_join h) hsuffixes
  rintro others ⟨⟩

theorem readsBack_typeReference {type : JavaType} (h : type.isPlain = true) :
    ReadsBack env (.typeReference type) := by
  refine readsBack_of_primary fun front rest _ _ hrest hsuffixes => ?_
  have hread : readType ((type.phrase env).symbols ++ rest) = some (type, rest) :=
    readType_phrase h hrest.not_dimension
  obtain ⟨base, -, hsymbols⟩ := symbols_type env h
  rw [hsymbols, List.cons_append] at hread
  rw [Expression.phrase, hsymbols, List.cons_append]
  exact .typeReference hread hsuffixes

theorem readsBack_arrayAccess {array index : Expression} (harray : ReadsBack env array)
    (hindex : ReadsBack env index) : ReadsBack env (.arrayAccess array index) := by
  refine readsBack_of_primary fun front rest _ _ _ hsuffixes => ?_
  have hsymbols : ((Expression.arrayAccess array index).phrase env).symbols ++ rest =
      (array.asArray (array.phrase env)).symbols ++
        .openingSquare :: ((index.phrase env).symbols ++ .closingSquare :: rest) := by
    simp [Expression.phrase]
  rw [hsymbols]
  exact harray.asArray rfl (.index (hindex.whole rfl) hsuffixes)

theorem readsBack_binary (operator : BinaryOperator) {left right : Expression}
    (hleft : ReadsBack env left) (hright : ReadsBack env right) :
    ReadsBack env (.binary operator left right) := by
  refine readsBack_of_whole rfl fun {rest} hrest => ?_
  have hsymbols : ((Expression.binary operator left right).phrase env).symbols ++ rest =
      (left.asOperand (left.phrase env)).symbols ++
        .space :: .operator operator.symbol :: .space ::
          ((right.asOperand (right.phrase env)).symbols ++ rest) := by
    simp [Expression.phrase, symbol_binary]
  rw [hsymbols]
  exact .intro (hleft.asOperand rfl)
    (.binary (binaryOperator?_symbol operator) (hright.asOperand hrest.operand))

theorem readsBack_operatorInFront {operator : UnaryOperator}
    (hoperator : operator.standsBehind = false) (h : ReadsBack env e) :
    ReadsBack env (.unary operator e) := by
  refine readsBack_of_operand rfl fun front rest hrest => ?_
  have hoperand : ReadsOperand false ((Phrase.bracketedIf
      (mergesWith operator.symbol (e.asOperand (e.phrase env)).tokens)
      (e.asOperand (e.phrase env))).symbols ++ rest) e rest := by
    cases mergesWith operator.symbol (e.asOperand (e.phrase env)).tokens with
    | false => exact h.asOperand hrest
    | true =>
        -- A type between these brackets is no cast, since the sign stands in front of them.
        refine readsOperand_bracketed (.intro (h.asOperand rfl) (.done rfl)) ?_ (.done hrest)
        rintro ⟨⟩
  have hsymbols : ((Expression.unary operator e).phrase env).symbols ++ rest =
      .operator operator.symbol :: ((Phrase.bracketedIf
        (mergesWith operator.symbol (e.asOperand (e.phrase env)).tokens)
        (e.asOperand (e.phrase env))).symbols ++ rest) := by
    simp [Expression.phrase, unaryPhrase, hoperator, symbol_unary]
  rw [hsymbols]
  exact .operatorInFront (prefixOperator?_symbol hoperator) hoperand

theorem readsBack_operatorBehind {operator : UnaryOperator}
    (hoperator : operator.standsBehind = true) (hvariable : e.isVariable = true)
    (h : ReadsBack env e) : ReadsBack env (.unary operator e) := by
  refine readsBack_of_operand rfl fun front rest hrest => ?_
  obtain ⟨hcompound, hunary⟩ : e.isCompound = false ∧ e.isUnary = false := by
    cases e <;> first | exact ⟨rfl, rfl⟩ | cases hvariable
  have hsymbols : ((Expression.unary operator e).phrase env).symbols ++ rest =
      (e.phrase env).symbols ++ .operator operator.symbol :: rest := by
    simp [Expression.phrase, unaryPhrase, hoperator, symbol_unary, Expression.asOperand,
      hcompound, Phrase.bracketedIf]
  rw [hsymbols]
  exact h.primary hcompound hunary front rfl (.operatorBehind (postfixOperator?_symbol hoperator))

theorem readsBack_assignment (operator : Option BinaryOperator) {target value : Expression}
    (hvariable : target.isVariable = true) (htarget : ReadsBack env target)
    (hvalue : ReadsBack env value) : ReadsBack env (.assignment operator target value) := by
  refine readsBack_of_whole rfl fun {rest} hrest => ?_
  have hcompound : target.isCompound = false := by
    cases target <;> first | rfl | cases hvariable
  have hsymbols : ((Expression.assignment operator target value).phrase env).symbols ++ rest =
      (target.phrase env).symbols ++
        .assignment operator :: ((value.phrase env).symbols ++ rest) := by
    simp [Expression.phrase, symbol_assignment]
  rw [hsymbols]
  exact .intro (htarget.operand hcompound true rfl) (.assignment (hvalue.whole hrest))

theorem readsBack_typeCast {type : JavaType} (htype : type.isPlain = true) (h : ReadsBack env e) :
    ReadsBack env (.typeCast type e) := by
  refine readsBack_of_whole rfl fun {rest} hrest => ?_
  have hinside : ∀ others, ReadsExpression ((type.phrase env).symbols ++ .closing :: others)
      (.typeReference type) (.closing :: others) :=
    fun _ => (readsBack_typeReference htype).whole rfl
  have hsymbols : ((Expression.typeCast type e).phrase env).symbols ++ rest =
      .opening :: ((type.phrase env).symbols ++
        .closing :: ((e.asOperand (e.phrase env)).symbols ++ rest)) := by
    simp [Expression.phrase, Phrase.bracketed]
  rw [hsymbols]
  exact .intro (.cast (hinside _) (h.asOperand hrest.operand)) (.done hrest)

theorem readsBack_instanceOf {type : JavaType} (h : ReadsBack env e) (htype : type.isPlain = true) :
    ReadsBack env (.instanceOf e type) := by
  refine readsBack_of_whole rfl fun {rest} hrest => ?_
  have hsymbols : ((Expression.instanceOf e type).phrase env).symbols ++ rest =
      (e.asOperand (e.phrase env)).symbols ++
        .space :: .instanceOf :: .space :: ((type.phrase env).symbols ++ rest) := by
    simp [Expression.phrase]
  rw [hsymbols]
  exact .intro (h.asOperand rfl)
    (.instanceOf (readType_phrase htype hrest.operand.word.not_dimension))

theorem readsBack_conditional {condition whenTrue whenFalse : Expression}
    (hcondition : ReadsBack env condition) (htrue : ReadsBack env whenTrue)
    (hfalse : ReadsBack env whenFalse) :
    ReadsBack env (.conditional condition whenTrue whenFalse) := by
  refine readsBack_of_whole rfl fun {rest} hrest => ?_
  have hsymbols :
      ((Expression.conditional condition whenTrue whenFalse).phrase env).symbols ++ rest =
        (condition.asOperand (condition.phrase env)).symbols ++
          .question :: ((whenTrue.asOperand (whenTrue.phrase env)).symbols ++
            .colon :: ((whenFalse.asOperand (whenFalse.phrase env)).symbols ++ rest)) := by
    simp [Expression.phrase]
  rw [hsymbols]
  exact .intro (hcondition.asOperand rfl)
    (.conditional (htrue.asOperand rfl) (hfalse.asOperand hrest.operand))

theorem readsBack_lambda {names : List String} (hnames : ∀ n ∈ names, isIdentifier n = true)
    {body : Expression} (h : ReadsBack env body) : ReadsBack env (.lambda names body) := by
  refine readsBack_of_whole rfl fun {rest} hrest => ?_
  by_cases hlength : names.length = 1
  · obtain ⟨name, rfl⟩ := List.length_eq_one_iff.1 hlength
    have hname := symbol_name (hnames name List.mem_cons_self)
    have hsymbols : ((Expression.lambda [name] body).phrase env).symbols ++ rest =
        .name name :: .arrow :: ((body.phrase env).symbols ++ rest) := by
      simp [Expression.phrase, lambdaParameters, hname]
    rw [hsymbols]
    exact .intro (.name rfl (.done rfl)) (.lambda (h.whole hrest))
  · have hparameters : lambdaParameters names =
        .bracketed (.ofToken (.text (String.intercalate ", " names))) := by
      rcases names with _ | ⟨first, _ | ⟨second, others⟩⟩
      · rfl
      · exact absurd rfl hlength
      · rfl
    have hsymbols : ((Expression.lambda names body).phrase env).symbols ++ rest =
        .opening :: .parameters names :: .closing :: .arrow ::
          ((body.phrase env).symbols ++ rest) := by
      simp [Expression.phrase, hparameters, Phrase.bracketed, symbol_parameters hnames hlength]
    rw [hsymbols]
    exact .intro (.lambda (h.whole hrest)) (.done hrest)

end Expressions

theorem Expression.readsBack (env : Environment) (e : Expression) :
    e.isPlain = true → ReadsBack env e := by
  induction e using Expression.induction_on_parts with
  | step e h =>
  intro hplain
  cases e with
  | boolean value => cases value <;> exact readsBack_atom rfl
  | nullLiteral | thisReference => exact readsBack_atom rfl
  | integer value => exact readsBack_atom (congrArg ([·]) (symbol_integer value))
  | long value => exact readsBack_atom (congrArg ([·]) (symbol_long value))
  | double => cases hplain
  | character value => exact readsBack_atom (congrArg ([·]) (symbol_character value))
  | text value => exact readsBack_atom (congrArg ([·]) (symbol_text value))
  | named name => exact readsBack_named hplain
  | field object name =>
      cases object with
      | none => cases hplain
      | some object =>
          obtain ⟨hobject, hname⟩ : object.isPlain = true ∧ isIdentifier name = true := by
            simpa [Expression.isPlain, isPlainObject] using hplain
          exact readsBack_field (h object (by simp [Expression.parts]) hobject) hname
  | call object name arguments =>
      simp only [Expression.isPlain, Bool.and_eq_true] at hplain
      obtain ⟨⟨hobject, hname⟩, harguments⟩ := hplain
      refine readsBack_call (fun e he => ?_) hname fun e he => ?_
      · refine h e (by simp [Expression.parts, Option.mem_toList.1 he]) ?_
        rw [Option.mem_toList.1 he] at hobject
        exact hobject
      · exact h e (by simp [Expression.parts, he]) (isPlain_of_mem harguments he)
  | new type arguments =>
      simp only [Expression.isPlain, Bool.and_eq_true] at hplain
      exact readsBack_new hplain.1 fun e he => h e he (isPlain_of_mem hplain.2 he)
  | binary operator left right =>
      simp only [Expression.isPlain, Bool.and_eq_true] at hplain
      exact readsBack_binary operator (h left (by simp [Expression.parts]) hplain.1)
        (h right (by simp [Expression.parts]) hplain.2)
  | unary operator operand =>
      simp only [Expression.isPlain, Bool.and_eq_true] at hplain
      obtain ⟨hoperand, hvariable⟩ := hplain
      have hreads := h operand List.mem_cons_self hoperand
      cases hbehind : operator.standsBehind with
      | false => exact readsBack_operatorInFront hbehind hreads
      | true =>
          refine readsBack_operatorBehind hbehind ?_ hreads
          cases operator <;> first | exact hvariable | cases hbehind
  | assignment operator target value =>
      simp only [Expression.isPlain, Bool.and_eq_true] at hplain
      exact readsBack_assignment operator hplain.1.2
        (h target (by simp [Expression.parts]) hplain.1.1)
        (h value (by simp [Expression.parts]) hplain.2)
  | typeCast type operand =>
      simp only [Expression.isPlain, Bool.and_eq_true] at hplain
      exact readsBack_typeCast hplain.1 (h operand List.mem_cons_self hplain.2)
  | instanceOf operand type =>
      simp only [Expression.isPlain, Bool.and_eq_true] at hplain
      exact readsBack_instanceOf (h operand List.mem_cons_self hplain.1) hplain.2
  | conditional condition whenTrue whenFalse =>
      simp only [Expression.isPlain, Bool.and_eq_true] at hplain
      exact readsBack_conditional (h condition (by simp [Expression.parts]) hplain.1.1)
        (h whenTrue (by simp [Expression.parts]) hplain.1.2)
        (h whenFalse (by simp [Expression.parts]) hplain.2)
  | arrayAccess array index =>
      simp only [Expression.isPlain, Bool.and_eq_true] at hplain
      exact readsBack_arrayAccess (h array (by simp [Expression.parts]) hplain.1)
        (h index (by simp [Expression.parts]) hplain.2)
  | typeReference type => exact readsBack_typeReference hplain
  | lambda parameters body =>
      simp only [Expression.isPlain, Bool.and_eq_true, List.all_eq_true] at hplain
      exact readsBack_lambda hplain.1 (h body List.mem_cons_self hplain.2)

/-- Plain expressions that print the same tokens are the same. -/
theorem eq_of_tokens_phrase_eq (env : Environment) {a b : Expression} (ha : a.isPlain = true)
    (hb : b.isPlain = true) (h : (a.phrase env).tokens = (b.phrase env).tokens) : a = b := by
  have hreada : ReadsExpression ((a.phrase env).symbols ++ []) a [] :=
    (a.readsBack env ha).whole rfl
  have hreadb : ReadsExpression ((b.phrase env).symbols ++ []) b [] :=
    (b.readsBack env hb).whole rfl
  have hsymbols : (a.phrase env).symbols = (b.phrase env).symbols :=
    congrArg (List.map Token.symbol) h
  rw [hsymbols] at hreada
  exact (hreada.unique hreadb).1

/-- Both print `(x -> -(-1))[(int[])y].put((-x)[0]++)`. -/
theorem eq_of_tokens_phrase_eq_of_signs :
    Expression.methodOf
        (.arrayAccess (.lambda ["x"] (.unary .neg (.integer (-1))))
          (.typeCast (.primitive ⟨.int, 1⟩) (.named "y")))
        "put" [.unary .postInc (.arrayAccess (.unary .neg (.named "x")) (.integer 0))] =
      .call
        (some (.arrayAccess (.lambda ["x"] (.unary .neg (.integer (-1))))
          (.typeCast (.primitive ⟨.int, 1⟩) (.named "y"))))
        "put" [.unary .postInc (.arrayAccess (.unary .neg (.named "x")) (.integer 0))] :=
  eq_of_tokens_phrase_eq ⟨"Main"⟩ (by decide) (by decide) rfl

end JavaFragments
