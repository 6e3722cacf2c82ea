import JavaFragments.Proofs.Symbols

/-! # A grammar of expressions

`ReadsExpression symbols e rest` says that `e` stands in front of `rest` in `symbols`. An operand is
read with all that stands behind it up to the next operator, and then the operator decides how it
goes on. A type between brackets is a cast at the front of an expression only. No symbols are read
in two ways. -/
set_option autoImplicit false

namespace JavaFragments

def JavaType.withDimension (dimension : UInt32) : JavaType → JavaType
  | .primitive t => .primitive { t with dimension := dimension }
  | .classType t => .classType { t with dimension := dimension }
  | t => t

/-- How many pairs of array brackets stand in front, and what is behind them. -/
def readDimension : List Symbol → Nat × List Symbol
  | .dimension :: rest => ((readDimension rest).1 + 1, (readDimension rest).2)
  | rest => (0, rest)

def readType : List Symbol → Option (JavaType × List Symbol)
  | .typeName type :: rest =>
      some (type.withDimension (UInt32.ofNat (readDimension rest).1), (readDimension rest).2)
  | _ => none

def prefixOperator? (text : String) : Option UnaryOperator :=
  [UnaryOperator.neg, .not, .bitNot, .preInc, .preDec].find? (·.symbol = text)

def postfixOperator? (text : String) : Option UnaryOperator :=
  [UnaryOperator.postInc, .postDec].find? (·.symbol = text)

def binaryOperator? (text : String) : Option BinaryOperator :=
  BinaryOperator.all.find? (·.symbol = text)

/-! ## What may stand behind -/

/-- Symbols that make a call of a name and an array of a type. -/
def Symbol.extendsWord : Symbol → Bool
  | .openingArguments | .dimension => true
  | _ => false

/-- Symbols by which an operand goes on. -/
def Symbol.extendsOperand : Symbol → Bool
  | .dot | .openingSquare | .operator _ => true
  | s => s.extendsWord

/-- Symbols by which an expression goes on behind its first operand. -/
def Symbol.extendsExpression : Symbol → Bool
  | .space | .question | .assignment _ | .arrow => true
  | s => s.extendsOperand

/-- Nothing stands in front that would be read into the name or the type before it. -/
def EndsWord (rest : List Symbol) : Prop :=
  rest.head?.any Symbol.extendsWord = false

/-- Nothing stands in front that would be read into the operand before it. -/
def EndsOperand (rest : List Symbol) : Prop :=
  rest.head?.any Symbol.extendsOperand = false

/-- Nothing stands in front that would be read into the expression before it. -/
def EndsExpression (rest : List Symbol) : Prop :=
  rest.head?.any Symbol.extendsExpression = false

theorem EndsOperand.word {rest : List Symbol} (h : EndsOperand rest) : EndsWord rest := by
  rcases rest with _ | ⟨s, rest⟩
  · rfl
  · cases s <;> first | rfl | cases h

theorem EndsExpression.operand {rest : List Symbol} (h : EndsExpression rest) :
    EndsOperand rest := by
  rcases rest with _ | ⟨s, rest⟩
  · rfl
  · cases s <;> first | rfl | cases h

section Lookahead
variable {rest : List Symbol}

/-! ## Types and operators -/

theorem EndsWord.not_dimension (h : EndsWord rest) : ∀ others, rest ≠ .dimension :: others := by
  rintro others rfl
  cases h

theorem readDimension_replicate (n : Nat) (h : ∀ others, rest ≠ .dimension :: others) :
    readDimension (List.replicate n .dimension ++ rest) = (n, rest) := by
  induction n with
  | zero =>
      rw [List.replicate_zero, List.nil_append, readDimension]
      exact h
  | succ n ih => rw [List.replicate_succ, List.cons_append, readDimension, ih]

theorem readType_dimension (type : JavaType) (dimension : UInt32)
    (h : ∀ others, rest ≠ .dimension :: others) :
    readType (.typeName type :: (List.replicate dimension.toNat .dimension ++ rest)) =
      some (type.withDimension dimension, rest) := by
  rw [readType, readDimension_replicate _ h, UInt32.ofNat_toNat]

theorem prefixOperator?_symbol {operator : UnaryOperator} (h : operator.standsBehind = false) :
    prefixOperator? operator.symbol = some operator := by
  cases operator <;> first | rfl | cases h

theorem postfixOperator?_symbol {operator : UnaryOperator} (h : operator.standsBehind = true) :
    postfixOperator? operator.symbol = some operator := by
  cases operator <;> first | rfl | cases h

theorem binaryOperator?_symbol (operator : BinaryOperator) :
    binaryOperator? operator.symbol = some operator := by
  cases operator <;> rfl

end Lookahead

/-! ## The grammar -/

mutual

inductive ReadsExpression : List Symbol → Expression → List Symbol → Prop
  | intro {symbols rest rest' : List Symbol} {operand e : Expression}
      (first : ReadsOperand true symbols operand rest)
      (behind : ReadsBehind operand rest e rest') :
      ReadsExpression symbols e rest'

/-- The flag says that nothing stands in front of the operand. There a type between brackets is a
cast, and it is an operand in brackets behind an operator. -/
inductive ReadsOperand : Bool → List Symbol → Expression → List Symbol → Prop
  | atom {front : Bool} {symbols rest : List Symbol} {operand e : Expression}
      (suffixes : ReadsSuffixes operand symbols e rest) :
      ReadsOperand front (.atom operand :: symbols) e rest
  | name {front : Bool} {symbols rest : List Symbol} {name : String} {e : Expression}
      (ends : EndsWord symbols)
      (suffixes : ReadsSuffixes (.named name) symbols e rest) :
      ReadsOperand front (.name name :: symbols) e rest
  | call {front : Bool} {symbols rest rest' : List Symbol} {name : String}
      {arguments : List Expression} {e : Expression}
      (listed : ReadsArguments symbols arguments rest)
      (suffixes : ReadsSuffixes (.call none name arguments) rest e rest') :
      ReadsOperand front (.name name :: .openingArguments :: symbols) e rest'
  | typeReference {front : Bool} {symbols rest rest' : List Symbol} {base type : JavaType}
      {e : Expression}
      (read : readType (.typeName base :: symbols) = some (type, rest))
      (suffixes : ReadsSuffixes (.typeReference type) rest e rest') :
      ReadsOperand front (.typeName base :: symbols) e rest'
  | new {front : Bool} {symbols rest rest' rest'' : List Symbol} {type : ClassType}
      {arguments : List Expression} {e : Expression}
      (read : readType symbols = some (.classType type, .openingArguments :: rest))
      (listed : ReadsArguments rest arguments rest')
      (suffixes : ReadsSuffixes (.new type arguments) rest' e rest'') :
      ReadsOperand front (.new :: .space :: symbols) e rest''
  | operatorInFront {front : Bool} {symbols rest : List Symbol} {text : String}
      {operator : UnaryOperator} {operand : Expression}
      (found : prefixOperator? text = some operator)
      (behind : ReadsOperand false symbols operand rest) :
      ReadsOperand front (.operator text :: symbols) (.unary operator operand) rest
  | lambda {front : Bool} {symbols rest : List Symbol} {names : List String} {body : Expression}
      (read : ReadsExpression symbols body rest) :
      ReadsOperand front (.opening :: .parameters names :: .closing :: .arrow :: symbols)
        (.lambda names body) rest
  | cast {symbols rest rest' : List Symbol} {type : JavaType} {operand : Expression}
      (inside : ReadsExpression symbols (.typeReference type) (.closing :: rest))
      (behind : ReadsOperand false rest operand rest') :
      ReadsOperand true (.opening :: symbols) (.typeCast type operand) rest'
  | bracketed {front : Bool} {symbols rest rest' : List Symbol} {operand e : Expression}
      (inside : ReadsExpression symbols operand (.closing :: rest))
      (noCast : front = true → ∀ type, operand ≠ .typeReference type)
      (suffixes : ReadsSuffixes operand rest e rest') :
      ReadsOperand front (.opening :: symbols) e rest'

/-- The members, indices and increments behind an operand. -/
inductive ReadsSuffixes : Expression → List Symbol → Expression → List Symbol → Prop
  | done {operand : Expression} {rest : List Symbol} (ends : EndsOperand rest) :
      ReadsSuffixes operand rest operand rest
  | field {operand e : Expression} {symbols rest : List Symbol} {name : String}
      (ends : EndsWord symbols)
      (suffixes : ReadsSuffixes (.field (some operand) name) symbols e rest) :
      ReadsSuffixes operand (.dot :: .name name :: symbols) e rest
  | call {operand e : Expression} {symbols rest rest' : List Symbol} {name : String}
      {arguments : List Expression}
      (listed : ReadsArguments symbols arguments rest)
      (suffixes : ReadsSuffixes (.call (some operand) name arguments) rest e rest') :
      ReadsSuffixes operand (.dot :: .name name :: .openingArguments :: symbols) e rest'
  | index {operand index e : Expression} {symbols rest rest' : List Symbol}
      (inside : ReadsExpression symbols index (.closingSquare :: rest))
      (suffixes : ReadsSuffixes (.arrayAccess operand index) rest e rest') :
      ReadsSuffixes operand (.openingSquare :: symbols) e rest'
  | operatorBehind {operand : Expression} {rest : List Symbol} {text : String}
      {operator : UnaryOperator} (found : postfixOperator? text = some operator) :
      ReadsSuffixes operand (.operator text :: rest) (.unary operator operand) rest

/-- The operator behind the first operand of an expression, with its other operands. -/
inductive ReadsBehind : Expression → List Symbol → Expression → List Symbol → Prop
  | done {operand : Expression} {rest : List Symbol} (ends : EndsExpression rest) :
      ReadsBehind operand rest operand rest
  | binary {operand right : Expression} {symbols rest : List Symbol} {text : String}
      {operator : BinaryOperator}
      (found : binaryOperator? text = some operator)
      (second : ReadsOperand false symbols right rest) :
      ReadsBehind operand (.space :: .operator text :: .space :: symbols)
        (.binary operator operand right) rest
  | instanceOf {operand : Expression} {symbols rest : List Symbol} {type : JavaType}
      (read : readType symbols = some (type, rest)) :
      ReadsBehind operand (.space :: .instanceOf :: .space :: symbols)
        (.instanceOf operand type) rest
  | conditional {operand whenTrue whenFalse : Expression} {symbols rest rest' : List Symbol}
      (second : ReadsOperand false symbols whenTrue (.colon :: rest))
      (third : ReadsOperand false rest whenFalse rest') :
      ReadsBehind operand (.question :: symbols) (.conditional operand whenTrue whenFalse) rest'
  | assignment {operand value : Expression} {symbols rest : List Symbol}
      {operator : Option BinaryOperator} (read : ReadsExpression symbols value rest) :
      ReadsBehind operand (.assignment operator :: symbols)
        (.assignment operator operand value) rest
  | lambda {name : String} {body : Expression} {symbols rest : List Symbol}
      (read : ReadsExpression symbols body rest) :
      ReadsBehind (.named name) (.arrow :: symbols) (.lambda [name] body) rest

/-- Arguments up to the end of their block. -/
inductive ReadsArguments : List Symbol → List Expression → List Symbol → Prop
  | empty {rest : List Symbol} : ReadsArguments (.closingArguments :: rest) [] rest
  | nonempty {symbols rest : List Symbol} {arguments : List Expression}
      (listed : ReadsListed symbols arguments rest) : ReadsArguments symbols arguments rest

/-- One argument at least. -/
inductive ReadsListed : List Symbol → List Expression → List Symbol → Prop
  | last {symbols rest : List Symbol} {e : Expression}
      (argument : ReadsExpression symbols e (.closingArguments :: rest)) :
      ReadsListed symbols [e] rest
  | comma {symbols rest rest' : List Symbol} {e : Expression} {others : List Expression}
      (argument : ReadsExpression symbols e (.comma :: rest))
      (behind : ReadsListed rest others rest') : ReadsListed symbols (e :: others) rest'

end

/-! ## Nothing is read in two ways -/

/-- So the brackets around the parameters of a lambda are not those of an operand. -/
theorem not_readsExpression_parameters {names : List String} {rest rest' : List Symbol}
    {e : Expression} : ¬ ReadsExpression (.parameters names :: rest) e rest' := by
  rintro ⟨first, -⟩
  cases first

theorem not_readsListed_closingArguments {rest rest' : List Symbol}
    {arguments : List Expression} : ¬ ReadsListed (.closingArguments :: rest) arguments rest' := by
  intro h
  cases h with
  | last argument => obtain ⟨first, -⟩ := argument; cases first
  | comma argument => obtain ⟨first, -⟩ := argument; cases first

/-! By induction on the first reading. The first symbols leave few rules for the second, and the
parts of both readings agree from the left, since a part decides where the next one begins. -/

mutual

theorem ReadsExpression.unique {symbols : List Symbol} {e e' : Expression}
    {rest rest' : List Symbol} :
    ReadsExpression symbols e rest → ReadsExpression symbols e' rest' → e = e' ∧ rest = rest'
  | .intro first behind, h => by
      obtain ⟨first', behind'⟩ := h
      obtain ⟨rfl, rfl⟩ := first.unique first'
      exact behind.unique behind'
termination_by structural h => h

theorem ReadsOperand.unique {front : Bool} {symbols : List Symbol} {e e' : Expression}
    {rest rest' : List Symbol} :
    ReadsOperand front symbols e rest → ReadsOperand front symbols e' rest' →
      e = e' ∧ rest = rest'
  | .atom suffixes, h => by
      cases h with
      | atom suffixes' => exact suffixes.unique suffixes'
  | .name ends suffixes, h => by
      cases h with
      | name _ suffixes' => exact suffixes.unique suffixes'
      | call => cases ends
  | .call listed suffixes, h => by
      cases h with
      | name ends _ => cases ends
      | call listed' suffixes' =>
          obtain ⟨rfl, rfl⟩ := listed.unique listed'
          exact suffixes.unique suffixes'
  | .typeReference read suffixes, h => by
      cases h with
      | typeReference read' suffixes' =>
          cases read.symm.trans read'
          exact suffixes.unique suffixes'
  | .new read listed suffixes, h => by
      cases h with
      | new read' listed' suffixes' =>
          cases read.symm.trans read'
          obtain ⟨rfl, rfl⟩ := listed.unique listed'
          exact suffixes.unique suffixes'
  | .operatorInFront found behind, h => by
      cases h with
      | operatorInFront found' behind' =>
          cases found.symm.trans found'
          obtain ⟨rfl, rfl⟩ := behind.unique behind'
          exact ⟨rfl, rfl⟩
  | .lambda read, h => by
      cases h with
      | lambda read' =>
          obtain ⟨rfl, rfl⟩ := read.unique read'
          exact ⟨rfl, rfl⟩
      | cast inside => exact absurd inside not_readsExpression_parameters
      | bracketed inside => exact absurd inside not_readsExpression_parameters
  | .cast inside behind, h => by
      cases h with
      | lambda => exact absurd inside not_readsExpression_parameters
      | cast inside' behind' =>
          obtain ⟨htype, hrest⟩ := inside.unique inside'
          cases htype
          cases hrest
          obtain ⟨rfl, rfl⟩ := behind.unique behind'
          exact ⟨rfl, rfl⟩
      | bracketed inside' noCast => exact absurd (inside.unique inside').1.symm (noCast rfl _)
  | .bracketed inside noCast suffixes, h => by
      cases h with
      | lambda => exact absurd inside not_readsExpression_parameters
      | cast inside' => exact absurd (inside.unique inside').1 (noCast rfl _)
      | bracketed inside' _ suffixes' =>
          obtain ⟨rfl, hrest⟩ := inside.unique inside'
          cases hrest
          exact suffixes.unique suffixes'
termination_by structural h => h

theorem ReadsSuffixes.unique {operand : Expression} {symbols : List Symbol} {e e' : Expression}
    {rest rest' : List Symbol} :
    ReadsSuffixes operand symbols e rest → ReadsSuffixes operand symbols e' rest' →
      e = e' ∧ rest = rest'
  | .done ends, h => by
      cases h with
      | done => exact ⟨rfl, rfl⟩
      | field | call | index | operatorBehind => cases ends
  | .field ends suffixes, h => by
      cases h with
      | done ends' => cases ends'
      | field _ suffixes' => exact suffixes.unique suffixes'
      | call => cases ends
  | .call listed suffixes, h => by
      cases h with
      | done ends | field ends => cases ends
      | call listed' suffixes' =>
          obtain ⟨rfl, rfl⟩ := listed.unique listed'
          exact suffixes.unique suffixes'
  | .index inside suffixes, h => by
      cases h with
      | done ends => cases ends
      | index inside' suffixes' =>
          obtain ⟨rfl, hrest⟩ := inside.unique inside'
          cases hrest
          exact suffixes.unique suffixes'
  | .operatorBehind found, h => by
      cases h with
      | done ends => cases ends
      | operatorBehind found' =>
          cases found.symm.trans found'
          exact ⟨rfl, rfl⟩
termination_by structural h => h

theorem ReadsBehind.unique {operand : Expression} {symbols : List Symbol} {e e' : Expression}
    {rest rest' : List Symbol} :
    ReadsBehind operand symbols e rest → ReadsBehind operand symbols e' rest' →
      e = e' ∧ rest = rest'
  | .done ends, h => by
      cases h with
      | done => exact ⟨rfl, rfl⟩
      | binary | instanceOf | conditional | assignment | lambda => cases ends
  | .binary found second, h => by
      cases h with
      | done ends => cases ends
      | binary found' second' =>
          cases found.symm.trans found'
          obtain ⟨rfl, rfl⟩ := second.unique second'
          exact ⟨rfl, rfl⟩
  | .instanceOf read, h => by
      cases h with
      | done ends => cases ends
      | instanceOf read' =>
          cases read.symm.trans read'
          exact ⟨rfl, rfl⟩
  | .conditional second third, h => by
      cases h with
      | done ends => cases ends
      | conditional second' third' =>
          obtain ⟨rfl, hrest⟩ := second.unique second'
          cases hrest
          obtain ⟨rfl, rfl⟩ := third.unique third'
          exact ⟨rfl, rfl⟩
  | .assignment read, h => by
      cases h with
      | done ends => cases ends
      | assignment read' =>
          obtain ⟨rfl, rfl⟩ := read.unique read'
          exact ⟨rfl, rfl⟩
  | .lambda read, h => by
      cases h with
      | done ends => cases ends
      | lambda read' =>
          obtain ⟨rfl, rfl⟩ := read.unique read'
          exact ⟨rfl, rfl⟩
termination_by structural h => h

theorem ReadsArguments.unique {symbols : List Symbol} {arguments arguments' : List Expression}
    {rest rest' : List Symbol} :
    ReadsArguments symbols arguments rest → ReadsArguments symbols arguments' rest' →
      arguments = arguments' ∧ rest = rest'
  | .empty, h => by
      cases h with
      | empty => exact ⟨rfl, rfl⟩
      | nonempty listed => exact absurd listed not_readsListed_closingArguments
  | .nonempty listed, h => by
      cases h with
      | empty => exact absurd listed not_readsListed_closingArguments
      | nonempty listed' => exact listed.unique listed'
termination_by structural h => h

theorem ReadsListed.unique {symbols : List Symbol} {arguments arguments' : List Expression}
    {rest rest' : List Symbol} :
    ReadsListed symbols arguments rest → ReadsListed symbols arguments' rest' →
      arguments = arguments' ∧ rest = rest'
  | .last argument, h => by
      cases h with
      | last argument' =>
          obtain ⟨rfl, hrest⟩ := argument.unique argument'
          cases hrest
          exact ⟨rfl, rfl⟩
      | comma argument' => cases (argument.unique argument').2
  | .comma argument behind, h => by
      cases h with
      | last argument' => cases (argument.unique argument').2
      | comma argument' behind' =>
          obtain ⟨rfl, hrest⟩ := argument.unique argument'
          cases hrest
          obtain ⟨rfl, rfl⟩ := behind.unique behind'
          exact ⟨rfl, rfl⟩
termination_by structural h => h

end

end JavaFragments
