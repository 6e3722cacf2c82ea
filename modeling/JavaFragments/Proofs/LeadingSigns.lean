import JavaFragments.Proofs.LeafTokens

/-! # Signs in front of operands

What an operand begins with is found on its left spine, which goes down through receivers, arrays
and the operands of operators that stand behind, as far as no bracket is set. `leadingSign?` is the
sign that stands at its end. A sign operator puts an operand that begins with its last character
into brackets, so signs never run together. A cast sets no such brackets, and a sign behind a class
type in brackets is read as an operator between two operands. -/
set_option autoImplicit false

namespace JavaFragments

/-- No name in the leaf is empty. The parameters of a lambda are never the first of an operand. -/
def Leaf.IsNamed : Leaf → Prop
  | .name n => n ≠ ""
  | .reference _ printed => printed ≠ ""
  | _ => True

instance : DecidablePred Leaf.IsNamed
  | .name n => inferInstanceAs (Decidable (n ≠ ""))
  | .reference _ printed => inferInstanceAs (Decidable (printed ≠ ""))
  | .literal _ => inferInstanceAs (Decidable True)
  | .parameters _ => inferInstanceAs (Decidable True)
  | .commentLine _ => inferInstanceAs (Decidable True)
  | .line _ => inferInstanceAs (Decidable True)

/-- All names that are printed for the expression are non-empty, those of types included. -/
def Expression.IsNamed (e : Expression) : Prop :=
  ∀ leaf ∈ e.leaves, leaf.IsNamed

instance : DecidablePred Expression.IsNamed :=
  fun e => inferInstanceAs (Decidable (∀ leaf ∈ e.leaves, leaf.IsNamed))

def isSign (c : Char) : Bool :=
  c = '+' || c = '-'

/-- The sign that a text begins with. -/
def signOf (text : String) : Option Char :=
  text.toList.head?.filter isSign

/-- The text of the first token of a type. -/
def JavaType.firstText : JavaType → String
  | .primitive t => t.kind.keyword
  | .classType t => t.name
  | .memberType _ outer => outer.firstText
  | .typeVariable t => t.name

/-- The sign that the expression begins with where it stands as an operand. -/
def Expression.leadingSign? : Expression → Option Char
  | .integer value => if value.toInt < 0 then some '-' else none
  | .long value => if value.toInt < 0 then some '-' else none
  | .double value =>
      if value.isNegative && !value.isNaN && !value.isInfinite then some '-' else none
  | .named name => signOf name
  | .field none name => signOf name
  | .field (some object) _ => if object.isUnary then none else object.leadingSign?
  | .call none name _ => signOf name
  | .call (some object) _ _ => if object.isUnary then none else object.leadingSign?
  | .unary operator operand =>
      if operator.standsBehind then operand.leadingSign? else signOf operator.symbol
  | .arrayAccess array _ => if array.isUnary then none else array.leadingSign?
  | .typeReference type => signOf type.firstText
  | _ => none

/-! ## The first character of a phrase -/

/-- The printed text. -/
def Phrase.characters (phrase : Phrase) : List Char :=
  (printTokens phrase.tokens).toList

@[simp] theorem Phrase.characters_append (front back : Phrase) :
    (front ++ back).characters = front.characters ++ back.characters := by
  rw [characters, Phrase.tokens_append, printTokens, List.map_append, String.join_append,
    String.toList_append]
  rfl

@[simp] theorem Phrase.characters_ofToken (token : Token) :
    (ofToken token).characters = token.print.toList := by
  simp [characters, printTokens, ofToken]

@[simp] theorem Phrase.characters_bracketed (phrase : Phrase) :
    (bracketed phrase).characters = '(' :: (phrase.characters ++ [')']) := by
  rw [bracketed, enclosed, characters_append, characters_append, characters_ofToken,
    characters_ofToken]
  rfl

/-- The first token prints something, and `sign?` is what it begins with if that is a sign. -/
def LeadsWith (phrase : Phrase) (sign? : Option Char) : Prop :=
  ∃ c, firstPrinted? phrase.tokens = some c ∧ (some c).filter isSign = sign?

section Phrases
variable {front phrase : Phrase} {sign? : Option Char}

theorem leadsWith_of_front {token : Token} {c : Char} {rest : List Char}
    (h : token.print.toList = c :: rest) : LeadsWith (.ofToken token) ((some c).filter isSign) := by
  refine ⟨c, ?_, rfl⟩
  show token.print.toList.head? = some c
  rw [h, List.head?_cons]

theorem leadsWith_token (token : Token) (h : token.print ≠ "") :
    LeadsWith (.ofToken token) (signOf token.print) := by
  cases htext : token.print.toList with
  | nil => exact absurd (String.toList_eq_nil_iff.1 htext) h
  | cons c rest =>
      rw [signOf, htext, List.head?_cons]
      exact leadsWith_of_front htext

theorem filter_isSign_of_not {c : Char} (h : isSign c = false) : (some c).filter isSign = none := by
  rw [Option.filter_some, h]
  rfl

theorem LeadsWith.append (h : LeadsWith front sign?) (back : Phrase) :
    LeadsWith (front ++ back) sign? := by
  obtain ⟨c, hfirst, hsign⟩ := h
  refine ⟨c, ?_, hsign⟩
  cases htokens : front.tokens with
  | nil =>
      rw [htokens] at hfirst
      cases hfirst
  | cons token rest =>
      rw [htokens] at hfirst
      rw [Phrase.tokens_append, htokens]
      exact hfirst

theorem leadsWith_bracketed (phrase : Phrase) : LeadsWith (.bracketed phrase) none :=
  ⟨'(', rfl, rfl⟩

/-- The printed text begins with the first character of the first token. -/
theorem LeadsWith.characters (h : LeadsWith phrase sign?) :
    ∃ c rest, phrase.characters = c :: rest ∧ (some c).filter isSign = sign? := by
  obtain ⟨c, hfirst, hsign⟩ := h
  cases htokens : phrase.tokens with
  | nil =>
      rw [htokens] at hfirst
      cases hfirst
  | cons token others =>
      rw [htokens] at hfirst
      obtain ⟨rest, hrest⟩ := List.head?_eq_some_iff.1 hfirst
      refine ⟨c, rest ++ (printTokens others).toList, ?_, hsign⟩
      rw [Phrase.characters, htokens, printTokens, List.map_cons, String.join_cons,
        String.toList_append, hrest]
      rfl

end Phrases

/-! ## Numbers -/

theorem not_isSign_of_isDigit {c : Char} (h : c.isDigit = true) : isSign c = false := by
  by_contra hsign
  rw [Bool.not_eq_false, isSign, Bool.or_eq_true, decide_eq_true_eq, decide_eq_true_eq] at hsign
  rcases hsign with rfl | rfl
  · exact absurd h (by decide)
  · exact absurd h (by decide)

/-- The digits of a natural number begin with a digit. -/
theorem exists_digit_front (n : Nat) :
    ∃ c rest, n.repr.toList = c :: rest ∧ c.isDigit = true := by
  rw [Nat.toList_repr]
  cases hdigits : Nat.toDigits 10 n with
  | nil => exact absurd hdigits Nat.toDigits_ne_nil
  | cons c rest =>
      refine ⟨c, rest, rfl, ?_⟩
      apply Nat.isDigit_of_mem_toDigits (b := 10) (n := n) (by decide) (by decide)
      rw [hdigits]
      exact List.mem_cons_self

theorem exists_front_repr (value : Int) :
    ∃ c rest, value.repr.toList = c :: rest ∧
      (some c).filter isSign = if value < 0 then some '-' else none := by
  rw [Int.repr_eq_if]
  by_cases h : 0 ≤ value
  · obtain ⟨c, rest, htext, hdigit⟩ := exists_digit_front value.toNat
    refine ⟨c, rest, by rw [if_pos h, htext], ?_⟩
    rw [if_neg (by omega), filter_isSign_of_not (not_isSign_of_isDigit hdigit)]
  · refine ⟨'-', (-value).toNat.repr.toList, ?_, ?_⟩
    · rw [if_neg h, String.toList_append]
      rfl
    · rw [if_pos (by omega)]
      rfl

/-- A number, whatever stands behind its digits. -/
theorem leadsWith_number (value : Int) (behind : String) :
    LeadsWith (.ofToken (.text (value.repr ++ behind)))
      (if value < 0 then some '-' else none) := by
  obtain ⟨c, rest, htext, hsign⟩ := exists_front_repr value
  have hfront : (value.repr ++ behind).toList = c :: (rest ++ behind.toList) := by
    rw [String.toList_append, htext, List.cons_append]
  rw [← hsign]
  exact leadsWith_of_front hfront

theorem not_isSign_positional {digits : List Char} (hdigits : ∀ c ∈ digits, c.isDigit = true)
    (point : Int) {c : Char} (h : c ∈ Decimal.positional digits point) : isSign c = false := by
  have hzeros : ∀ n : Int, c ∈ List.replicate n.toNat '0' → isSign c = false := by
    intro n hc
    rw [List.eq_of_mem_replicate hc]
    rfl
  unfold Decimal.positional at h
  split at h
  · simp only [List.cons_append, List.mem_cons, List.mem_append] at h
    rcases h with rfl | rfl | h | h
    · rfl
    · rfl
    · exact hzeros _ h
    · exact not_isSign_of_isDigit (hdigits c h)
  · simp only [List.mem_append, List.mem_cons] at h
    rcases h with (h | h) | rfl | h
    · exact not_isSign_of_isDigit (hdigits c (List.mem_of_mem_take h))
    · exact hzeros _ h
    · rfl
    · split at h
      · rw [List.mem_singleton.1 h]
        rfl
      · exact not_isSign_of_isDigit (hdigits c (List.mem_of_mem_drop h))

theorem exists_front_positional {digits : List Char} (hdigits : ∀ c ∈ digits, c.isDigit = true)
    (point : Int) :
    ∃ c rest, Decimal.positional digits point = c :: rest ∧ isSign c = false := by
  cases htext : Decimal.positional digits point with
  | nil =>
      obtain ⟨c, hc, -⟩ := exists_digit_positional hdigits point
      rw [htext] at hc
      cases hc
  | cons c rest =>
      refine ⟨c, rest, rfl, not_isSign_positional hdigits point ?_⟩
      rw [htext]
      exact List.mem_cons_self

theorem exists_front_scientific {digits : List Char} (hdigits : ∀ c ∈ digits, c.isDigit = true)
    (exponent : Int) :
    ∃ c rest, Decimal.scientific digits exponent = c :: rest ∧ isSign c = false := by
  rcases digits with _ | ⟨c, _ | ⟨d, rest⟩⟩
  · exact ⟨'e', exponent.repr.toList, rfl, rfl⟩
  · exact ⟨c, _, rfl, not_isSign_of_isDigit (hdigits c List.mem_cons_self)⟩
  · exact ⟨c, _, rfl, not_isSign_of_isDigit (hdigits c List.mem_cons_self)⟩

/-- The sign of a double stands in front of its magnitude and is no part of it. -/
theorem exists_front_magnitude (value : Double) :
    ∃ c rest, Literal.magnitude value = c :: rest ∧ isSign c = false := by
  unfold Literal.magnitude
  split
  · exact ⟨'0', ['.', '0'], rfl, rfl⟩
  · rw [Decimal.write]
    split
    · exact exists_front_positional (fun c hc => isDigit_of_mem_leading hc) _
    · exact exists_front_scientific (fun c hc => isDigit_of_mem_leading hc) _

theorem leadsWith_finite (value : Double) :
    LeadsWith (.ofToken (.text (String.ofList
        (if value.isNegative then '-' :: Literal.magnitude value else Literal.magnitude value))))
      (if value.isNegative then some '-' else none) := by
  by_cases hnegative : value.isNegative = true
  · rw [if_pos hnegative, if_pos hnegative]
    have hfront : (String.ofList ('-' :: Literal.magnitude value)).toList =
        '-' :: Literal.magnitude value := String.toList_ofList
    show LeadsWith _ ((some '-').filter isSign)
    exact leadsWith_of_front hfront
  · rw [if_neg hnegative, if_neg hnegative]
    obtain ⟨c, rest, htext, hc⟩ := exists_front_magnitude value
    rw [← filter_isSign_of_not hc]
    have hfront : (String.ofList (Literal.magnitude value)).toList = c :: rest := by
      rw [String.toList_ofList, htext]
    exact leadsWith_of_front hfront

theorem leadsWith_double (value : Double) :
    LeadsWith (.ofToken (.text (Literal.double value)))
      (if value.isNegative && !value.isNaN && !value.isInfinite then some '-' else none) := by
  unfold Literal.double
  by_cases hnan : value.isNaN = true
  · rw [if_pos hnan, hnan, Bool.not_true, Bool.and_false, Bool.false_and]
    exact ⟨'D', rfl, rfl⟩
  · rw [if_neg hnan]
    rw [Bool.not_eq_true] at hnan
    by_cases hinfinite : value.isInfinite = true
    · rw [if_pos hinfinite, hinfinite, Bool.not_true, Bool.and_false]
      split
      · exact ⟨'D', rfl, rfl⟩
      · exact ⟨'D', rfl, rfl⟩
    · rw [if_neg hinfinite]
      rw [Bool.not_eq_true] at hinfinite
      rw [hnan, hinfinite, Bool.not_false, Bool.and_true, Bool.and_true]
      exact leadsWith_finite value

theorem leadsWith_quoted {quote : Char} (h : isSign quote = false) (text : String) :
    LeadsWith (.ofToken (.text (Text.quoted quote text))) none := by
  rw [← filter_isSign_of_not h]
  have hfront : (Text.quoted quote text).toList =
      quote :: (Text.escape quote text.toList ++ [quote]) := by
    rw [Text.quoted, String.toList_ofList]
    rfl
  exact leadsWith_of_front hfront

/-! ## Types -/

theorem leadsWith_unmentioned (env : Environment) {type : ClassType} (h : type.name ≠ "") :
    LeadsWith (type.unmentionedPhrase env) (signOf type.name) := by
  obtain ⟨internalName, _, name, arguments, dimension⟩ := type
  have hname : LeadsWith (referencePhrase env internalName name) (signOf name) :=
    leadsWith_token (.reference internalName name (some env.currentType)) h
  cases arguments with
  | none => exact (hname.append _).append _
  | some arguments => exact (hname.append _).append _

theorem ClassType.name_ne_empty {type : ClassType} (h : ∀ leaf ∈ type.leaves, leaf.IsNamed) :
    type.name ≠ "" := by
  obtain ⟨internalName, _, name, arguments, _⟩ := type
  cases arguments with
  | none => exact h (.reference internalName name) List.mem_cons_self
  | some arguments => exact h (.reference internalName name) List.mem_cons_self

theorem JavaType.leadsWith (env : Environment) : (type : JavaType) →
    (∀ leaf ∈ type.leaves, leaf.IsNamed) → LeadsWith (type.phrase env) (signOf type.firstText)
  | .primitive t, _ => by
      have hkeyword : t.kind.keyword ≠ "" := by cases t.kind <;> decide
      rw [JavaType.phrase]
      exact (leadsWith_token (.keyword t.kind.keyword) hkeyword).append _
  | .classType t, h => by
      rw [JavaType.phrase]
      exact leadsWith_unmentioned env (ClassType.name_ne_empty h)
  | .memberType member outer, h => by
      rw [JavaType.leaves, List.forall_mem_append] at h
      rw [JavaType.phrase]
      exact ((outer.leadsWith env h.1).append _).append _
  | .typeVariable t, h => by
      rw [JavaType.phrase]
      exact (leadsWith_token (.text t.name) (h (.name t.name) List.mem_cons_self)).append _

/-! ## Expressions -/

section Expressions
variable {env : Environment}

/-- As an operand the expression begins with its leading sign, or with no sign. -/
def Expression.ShowsSign (env : Environment) (e : Expression) : Prop :=
  LeadsWith (e.asOperand (e.phrase env)) e.leadingSign?

theorem leadingSign?_of_isCompound {e : Expression} (h : e.isCompound = true) :
    e.leadingSign? = none := by
  cases e <;> first | rfl | cases h

theorem leadingSign?_of_isNew {e : Expression} (h : e.isNew = true) : e.leadingSign? = none := by
  cases e <;> first | rfl | cases h

theorem showsSign_of_phrase {e : Expression} (hcompound : e.isCompound = false)
    (h : LeadsWith (e.phrase env) e.leadingSign?) : e.ShowsSign env := by
  rw [Expression.ShowsSign, Expression.asOperand, hcompound]
  exact h

theorem showsSign_of_isCompound {e : Expression} (h : e.isCompound = true) :
    e.ShowsSign env := by
  rw [Expression.ShowsSign, Expression.asOperand, h, leadingSign?_of_isCompound h]
  exact leadsWith_bracketed (e.phrase env)

/-- In front of a member or an index, with brackets around a unary expression at least. -/
theorem Expression.ShowsSign.inFront {e : Expression} (h : e.ShowsSign env) {brackets : Bool}
    (hplain : brackets = false → e.isCompound = false ∧ e.isUnary = false)
    (hsign : brackets = true → e.isUnary = true ∨ e.leadingSign? = none) :
    LeadsWith (.bracketedIf brackets (e.phrase env))
      (if e.isUnary then none else e.leadingSign?) := by
  cases brackets with
  | true =>
      have hnone : (if e.isUnary then none else e.leadingSign?) = none := by
        rcases hsign rfl with hunary | hnone
        · rw [if_pos hunary]
        · rw [hnone, ite_self]
      rw [hnone]
      exact leadsWith_bracketed (e.phrase env)
  | false =>
      obtain ⟨hcompound, hunary⟩ := hplain rfl
      rw [Expression.ShowsSign, Expression.asOperand, hcompound] at h
      rw [hunary]
      exact h

theorem Expression.ShowsSign.receiver {object : Expression} (h : object.ShowsSign env) :
    LeadsWith (receiverPhrase env (some object))
      (if object.isUnary then none else object.leadingSign?) := by
  rw [receiverPhrase, Expression.asReceiver]
  apply LeadsWith.append
  apply h.inFront Bool.or_eq_false_iff.1
  intro hbrackets
  rcases Bool.or_eq_true_iff.1 hbrackets with hcompound | hunary
  · exact .inr (leadingSign?_of_isCompound hcompound)
  · exact .inl hunary

theorem Expression.ShowsSign.array {array : Expression} (h : array.ShowsSign env) :
    LeadsWith (array.asArray (array.phrase env))
      (if array.isUnary then none else array.leadingSign?) := by
  apply h.inFront
  · intro hbrackets
    exact Bool.or_eq_false_iff.1 (Bool.or_eq_false_iff.1 hbrackets).1
  · intro hbrackets
    rcases Bool.or_eq_true_iff.1 hbrackets with hbrackets | hnew
    · rcases Bool.or_eq_true_iff.1 hbrackets with hcompound | hunary
      · exact .inr (leadingSign?_of_isCompound hcompound)
      · exact .inl hunary
    · exact .inr (leadingSign?_of_isNew hnew)

end Expressions

/-- By induction down the left spine. Only the first part of an expression matters. -/
theorem Expression.showsSign (env : Environment) (e : Expression) :
    e.IsNamed → e.ShowsSign env := by
  induction e using Expression.induction_on_parts with
  | step e h =>
  intro hnamed
  cases e with
  | binary | assignment | typeCast | instanceOf | conditional | lambda =>
      exact showsSign_of_isCompound rfl
  | boolean value =>
      cases value with
      | true => exact showsSign_of_phrase rfl ⟨'t', rfl, rfl⟩
      | false => exact showsSign_of_phrase rfl ⟨'f', rfl, rfl⟩
  | nullLiteral => exact showsSign_of_phrase rfl ⟨'n', rfl, rfl⟩
  | thisReference => exact showsSign_of_phrase rfl ⟨'t', rfl, rfl⟩
  | integer value =>
      have hnumber := leadsWith_number value.toInt ""
      rw [String.append_empty] at hnumber
      exact showsSign_of_phrase rfl hnumber
  | long value => exact showsSign_of_phrase rfl (leadsWith_number value.toInt "L")
  | double value => exact showsSign_of_phrase rfl (leadsWith_double value)
  | character value => exact showsSign_of_phrase rfl (leadsWith_quoted (by decide) _)
  | text value => exact showsSign_of_phrase rfl (leadsWith_quoted (by decide) value)
  | named name =>
      have hname : name ≠ "" := hnamed (.name name) List.mem_cons_self
      exact showsSign_of_phrase rfl (leadsWith_token (.text name) hname)
  | field object name =>
      rw [Expression.IsNamed, Expression.leaves, List.forall_mem_append] at hnamed
      cases object with
      | none =>
          have hname : name ≠ "" := hnamed.2 (.name name) List.mem_cons_self
          exact showsSign_of_phrase rfl (leadsWith_token (.text name) hname)
      | some object =>
          have hobject : object.ShowsSign env := h object (by simp [Expression.parts]) hnamed.1
          exact showsSign_of_phrase rfl (hobject.receiver.append _)
  | call object name arguments =>
      rw [Expression.IsNamed, Expression.leaves, List.forall_mem_append] at hnamed
      cases object with
      | none =>
          have hname : name ≠ "" := hnamed.2 (.name name) List.mem_cons_self
          exact showsSign_of_phrase rfl ((leadsWith_token (.text name) hname).append _)
      | some object =>
          have hobject : object.ShowsSign env := h object (by simp [Expression.parts]) hnamed.1
          exact showsSign_of_phrase rfl ((hobject.receiver.append _).append _)
  | new type arguments => exact showsSign_of_phrase rfl ⟨'n', rfl, rfl⟩
  | unary operator operand =>
      have hoperand : operand.ShowsSign env := h operand List.mem_cons_self hnamed
      apply showsSign_of_phrase rfl
      rw [Expression.phrase, unaryPhrase, Expression.leadingSign?]
      cases operator.standsBehind with
      | true => exact hoperand.append _
      | false =>
          have hsymbol : operator.symbol ≠ "" := by cases operator <;> decide
          exact (leadsWith_token (.text operator.symbol) hsymbol).append _
  | arrayAccess array index =>
      rw [Expression.IsNamed, Expression.leaves, List.forall_mem_append] at hnamed
      have harray : array.ShowsSign env := h array (by simp [Expression.parts]) hnamed.1
      exact showsSign_of_phrase rfl (harray.array.append _)
  | typeReference type => exact showsSign_of_phrase rfl (type.leadsWith env hnamed)

/-! ## Behind a sign and behind a cast -/

section Brackets
variable {phrase : Phrase} {sign? : Option Char}

theorem mergesWith_of_leadsWith (h : LeadsWith phrase sign?) {symbol : String} {last : Char}
    (hlast : symbol.toList.getLast? = some last) (hsign : isSign last = true) :
    mergesWith symbol phrase.tokens = decide (sign? = some last) := by
  obtain ⟨c, hfirst, rfl⟩ := h
  have hmark : (decide (last = '-') || decide (last = '+')) = true := by rwa [Bool.or_comm]
  rw [mergesWith, hlast, hfirst]
  show ((decide (last = '-') || decide (last = '+')) && (some c == some last)) = _
  rw [hmark, Bool.true_and, Option.filter_some]
  by_cases hc : c = last
  · rw [hc, if_pos hsign]
    simp
  · have hne : (if isSign c then some c else none) ≠ some last := by
      split
      · simpa using hc
      · exact Option.some_ne_none last |>.symm
    rw [decide_eq_false hne]
    simpa using hc

theorem exists_last_sign {operator : UnaryOperator}
    (hsign : operator = .neg ∨ operator = .preInc ∨ operator = .preDec) :
    ∃ last, operator.symbol.toList.getLast? = some last ∧ isSign last = true := by
  rcases hsign with rfl | rfl | rfl
  · exact ⟨'-', rfl, rfl⟩
  · exact ⟨'+', rfl, rfl⟩
  · exact ⟨'-', rfl, rfl⟩

/-- A sign puts an operand into brackets just if the operand begins with its last character. -/
theorem characters_sign (h : LeadsWith phrase sign?) {operator : UnaryOperator}
    (hsign : operator = .neg ∨ operator = .preInc ∨ operator = .preDec) :
    (unaryPhrase operator phrase).characters = operator.symbol.toList ++
      if sign? = operator.symbol.toList.getLast? then '(' :: (phrase.characters ++ [')'])
      else phrase.characters := by
  obtain ⟨last, hlast, hmark⟩ := exists_last_sign hsign
  have hfront : operator.standsBehind = false := by
    rcases hsign with rfl | rfl | rfl <;> rfl
  rw [unaryPhrase, hfront, mergesWith_of_leadsWith h hlast hmark, hlast]
  by_cases hsame : sign? = some last
  · simp [hsame, Phrase.bracketedIf, Token.print]
  · simp [hsame, Phrase.bracketedIf, Token.print]

end Brackets

/-- Behind a sign in front of an operand never stands the last character of the sign. Where the
operand begins with it, an opening bracket stands there. -/
theorem signs_stay_apart (env : Environment) {operator : UnaryOperator}
    (hsign : operator = .neg ∨ operator = .preInc ∨ operator = .preDec) {operand : Expression}
    (hnamed : operand.IsNamed) :
    ∃ next rest,
      ((Expression.unary operator operand).phrase env).characters =
          operator.symbol.toList ++ next :: rest ∧
        operator.symbol.toList.getLast? ≠ some next ∧
        (operand.leadingSign? = operator.symbol.toList.getLast? → next = '(') := by
  have hshows : operand.ShowsSign env := operand.showsSign env hnamed
  obtain ⟨c, rest, htext, hfirst⟩ := LeadsWith.characters hshows
  obtain ⟨last, hlast, hmark⟩ := exists_last_sign hsign
  rw [Expression.phrase, characters_sign hshows hsign, hlast]
  by_cases hsame : operand.leadingSign? = some last
  · refine ⟨'(', _, by rw [if_pos hsame], ?_, fun _ => rfl⟩
    intro hbracket
    rw [Option.some.inj hbracket] at hmark
    exact absurd hmark (by decide)
  · refine ⟨c, rest, by rw [if_neg hsame, htext], ?_, fun h => absurd h hsame⟩
    intro hnext
    apply hsame
    rw [← hfirst, ← hnext, Option.filter_some, if_pos hmark]

/-- It prints `-(-0.0.f[i].m().g--)`. -/
theorem signs_stay_apart_before_negative_zero :
    let zero := Expression.double ⟨0x8000000000000000⟩
    let access := Expression.arrayAccess (.field (some zero) "f") (.named "i")
    let operand := Expression.unary .postDec (.field (some (.call (some access) "m" [])) "g")
    operand.IsNamed ∧ operand.leadingSign? = some '-' ∧
      ∃ next rest, ((Expression.unary .neg operand).phrase ⟨"Main"⟩).characters =
        '-' :: next :: rest ∧ next = '(' := by
  intro zero access operand
  have hnamed : operand.IsNamed := by decide
  have hleading : operand.leadingSign? = some '-' := by decide
  obtain ⟨next, rest, htext, -, hbracket⟩ := signs_stay_apart ⟨"Main"⟩ (.inl rfl) hnamed
  exact ⟨hnamed, hleading, next, rest, htext, hbracket hleading⟩

/-- Behind the closing bracket of a cast stands the leading sign of its operand, if it has one, and
no sign otherwise. -/
theorem sign_behind_cast (env : Environment) (type : JavaType) {operand : Expression}
    (hnamed : operand.IsNamed) :
    ∃ next rest,
      ((Expression.typeCast type operand).phrase env).characters =
          '(' :: ((type.phrase env).characters ++ ')' :: next :: rest) ∧
        operand.leadingSign? = if isSign next then some next else none := by
  obtain ⟨c, rest, htext, hfirst⟩ := LeadsWith.characters (operand.showsSign env hnamed)
  refine ⟨c, rest, ?_, ?_⟩
  · rw [Expression.phrase, Phrase.characters_append, Phrase.characters_bracketed, htext]
    simp
  · rw [← hfirst, Option.filter_some]

/-- It prints `(List)--x[0].f`. -/
theorem sign_behind_cast_to_list :
    let operand := Expression.unary .preDec
      (.field (some (.arrayAccess (.named "x") (.integer 0))) "f")
    operand.IsNamed ∧ operand.leadingSign? = some '-' ∧
      ∃ next rest, ((Expression.typeCast (.ofInternalName "java/util/List") operand).phrase
          ⟨"Main"⟩).characters = '(' :: 'L' :: 'i' :: 's' :: 't' :: ')' :: next :: rest ∧
        isSign next = true := by
  intro operand
  have hnamed : operand.IsNamed := by decide
  have hleading : operand.leadingSign? = some '-' := by decide
  obtain ⟨next, rest, htext, hnext⟩ :=
    sign_behind_cast ⟨"Main"⟩ (.ofInternalName "java/util/List") hnamed
  refine ⟨hnamed, hleading, next, rest, htext, ?_⟩
  rw [hleading] at hnext
  by_contra hplain
  rw [if_neg hplain] at hnext
  cases hnext

/-- A cast of `-1` to `Integer` prints `(Integer)-1`. -/
theorem cast_printed_as_subtraction :
    ¬ ∀ env type operand, (∀ t, type ≠ .primitive t) → operand.IsNamed → ∀ next rest,
        ((Expression.typeCast type operand).phrase env).characters =
          '(' :: ((type.phrase env).characters ++ ')' :: next :: rest) →
        isSign next = false := by
  intro h
  have hsign : isSign '-' = false :=
    h ⟨"Main"⟩ (.ofInternalName "java/lang/Integer") (.integer (-1)) (fun t ht => nomatch ht)
      (by decide) '-' ['1'] (by decide)
  cases hsign

end JavaFragments
