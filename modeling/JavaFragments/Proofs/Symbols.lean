import JavaFragments.Proofs.LeafTokens
import JavaFragments.Proofs.LiteralReading

/-! # Symbols

A symbol is what a token means to a reader of expressions: punctuation by its role, and a word with
the name, the literal or the type that it stands for. -/
set_option autoImplicit false

namespace JavaFragments

inductive Symbol where
  /-- A literal, `this` or `null`. -/
  | atom (expression : Expression)
  | name (name : String)
  /-- No parameters of a lambda, or several. -/
  | parameters (names : List String)
  /-- A type without array brackets. -/
  | typeName (type : JavaType)
  | operator (text : String)
  | assignment (operator : Option BinaryOperator)
  | new | instanceOf
  | space | dot | comma | question | colon | arrow | dimension
  | opening | closing | openingSquare | closingSquare | openingArguments | closingArguments
  | other

def isNameStart (c : Char) : Bool :=
  c.isAlpha || c == '_' || c == '$'

def isNamePart (c : Char) : Bool :=
  c.isAlphanum || c == '_' || c == '$'

/-- An identifier of ASCII characters. -/
def isIdentifier (text : String) : Bool :=
  match text.toList with
  | [] => false
  | first :: rest => isNameStart first && rest.all isNamePart

namespace Symbol

def primitives : List (String × Symbol) :=
  Primitive.all.map fun kind => (kind.keyword, .typeName (.ofPrimitive kind))

/-- Keywords that an expression or a primitive type is written with. -/
def keywords : List (String × Symbol) :=
  ("true", .atom (.boolean true)) :: ("false", .atom (.boolean false)) ::
    ("null", .atom .nullLiteral) :: ("this", .atom .thisReference) :: ("new", .new) ::
    ("instanceof", .instanceOf) :: primitives

def marks : List (String × Symbol) :=
  commonMarks .space .dot .comma .dimension ++
    [(" ? ", .question), (" : ", .colon), (" -> ", .arrow), ("(", .opening), (")", .closing),
      ("[", .openingSquare), ("]", .closingSquare)]

def operators : List (String × Symbol) :=
  (BinaryOperator.all.map BinaryOperator.symbol ++ UnaryOperator.all.map UnaryOperator.symbol).map
    fun text => (text, .operator text)

def assignments : List (String × Symbol) :=
  (none :: BinaryOperator.all.map some).map fun operator =>
    ((assignmentToken operator).print, .assignment operator)

def fixed : List (String × Symbol) := marks ++ operators ++ assignments

/-- The names of a list with a comma and a space between each two. -/
def listedNames (text : List Char) : List String :=
  ((text.filter (· ≠ ' ')).splitOn ',').map String.ofList

/-- Decimal digits, perhaps with a sign in front. -/
def integer : List Char → Int
  | '-' :: digits => -(Nat.ofDigitChars 10 digits 0 : Nat)
  | digits => (Nat.ofDigitChars 10 digits 0 : Nat)

/-- A number with an `L` behind it is a long one. -/
def number (text : List Char) : Symbol :=
  if text.getLast? = some 'L' then .atom (.long (Int64.ofInt (integer text.dropLast)))
  else .atom (.integer (Int64.ofInt (integer text)))

/-- Any text that is not fixed. Its first character says what it is. -/
def word : List Char → Symbol
  | [] => .parameters []
  | first :: rest =>
      if isNameStart first then
        if ',' ∈ rest then .parameters (listedNames (first :: rest))
        else .name (String.ofList (first :: rest))
      else if first = Text.singleQuote then
        match Text.meant? rest.dropLast with
        | some [c] => .atom (.character c)
        | _ => .other
      else if first = Text.doubleQuote then
        match Text.meant? rest.dropLast with
        | some text => .atom (.text (String.ofList text))
        | none => .other
      else number (first :: rest)

end Symbol

def Token.symbol : Token → Symbol
  | .keyword w => (Symbol.keywords.lookup w).getD .other
  | .text t => (Symbol.fixed.lookup t).getD (Symbol.word t.toList)
  | .reference internalName _ _ => .typeName (.ofInternalName internalName)
  | .startBlock .parameters => .openingArguments
  | .endBlock .parameters => .closingArguments
  | _ => .other

section Words

@[simp] theorem symbol_space : Token.space.symbol = .space := rfl

@[simp] theorem symbol_dot : Token.dot.symbol = .dot := rfl

@[simp] theorem symbol_comma : Token.commaSpace.symbol = .comma := rfl

@[simp] theorem symbol_question : Token.spaceQuestionSpace.symbol = .question := rfl

@[simp] theorem symbol_colon : Token.spaceColonSpace.symbol = .colon := rfl

@[simp] theorem symbol_arrow : Token.spaceArrowSpace.symbol = .arrow := rfl

@[simp] theorem symbol_openBracket : Token.openBracket.symbol = .opening := rfl

@[simp] theorem symbol_closeBracket : Token.closeBracket.symbol = .closing := rfl

@[simp] theorem symbol_openSquare : Token.openSquare.symbol = .openingSquare := rfl

@[simp] theorem symbol_closeSquare : Token.closeSquare.symbol = .closingSquare := rfl

@[simp] theorem symbol_startParameters :
    (Token.startBlock .parameters).symbol = .openingArguments := rfl

@[simp] theorem symbol_endParameters :
    (Token.endBlock .parameters).symbol = .closingArguments := rfl

@[simp] theorem symbol_new : (Token.keyword "new").symbol = .new := rfl

@[simp] theorem symbol_instanceOf : (Token.keyword "instanceof").symbol = .instanceOf := rfl

theorem symbol_keyword (kind : Primitive) :
    (Token.keyword kind.keyword).symbol = .typeName (.ofPrimitive kind) := by
  cases kind <;> rfl

theorem symbol_binary (operator : BinaryOperator) :
    (Token.text operator.symbol).symbol = .operator operator.symbol := by
  cases operator <;> rfl

theorem symbol_unary (operator : UnaryOperator) :
    (Token.text operator.symbol).symbol = .operator operator.symbol := by
  cases operator <;> rfl

theorem symbol_assignment (operator : Option BinaryOperator) :
    (assignmentToken operator).symbol = .assignment operator := by
  cases operator with
  | none => rfl
  | some operator => cases operator <;> rfl

theorem symbol_word {t : String} (h : t ∉ fixedTexts) :
    (Token.text t).symbol = Symbol.word t.toList := by
  have hkeys : ∀ entry ∈ Symbol.fixed, entry.1 ∈ fixedTexts := by decide
  have hlookup : Symbol.fixed.lookup t = none := by
    rw [List.lookup_eq_none_iff]
    intro entry hentry
    rw [bne_iff_ne]
    rintro rfl
    exact h (hkeys entry hentry)
  rw [Token.symbol, hlookup, Option.getD_none]

theorem standsInWords_of_isNameStart {c : Char} (h : isNameStart c = true) :
    standsInWords c = true := by
  simp only [isNameStart, Bool.or_eq_true] at h
  rcases h with (h | h) | h <;> simp [standsInWords, Char.isAlphanum, h]

theorem exists_of_isIdentifier {n : String} (h : isIdentifier n = true) :
    ∃ first rest, n.toList = first :: rest ∧ isNameStart first = true ∧
      ∀ c ∈ rest, isNamePart c = true := by
  unfold isIdentifier at h
  split at h
  · cases h
  · rename_i first rest htext
    rw [Bool.and_eq_true, List.all_eq_true] at h
    exact ⟨first, rest, htext, h⟩

theorem isIdentifier_not_fixed {n : String} (h : isIdentifier n = true) : n ∉ fixedTexts := by
  obtain ⟨first, rest, htext, hfirst, -⟩ := exists_of_isIdentifier h
  exact not_mem_fixedTexts (by rw [htext]; exact List.mem_cons_self)
    (standsInWords_of_isNameStart hfirst)

theorem not_mem_of_isIdentifier {n : String} (h : isIdentifier n = true) {c : Char}
    (hstart : isNameStart c = false) (hpart : isNamePart c = false) : c ∉ n.toList := by
  obtain ⟨first, rest, htext, hfirst, hrest⟩ := exists_of_isIdentifier h
  rw [htext]
  intro hmem
  rcases List.mem_cons.1 hmem with rfl | hmem
  · rw [hfirst] at hstart
    cases hstart
  · rw [hrest c hmem] at hpart
    cases hpart

theorem symbol_name {n : String} (h : isIdentifier n = true) :
    (Token.text n).symbol = .name n := by
  have hcomma := not_mem_of_isIdentifier h (c := ',') (by decide) (by decide)
  rw [symbol_word (isIdentifier_not_fixed h)]
  obtain ⟨first, rest, htext, hfirst, -⟩ := exists_of_isIdentifier h
  rw [htext] at hcomma
  rw [htext, Symbol.word, if_pos hfirst, if_neg fun hmem => hcomma (List.mem_cons_of_mem _ hmem),
    ← htext, String.ofList_toList]

theorem isDigit_of_mem_repr {n : Nat} {c : Char} (h : c ∈ n.repr.toList) : c.isDigit = true := by
  rw [Nat.toList_repr] at h
  exact Nat.isDigit_of_mem_toDigits (by decide) (by decide) h

theorem mem_repr {value : Int} {c : Char} (h : c ∈ value.repr.toList) :
    c = '-' ∨ c.isDigit = true := by
  rw [Int.repr_eq_if] at h
  split at h
  · exact .inr (isDigit_of_mem_repr h)
  · rw [String.toList_append, List.mem_append] at h
    rcases h with h | h
    · exact .inl (List.mem_singleton.1 h)
    · exact .inr (isDigit_of_mem_repr h)

theorem not_isNameStart_of_isDigit {c : Char} (h : c.isDigit = true) : isNameStart c = false := by
  have hdigits : ∀ n < 58, 48 ≤ n → isNameStart (Char.ofNat n) = false := by decide
  obtain ⟨hlow, hhigh⟩ := Char.isDigit_iff_toNat.1 h
  rw [← Char.ofNat_toNat c]
  exact hdigits c.toNat (Nat.lt_succ_of_le hhigh) hlow

/-- A text that begins with a number is read as one. -/
theorem word_of_repr (value : Int) (rest : List Char) :
    Symbol.word (value.repr.toList ++ rest) = Symbol.number (value.repr.toList ++ rest) := by
  cases htext : value.repr.toList with
  | nil =>
      obtain ⟨c, hc, -⟩ := exists_digit_repr value
      rw [htext] at hc
      cases hc
  | cons first others =>
      have hfirst : first = '-' ∨ first.isDigit = true :=
        mem_repr (by rw [htext]; exact List.mem_cons_self)
      have hstart : isNameStart first = false := by
        rcases hfirst with rfl | hdigit
        · decide
        · exact not_isNameStart_of_isDigit hdigit
      have hsingle : first ≠ Text.singleQuote := by
        rintro rfl
        exact absurd hfirst (by decide)
      have hdouble : first ≠ Text.doubleQuote := by
        rintro rfl
        exact absurd hfirst (by decide)
      rw [List.cons_append, Symbol.word, if_neg (by simp [hstart]), if_neg hsingle, if_neg hdouble]

theorem integer_repr (value : Int) : Symbol.integer value.repr.toList = value := by
  have hread : ∀ n : Nat, Nat.ofDigitChars 10 n.repr.toList 0 = n := by
    intro n
    rw [Nat.toList_repr, Nat.ofDigitChars_ten_toDigits]
  cases value with
  | ofNat n =>
      show Symbol.integer n.repr.toList = n
      unfold Symbol.integer
      split
      · rename_i digits hdigits
        have hsign : '-' ∈ n.repr.toList := hdigits ▸ List.mem_cons_self
        exact absurd (isDigit_of_mem_repr hsign) (by decide)
      · rw [hread]
  | negSucc n =>
      have htext : (Int.negSucc n).repr.toList = '-' :: (n + 1).repr.toList :=
        String.toList_append
      rw [htext, Symbol.integer, hread, Int.negSucc_eq, Int.natCast_add_one]

theorem symbol_integer (value : Int64) :
    (Token.text (Literal.integer value)).symbol = .atom (.integer value) := by
  have hlast : value.toInt.repr.toList.getLast? ≠ some 'L' := fun h =>
    absurd (mem_repr (List.mem_of_getLast? h)) (by decide)
  have hword := word_of_repr value.toInt []
  rw [List.append_nil] at hword
  rw [symbol_word (integer_not_fixed value), Literal.integer, hword, Symbol.number, if_neg hlast,
    integer_repr, Int64.ofInt_toInt]

theorem symbol_long (value : Int64) :
    (Token.text (Literal.long value)).symbol = .atom (.long value) := by
  have htext : (Literal.long value).toList = value.toInt.repr.toList ++ ['L'] :=
    String.toList_append
  rw [symbol_word (long_not_fixed value), htext, word_of_repr, Symbol.number,
    if_pos List.getLast?_concat, List.dropLast_concat, integer_repr, Int64.ofInt_toInt]

theorem symbol_character (value : Char) :
    (Token.text (Literal.character value)).symbol = .atom (.character value) := by
  have htext : (Literal.character value).toList =
      Text.singleQuote :: (Text.escape Text.singleQuote [value] ++ [Text.singleQuote]) := by
    rw [Literal.character, Text.quoted, String.toList_ofList, String.toList_ofList]
    rfl
  have hfixed : Literal.character value ∉ fixedTexts := quoted_not_fixed (by decide) _
  rw [symbol_word hfixed, htext, Symbol.word, if_neg (by decide), if_pos rfl, List.dropLast_concat,
    Text.meant?_escape (.inl rfl)]

theorem symbol_text (value : String) :
    (Token.text (Literal.text value)).symbol = .atom (.text value) := by
  have htext : (Literal.text value).toList =
      Text.doubleQuote :: (Text.escape Text.doubleQuote value.toList ++ [Text.doubleQuote]) := by
    rw [Literal.text, Text.quoted, String.toList_ofList]
    rfl
  have hfixed : Literal.text value ∉ fixedTexts := quoted_not_fixed (by decide) value
  rw [symbol_word hfixed, htext, Symbol.word, if_neg (by decide), if_neg (by decide), if_pos rfl,
    List.dropLast_concat, Text.meant?_escape (.inr rfl)]
  exact congrArg (fun text => Symbol.atom (.text text)) String.ofList_toList

theorem filter_intercalate {names : List (List Char)} (h : ∀ n ∈ names, ' ' ∉ n) :
    ([',', ' '].intercalate names).filter (· ≠ ' ') = [','].intercalate names := by
  have hkeep : ∀ n ∈ names, n.filter (· ≠ ' ') = n := by
    intro n hn
    rw [List.filter_eq_self]
    intro c hc
    rw [decide_eq_true_eq]
    rintro rfl
    exact h n hn hc
  induction names with
  | nil => rfl
  | cons first rest ih =>
      have hfirst := hkeep first List.mem_cons_self
      have hrest := ih (fun n hn => h n (List.mem_cons_of_mem _ hn))
        fun n hn => hkeep n (List.mem_cons_of_mem _ hn)
      cases rest with
      | nil => rw [List.intercalate_singleton, List.intercalate_singleton, hfirst]
      | cons second rest =>
          rw [List.intercalate_cons_cons, List.intercalate_cons_cons, List.filter_append,
            List.filter_append, hfirst, hrest]
          rfl

theorem listedNames_intercalate {names : List String} (h : ∀ n ∈ names, isIdentifier n = true)
    (hne : names ≠ []) : Symbol.listedNames (String.intercalate ", " names).toList = names := by
  have hnot : ∀ c, isNameStart c = false → isNamePart c = false →
      ∀ text ∈ names.map String.toList, c ∉ text := by
    intro c hstart hpart text htext
    obtain ⟨n, hn, rfl⟩ := List.mem_map.1 htext
    exact not_mem_of_isIdentifier (h n hn) hstart hpart
  rw [Symbol.listedNames, String.toList_intercalate]
  have hfilter := filter_intercalate (hnot ' ' (by decide) (by decide))
  have hsplit := List.splitOn_intercalate ',' (hnot ',' (by decide) (by decide))
    (by simpa using hne)
  have hread : ", ".toList = [',', ' '] := by decide
  rw [hread, hfilter, hsplit, List.map_map]
  simp [Function.comp_def]

theorem symbol_parameters {names : List String} (h : ∀ n ∈ names, isIdentifier n = true)
    (hlength : names.length ≠ 1) :
    (Token.text (String.intercalate ", " names)).symbol = .parameters names := by
  rcases names with _ | ⟨first, _ | ⟨second, rest⟩⟩
  · rfl
  · exact absurd rfl hlength
  · have hempty : ∀ n, isIdentifier n = true → n ≠ "" := by
      rintro n hn rfl
      cases hn
    have hfixed : String.intercalate ", " (first :: second :: rest) ∉ fixedTexts :=
      parameters_not_fixed fun n hn => ⟨hempty n (h n hn), isIdentifier_not_fixed (h n hn)⟩
    obtain ⟨c, others, htext, hc, -⟩ := exists_of_isIdentifier (h first List.mem_cons_self)
    have hlist : (String.intercalate ", " (first :: second :: rest)).toList =
        c :: (others ++ ',' :: ' ' :: (String.intercalate ", " (second :: rest)).toList) := by
      rw [String.toList_intercalate, String.toList_intercalate, List.map_cons, List.map_cons,
        List.intercalate_cons_cons, htext]
      simp
    have hnames := listedNames_intercalate h (by simp)
    rw [hlist] at hnames
    rw [symbol_word hfixed, hlist, Symbol.word, if_pos hc, if_pos (by simp), hnames]

end Words

end JavaFragments
