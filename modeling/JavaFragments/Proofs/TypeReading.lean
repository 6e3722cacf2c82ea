import JavaFragments.Proofs.Assignability
import JavaFragments.Proofs.LeafTokens
import JavaFragments.Type.Equality

/-! # Types are known by their tokens

A type is read back from its tokens one by one, with a stack of the class types whose arguments are
still open. The reader never looks ahead: dots, angle brackets and array brackets each say what
becomes of the type in front of them. The dotted names of classes are not printed and so do not come
back. -/
set_option autoImplicit false

namespace JavaFragments

/-! ## What does not come back -/

mutual

/-- The type without the dotted names of its classes. -/
def JavaType.unqualified : JavaType → JavaType
  | .primitive t => .primitive t
  | .classType t => .classType t.unqualified
  | .memberType member outer => .memberType member.unqualified outer.unqualified
  | .typeVariable t => .typeVariable t

def ClassType.unqualified : ClassType → ClassType
  | ⟨internalName, _, name, none, dimension⟩ => ⟨internalName, "", name, none, dimension⟩
  | ⟨internalName, _, name, some arguments, dimension⟩ =>
      ⟨internalName, "", name, some arguments.unqualified, dimension⟩

def TypeArgument.unqualified : TypeArgument → TypeArgument
  | .type t => .type t.unqualified
  | .wildcard => .wildcard
  | .wildcardExtends bound => .wildcardExtends bound.unqualified
  | .wildcardSuper bound => .wildcardSuper bound.unqualified
  | .list first second rest =>
      .list first.unqualified second.unqualified (unqualifiedArguments rest)

def unqualifiedArguments : List TypeArgument → List TypeArgument
  | [] => []
  | argument :: rest => argument.unqualified :: unqualifiedArguments rest

end

theorem unqualifiedArguments_eq_map (arguments : List TypeArgument) :
    unqualifiedArguments arguments = arguments.map TypeArgument.unqualified := by
  induction arguments with
  | nil => rfl
  | cons argument rest ih => rw [unqualifiedArguments, ih, List.map_cons]

mutual

/-- Erasing drops the dotted names as well. -/
theorem JavaType.erased_unqualified : ∀ t : JavaType, t.unqualified.erased = t.erased
  | .primitive _ => rfl
  | .classType t => by
      rw [JavaType.unqualified, JavaType.erased, JavaType.erased, t.erased_unqualified]
  | .memberType member _ => by
      rw [JavaType.unqualified, JavaType.erased, JavaType.erased, member.erased_unqualified]
  | .typeVariable _ => rfl

theorem ClassType.erased_unqualified : ∀ t : ClassType, t.unqualified.erased = t.erased
  | ⟨_, _, _, none, _⟩ => rfl
  | ⟨_, _, _, some arguments, _⟩ => by
      rw [ClassType.unqualified, ClassType.erased, ClassType.erased, arguments.erased_unqualified]

theorem TypeArgument.erased_unqualified : ∀ t : TypeArgument, t.unqualified.erased = t.erased
  | .type t => by
      rw [TypeArgument.unqualified, TypeArgument.erased, TypeArgument.erased, t.erased_unqualified]
  | .wildcard => rfl
  | .wildcardExtends bound => by
      rw [TypeArgument.unqualified, TypeArgument.erased, TypeArgument.erased,
        bound.erased_unqualified]
  | .wildcardSuper bound => by
      rw [TypeArgument.unqualified, TypeArgument.erased, TypeArgument.erased,
        bound.erased_unqualified]
  | .list first second rest => by
      rw [TypeArgument.unqualified, TypeArgument.erased, TypeArgument.erased,
        first.erased_unqualified, second.erased_unqualified, erasedArguments_unqualified rest]

theorem erasedArguments_unqualified : ∀ arguments : List TypeArgument,
    erasedArguments (unqualifiedArguments arguments) = erasedArguments arguments
  | [] => rfl
  | argument :: rest => by
      rw [unqualifiedArguments, erasedArguments, erasedArguments, argument.erased_unqualified,
        erasedArguments_unqualified rest]

end

/-! ## Words -/

/-- What a token means to a reader of types. -/
inductive TypeWord where
  | primitive (kind : Primitive)
  | variable (name : String)
  | reference (internalName name : String)
  | dot | dimension | opening | closing | comma | question | space | extends | super
  | other

namespace TypeWord

def marks : List (String × TypeWord) :=
  commonMarks .space .dot .comma .dimension ++
    [("<", .opening), (">", .closing), ("?", .question)]

def keywords : List (String × TypeWord) :=
  ("extends", .extends) :: ("super", .super) ::
    Primitive.all.map fun kind => (kind.keyword, .primitive kind)

end TypeWord

def Token.typeWord : Token → TypeWord
  | .keyword w => (TypeWord.keywords.lookup w).getD .other
  | .text t => (TypeWord.marks.lookup t).getD (.variable t)
  | .reference internalName name _ => .reference internalName name
  | _ => .other

theorem typeWord_keyword (kind : Primitive) :
    (Token.keyword kind.keyword).typeWord = .primitive kind := by
  cases kind <;> rfl

def Phrase.typeWords (phrase : Phrase) : List TypeWord :=
  phrase.tokens.map Token.typeWord

/-! ## Types whose tokens can be read -/

mutual

/-- No type variable is named like a mark, as no identifier is, and no list of arguments is itself
an element of a list. -/
def JavaType.isReadable : JavaType → Bool
  | .primitive _ => true
  | .classType t => t.isReadable
  | .memberType member outer => member.isReadable && outer.isReadable
  | .typeVariable t => (TypeWord.marks.lookup t.name).isNone

def ClassType.isReadable : ClassType → Bool
  | ⟨_, _, _, none, _⟩ => true
  | ⟨_, _, _, some arguments, _⟩ => arguments.isReadable

def TypeArgument.isReadable : TypeArgument → Bool
  | .type t => t.isReadable
  | .wildcard => true
  | .wildcardExtends bound => bound.isReadable
  | .wildcardSuper bound => bound.isReadable
  | .list first second rest =>
      !first.isList && first.isReadable && (!second.isList && second.isReadable) &&
        areReadable rest

/-- The elements of a list. -/
def areReadable : List TypeArgument → Bool
  | [] => true
  | argument :: rest => !argument.isList && argument.isReadable && areReadable rest

end

/-! ## The reader -/

namespace TypeReader

/-- How a type stands as an argument: for itself, or as a bound of a wildcard. -/
inductive Position where
  | exact | upper | lower

def Position.argument : Position → JavaType → TypeArgument
  | .exact, t => .type t
  | .upper, t => .wildcardExtends t
  | .lower, t => .wildcardSuper t

/-- What has been read of a type or of an argument. -/
inductive Item where
  /-- A type comes next, a member of the outer type where there is one. -/
  | expected (position : Position) (outer : Option JavaType)
  | type (position : Position) (type : JavaType)
  | wildcard

def Item.argument? : Item → Option TypeArgument
  | .expected .. => none
  | .type position t => some (position.argument t)
  | .wildcard => some .wildcard

/-- A type whose arguments are being read. -/
structure OpenType where
  position : Position
  type : JavaType
  /-- The arguments in front of the present one. -/
  arguments : List TypeArgument

structure State where
  /-- The innermost type comes first. -/
  enclosing : List OpenType
  item : Item

def memberOf : Option JavaType → ClassType → JavaType
  | none, t => .classType t
  | some outer, t => .memberType t outer

/-- The type with the arguments, where it denotes a class. -/
def withArguments (arguments : Option TypeArgument) : JavaType → JavaType
  | .classType t => .classType { t with arguments := arguments }
  | .memberType member outer => .memberType { member with arguments := arguments } outer
  | t => t

/-- The type with more dimensions. -/
def raise (count : UInt32) : JavaType → JavaType
  | .primitive t => .primitive { t with dimension := t.dimension + count }
  | .classType t => .classType { t with dimension := t.dimension + count }
  | .memberType member outer =>
      .memberType { member with dimension := member.dimension + count } outer
  | .typeVariable t => .typeVariable { t with dimension := t.dimension + count }

/-- What stands between angle brackets, from its parts. -/
def collect : List TypeArgument → Option TypeArgument
  | [] => none
  | [argument] => some argument
  | first :: second :: rest => some (.list first second rest)

/-- What a word does to what has been read. Spaces do nothing. -/
def step : TypeWord → State → Option State
  | .primitive kind, ⟨enclosing, .expected position none⟩ =>
      some ⟨enclosing, .type position (.ofPrimitive kind)⟩
  | .variable name, ⟨enclosing, .expected position none⟩ =>
      some ⟨enclosing, .type position (.ofVariable name)⟩
  | .reference internalName name, ⟨enclosing, .expected position outer⟩ =>
      some ⟨enclosing, .type position (memberOf outer ⟨internalName, "", name, none, 0⟩)⟩
  | .dot, ⟨enclosing, .type position t⟩ => some ⟨enclosing, .expected position (some t)⟩
  | .dimension, ⟨enclosing, .type position t⟩ => some ⟨enclosing, .type position (raise 1 t)⟩
  | .opening, ⟨enclosing, .type position t⟩ =>
      some ⟨⟨position, t, []⟩ :: enclosing, .expected .exact none⟩
  | .closing, ⟨t :: enclosing, item⟩ => do
      let argument ← item.argument?
      some ⟨enclosing, .type t.position
        (withArguments (collect (t.arguments ++ [argument])) t.type)⟩
  | .comma, ⟨t :: enclosing, item⟩ => do
      let argument ← item.argument?
      some ⟨{ t with arguments := t.arguments ++ [argument] } :: enclosing, .expected .exact none⟩
  | .question, ⟨enclosing, .expected .exact none⟩ => some ⟨enclosing, .wildcard⟩
  | .extends, ⟨enclosing, .wildcard⟩ => some ⟨enclosing, .expected .upper none⟩
  | .super, ⟨enclosing, .wildcard⟩ => some ⟨enclosing, .expected .lower none⟩
  | .space, s => some s
  | _, _ => none

def run (s : State) (words : List TypeWord) : Option State :=
  words.foldlM (fun s word => step word s) s

theorem run_cons (s : State) (word : TypeWord) (words : List TypeWord) :
    run s (word :: words) = (step word s).bind (run · words) :=
  List.foldlM_cons

/-- A run over a phrase goes on where the front of the phrase leads. -/
theorem run_append {s s' : State} {front : Phrase} (h : run s front.typeWords = some s')
    (back : Phrase) : run s (front ++ back).typeWords = run s' back.typeWords := by
  have hsplit : run s (front ++ back).typeWords =
      (run s front.typeWords).bind (run · back.typeWords) := by
    rw [Phrase.typeWords, Phrase.tokens_append, List.map_append]
    exact List.foldlM_append
  rw [hsplit, h, Option.bind_some]

/-! ## Array brackets -/

theorem raise_zero : ∀ t : JavaType, raise 0 t = t
  | .primitive _ => by simp [raise]
  | .classType ⟨_, _, _, _, _⟩ => by simp [raise]
  | .memberType ⟨_, _, _, _, _⟩ _ => by simp [raise]
  | .typeVariable _ => by simp [raise]

theorem raise_raise (m n : UInt32) (t : JavaType) : raise m (raise n t) = raise (n + m) t := by
  cases t <;> simp [raise, UInt32.add_assoc]

/-- Each pair of brackets raises the dimension by one. -/
theorem run_replicate_dimension (enclosing : List OpenType) (position : Position) (count : Nat)
    (t : JavaType) :
    run ⟨enclosing, .type position t⟩ (List.replicate count .dimension) =
      some ⟨enclosing, .type position (raise (UInt32.ofNat count) t)⟩ := by
  induction count generalizing t with
  | zero =>
      show some _ = some _
      rw [show UInt32.ofNat 0 = 0 from rfl, raise_zero]
  | succ count ih =>
      rw [List.replicate_succ, run_cons, step, Option.bind_some, ih, raise_raise,
        UInt32.ofNat_add, UInt32.add_comm]
      rfl

theorem run_dimensionPhrase (enclosing : List OpenType) (position : Position) (n : UInt32)
    (t : JavaType) :
    run ⟨enclosing, .type position t⟩ (dimensionPhrase n).typeWords =
      some ⟨enclosing, .type position (raise n t)⟩ := by
  have hwords : (dimensionPhrase n).typeWords = List.replicate n.toNat .dimension :=
    List.map_replicate
  rw [hwords, run_replicate_dimension, UInt32.ofNat_toNat]

/-! ## Arguments -/

/-- The arguments that an argument is printed as: the elements of a list. -/
def parts : TypeArgument → List TypeArgument
  | .list first second rest => first :: second :: rest
  | t => [t]

theorem collect_parts (t : TypeArgument) : collect (parts t) = some t := by
  cases t <;> rfl

theorem parts_of_not_list {t : TypeArgument} (h : t.isList = false) : parts t = [t] := by
  cases t <;> first | rfl | cases h

theorem isList_unqualified (t : TypeArgument) : t.unqualified.isList = t.isList := by
  cases t <;> rfl

/-- From the words of the argument the reader has all its parts, the last one in its item and the
others with the type that they belong to. -/
def ReadsArgument (env : Environment) (argument : TypeArgument) : Prop :=
  ∀ (enclosing : List OpenType) (t : OpenType), ∃ front item last,
    run ⟨t :: enclosing, .expected .exact none⟩ (argument.phrase env).typeWords =
        some ⟨{ t with arguments := t.arguments ++ front } :: enclosing, item⟩ ∧
      item.argument? = some last ∧ parts argument.unqualified = front ++ [last]

section Arguments
variable {env : Environment} {argument : TypeArgument}

/-- An argument that is no list has one part, whatever is open around it. -/
theorem ReadsArgument.of_item (item : Item) (hitem : item.argument? = some argument.unqualified)
    (hlist : argument.isList = false)
    (hrun : ∀ enclosing, run ⟨enclosing, .expected .exact none⟩ (argument.phrase env).typeWords =
      some ⟨enclosing, item⟩) :
    ReadsArgument env argument := by
  intro enclosing t
  refine ⟨[], item, argument.unqualified, ?_, hitem, ?_⟩
  · rw [hrun, List.append_nil]
  · exact parts_of_not_list ((isList_unqualified argument).trans hlist)

theorem ReadsArgument.item (h : ReadsArgument env argument) (hlist : argument.isList = false)
    (enclosing : List OpenType) (t : OpenType) :
    ∃ item, run ⟨t :: enclosing, .expected .exact none⟩ (argument.phrase env).typeWords =
        some ⟨t :: enclosing, item⟩ ∧ item.argument? = some argument.unqualified := by
  obtain ⟨front, item, last, hrun, hitem, hparts⟩ := h enclosing t
  rw [parts_of_not_list ((isList_unqualified argument).trans hlist)] at hparts
  obtain ⟨rfl, hlast⟩ : front = [] ∧ [argument.unqualified] = [last] := by
    cases front <;> simp_all
  rw [List.append_nil] at hrun
  rw [List.singleton_inj.1 hlast]
  exact ⟨item, hrun, hitem⟩

/-- Arguments with commas between them are read one after the other, and each comma puts the one in
front of it with the type that they belong to. -/
theorem run_join (first : TypeArgument) (rest : List TypeArgument)
    (h : ∀ argument ∈ first :: rest, ReadsArgument env argument ∧ argument.isList = false)
    (enclosing : List OpenType) (t : OpenType) : ∃ front item last,
    run ⟨t :: enclosing, .expected .exact none⟩
          (Phrase.join .commaSpace ((first :: rest).map (TypeArgument.phrase env))).typeWords =
        some ⟨{ t with arguments := t.arguments ++ front } :: enclosing, item⟩ ∧
      item.argument? = some last ∧
      (first :: rest).map TypeArgument.unqualified = front ++ [last] := by
  -- The type in front changes at each comma, so the induction is for any such type.
  induction rest generalizing first t with
  | nil =>
      obtain ⟨hfirst, hlist⟩ := h first List.mem_cons_self
      obtain ⟨item, hrun, hitem⟩ := hfirst.item hlist enclosing t
      refine ⟨[], item, first.unqualified, ?_, hitem, rfl⟩
      rw [List.append_nil]
      exact hrun
  | cons second rest ih =>
      rw [List.forall_mem_cons] at h
      obtain ⟨item, hrun, hitem⟩ := h.1.1.item h.1.2 enclosing t
      have hcomma : run ⟨t :: enclosing, item⟩ (Phrase.ofToken .commaSpace).typeWords =
          some ⟨{ t with arguments := t.arguments ++ [first.unqualified] } :: enclosing,
            .expected .exact none⟩ := by
        show (step .comma ⟨t :: enclosing, item⟩).bind _ = _
        rw [step, hitem]
        rfl
      obtain ⟨front, item', last, hrun', hitem', hfront⟩ := ih second h.2
        { t with arguments := t.arguments ++ [first.unqualified] }
      refine ⟨first.unqualified :: front, item', last, ?_, hitem', ?_⟩
      · rw [List.append_assoc] at hrun'
        exact (run_append ((run_append hrun _).trans hcomma) _).trans hrun'
      · rw [List.map_cons, hfront, List.cons_append]

/-- An argument between angle brackets becomes the argument of the type in front of it. -/
theorem ReadsArgument.enclosed (h : ReadsArgument env argument) (enclosing : List OpenType)
    (position : Position) (t : JavaType) :
    run ⟨enclosing, .type position t⟩
        (Phrase.enclosed .openAngle .closeAngle (argument.phrase env)).typeWords =
      some ⟨enclosing, .type position (withArguments (some argument.unqualified) t)⟩ := by
  obtain ⟨front, item, last, hrun, hitem, hparts⟩ := h enclosing ⟨position, t, []⟩
  have hopening : run ⟨enclosing, .type position t⟩ (Phrase.ofToken .openAngle).typeWords =
      some ⟨⟨position, t, []⟩ :: enclosing, .expected .exact none⟩ := rfl
  have hclosing : run ⟨⟨position, t, [] ++ front⟩ :: enclosing, item⟩
      (Phrase.ofToken .closeAngle).typeWords =
        some ⟨enclosing, .type position (withArguments (some argument.unqualified) t)⟩ := by
    show (step .closing ⟨⟨position, t, [] ++ front⟩ :: enclosing, item⟩).bind _ = _
    rw [step, hitem, ← collect_parts argument.unqualified, hparts]
    rfl
  exact (run_append ((run_append hopening _).trans hrun) _).trans hclosing

end Arguments

/-! ## Types -/

theorem run_primitive (enclosing : List OpenType) (position : Position) (kind : Primitive) :
    run ⟨enclosing, .expected position none⟩ (Phrase.ofToken (.keyword kind.keyword)).typeWords =
      some ⟨enclosing, .type position (.ofPrimitive kind)⟩ := by
  show run _ [(Token.keyword kind.keyword).typeWord] = _
  rw [typeWord_keyword]
  rfl

theorem run_variable {name : String} (h : (TypeWord.marks.lookup name).isNone = true)
    (enclosing : List OpenType) (position : Position) :
    run ⟨enclosing, .expected position none⟩ (Phrase.ofToken (.text name)).typeWords =
      some ⟨enclosing, .type position (.ofVariable name)⟩ := by
  show run _ [(TypeWord.marks.lookup name).getD (.variable name)] = _
  rw [Option.isNone_iff_eq_none.1 h]
  rfl

theorem run_reference (env : Environment) (internalName name : String) (enclosing : List OpenType)
    (position : Position) (outer : Option JavaType) :
    run ⟨enclosing, .expected position outer⟩ (referencePhrase env internalName name).typeWords =
      some ⟨enclosing, .type position (memberOf outer ⟨internalName, "", name, none, 0⟩)⟩ := by
  cases outer <;> rfl

theorem withArguments_memberOf (outer : Option JavaType) (internalName name : String)
    (arguments : Option TypeArgument) :
    withArguments arguments (memberOf outer ⟨internalName, "", name, none, 0⟩) =
      memberOf outer ⟨internalName, "", name, arguments, 0⟩ := by
  cases outer <;> rfl

theorem raise_memberOf (outer : Option JavaType) (internalName name : String)
    (arguments : Option TypeArgument) (n : UInt32) :
    raise n (memberOf outer ⟨internalName, "", name, arguments, 0⟩) =
      memberOf outer ⟨internalName, "", name, arguments, n⟩ := by
  cases outer <;> simp [raise, memberOf]

/-- The words of a bounded wildcard in front of its bound. -/
theorem run_upper (enclosing : List OpenType) :
    run ⟨enclosing, .expected .exact none⟩
        (Phrase.ofTokens [.questionMark, .space, .keyword "extends", .space]).typeWords =
      some ⟨enclosing, .expected .upper none⟩ :=
  rfl

theorem run_lower (enclosing : List OpenType) :
    run ⟨enclosing, .expected .exact none⟩
        (Phrase.ofTokens [.questionMark, .space, .keyword "super", .space]).typeWords =
      some ⟨enclosing, .expected .lower none⟩ :=
  rfl

mutual

/-- A type is read as it stands, whatever is open around it. -/
theorem run_type (env : Environment) : ∀ t : JavaType, t.isReadable = true →
    ∀ (enclosing : List OpenType) (position : Position),
      run ⟨enclosing, .expected position none⟩ (t.phrase env).typeWords =
        some ⟨enclosing, .type position t.unqualified⟩
  | .primitive t, _, enclosing, position => by
      rw [JavaType.phrase, run_append (run_primitive enclosing position t.kind),
        run_dimensionPhrase]
      simp [raise, JavaType.ofPrimitive, JavaType.unqualified]
  | .classType t, h, enclosing, position => run_class env t h enclosing position none
  | .memberType member outer, h, enclosing, position => by
      rw [JavaType.isReadable, Bool.and_eq_true] at h
      have hdot : run ⟨enclosing, .type position outer.unqualified⟩
          (Phrase.ofToken .dot).typeWords =
            some ⟨enclosing, .expected position (some outer.unqualified)⟩ := rfl
      have houter := run_type env outer h.2 enclosing position
      rw [JavaType.phrase, run_append ((run_append houter _).trans hdot)]
      exact run_class env member h.1 enclosing position (some outer.unqualified)
  | .typeVariable t, h, enclosing, position => by
      rw [JavaType.phrase, run_append (run_variable h enclosing position), run_dimensionPhrase]
      simp [raise, JavaType.ofVariable, JavaType.unqualified]

/-- A class type becomes a member of the outer type where the reader has just passed a dot. -/
theorem run_class (env : Environment) : ∀ t : ClassType, t.isReadable = true →
    ∀ (enclosing : List OpenType) (position : Position) (outer : Option JavaType),
      run ⟨enclosing, .expected position outer⟩ (t.unmentionedPhrase env).typeWords =
        some ⟨enclosing, .type position (memberOf outer t.unqualified)⟩
  | ⟨internalName, _, name, none, dimension⟩, _, enclosing, position, outer => by
      have hreference := run_reference env internalName name enclosing position outer
      rw [ClassType.unmentionedPhrase, run_append ((run_append hreference .empty).trans rfl),
        run_dimensionPhrase, raise_memberOf]
      rfl
  | ⟨internalName, _, name, some arguments, dimension⟩, h, enclosing, position, outer => by
      have hreference := run_reference env internalName name enclosing position outer
      have harguments := (reads_argument env arguments h).enclosed enclosing position
        (memberOf outer ⟨internalName, "", name, none, 0⟩)
      rw [ClassType.unmentionedPhrase, run_append ((run_append hreference _).trans harguments),
        run_dimensionPhrase, withArguments_memberOf, raise_memberOf]
      rfl

theorem reads_argument (env : Environment) : ∀ t : TypeArgument, t.isReadable = true →
    ReadsArgument env t
  | .type t, h => by
      refine .of_item (.type .exact t.unqualified) rfl rfl fun enclosing => ?_
      exact run_type env t h enclosing .exact
  | .wildcard, _ => .of_item .wildcard rfl rfl fun _ => rfl
  | .wildcardExtends bound, h => by
      refine .of_item (.type .upper bound.unqualified) rfl rfl fun enclosing => ?_
      rw [TypeArgument.phrase, run_append (run_upper enclosing)]
      exact run_type env bound h enclosing .upper
  | .wildcardSuper bound, h => by
      refine .of_item (.type .lower bound.unqualified) rfl rfl fun enclosing => ?_
      rw [TypeArgument.phrase, run_append (run_lower enclosing)]
      exact run_type env bound h enclosing .lower
  | .list first second rest, h => by
      simp only [TypeArgument.isReadable, Bool.and_eq_true, Bool.not_eq_true'] at h
      obtain ⟨⟨hfirst, hsecond⟩, hrest⟩ := h
      have hall : ∀ argument ∈ first :: second :: rest,
          ReadsArgument env argument ∧ argument.isList = false := by
        rw [List.forall_mem_cons, List.forall_mem_cons]
        exact ⟨⟨reads_argument env first hfirst.2, hfirst.1⟩,
          ⟨reads_argument env second hsecond.2, hsecond.1⟩, reads_arguments env rest hrest⟩
      intro enclosing t
      have hjoin := run_join first (second :: rest) hall enclosing t
      rw [TypeArgument.phrase, argumentPhrases_eq_map, TypeArgument.unqualified,
        unqualifiedArguments_eq_map]
      exact hjoin

theorem reads_arguments (env : Environment) : ∀ arguments : List TypeArgument,
    areReadable arguments = true →
      ∀ argument ∈ arguments, ReadsArgument env argument ∧ argument.isList = false
  | [], _ => fun _ hargument => nomatch hargument
  | argument :: rest, h => by
      simp only [areReadable, Bool.and_eq_true, Bool.not_eq_true'] at h
      rw [List.forall_mem_cons]
      exact ⟨⟨reads_argument env argument h.1.2, h.1.1⟩, reads_arguments env rest h.2⟩

end

/-- The type that is read from words with nothing open around it. -/
def read? (words : List TypeWord) : Option JavaType :=
  match run ⟨[], .expected .exact none⟩ words with
  | some ⟨[], .type .exact t⟩ => some t
  | _ => none

theorem read?_phrase (env : Environment) {t : JavaType} (h : t.isReadable = true) :
    read? (t.phrase env).typeWords = some t.unqualified := by
  rw [read?, run_type env t h]

end TypeReader

/-- Readable types that are printed with the same tokens agree in all but the dotted names of their
classes, and each accepts the other. -/
theorem unqualified_eq_of_tokens_eq (env : Environment) {a b : JavaType}
    (ha : a.isReadable = true) (hb : b.isReadable = true)
    (h : (a.phrase env).tokens = (b.phrase env).tokens) :
    a.unqualified = b.unqualified ∧ a.accepts b = true ∧ b.accepts a = true := by
  have hwords : (a.phrase env).typeWords = (b.phrase env).typeWords :=
    congrArg (List.map Token.typeWord) h
  have hread : some a.unqualified = some b.unqualified := by
    rw [← TypeReader.read?_phrase env ha, ← TypeReader.read?_phrase env hb, hwords]
  have heq : a.unqualified = b.unqualified := Option.some.inj hread
  have herased : a.erased = b.erased := by
    rw [← a.erased_unqualified, ← b.erased_unqualified, heq]
  exact ⟨heq, JavaType.accepts_of_erased_eq herased, JavaType.accepts_of_erased_eq herased.symm⟩

/-- `Map<? super T, int[][]>[].Entry<K[], ?, List<? extends T>>[]`, with and without dotted
names. -/
theorem unqualified_eq_of_tokens_eq_of_entry :
    let list := fun name => ClassType.mk "java/util/List" name "List"
      (some (.wildcardExtends (.ofVariable "T"))) 0
    let map := fun name => ClassType.mk "java/util/Map" name "Map"
      (some (.list (.wildcardSuper (.ofVariable "T")) (.type (.primitive ⟨.int, 2⟩)) [])) 1
    let entry := fun name => ClassType.mk "java/util/Map$Entry" name "Entry"
      (some (.list (.type (.typeVariable ⟨"K", 1⟩)) .wildcard [.type (.classType (list name))])) 1
    let dotted :=
      JavaType.memberType (entry "java.util.Map.Entry") (.classType (map "java.util.Map"))
    let undotted := JavaType.memberType (entry "") (.classType (map ""))
    dotted ≠ undotted ∧ dotted.unqualified = undotted.unqualified ∧
      dotted.accepts undotted = true ∧ undotted.accepts dotted = true := by
  intro list map entry dotted undotted
  have hne : dotted ≠ undotted := by decide
  have hdotted : dotted.isReadable = true := by decide
  have hundotted : undotted.isReadable = true := by decide
  have htokens : (dotted.phrase ⟨"Main"⟩).tokens = (undotted.phrase ⟨"Main"⟩).tokens := by decide
  exact ⟨hne, unqualified_eq_of_tokens_eq ⟨"Main"⟩ hdotted hundotted htokens⟩

/-- A list in a list is printed like one list. -/
example :
    let typeOf := fun arguments => JavaType.classType
      { ClassType.ofInternalName "Box" with arguments := some arguments }
    let nested := typeOf (.list .wildcard (.list .wildcard (.type (.ofVariable "T")) []) [])
    let flat := typeOf (.list .wildcard .wildcard [.type (.ofVariable "T")])
    nested.isReadable = false ∧ (nested.phrase ⟨"Main"⟩).tokens = (flat.phrase ⟨"Main"⟩).tokens ∧
      flat.accepts nested = false := by
  decide

end JavaFragments
